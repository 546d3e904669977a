import AccountGate.License.Entitlement
import AccountGate.Proofs.Rsa.Verification
import AccountGate.Proofs.Text.Utf8

/-!
What a check of a support claim says, and why. Main statement: a status is the answer of `check`
exactly when the first failure in order leads to it; a claim is supported when there is none.
-/

namespace AccountGate

theorem Rsa.PublicKey.parse?_of_blank {keyText : String} (h : (Text.trim keyText).isEmpty) :
    parse? keyText = none := by
  have hempty : Pem.decode? subjectLabel "" = none ∧ Pem.decode? bareLabel "" = none := by
    decide +kernel
  simp only [parse?, Text.trim_eq_empty h, hempty.1, hempty.2]
  rfl

namespace License

variable {message signature : Bytes} {keyText : String} {key : Rsa.PublicKey}

theorem fault?_of_empty (hm : message ≠ []) : fault? message [] keyText = some .emptySignature := by
  simp [fault?, hm]

theorem fault?_of_blank_key (hm : message ≠ []) (hs : signature ≠ [])
    (hk : (Text.trim keyText).isEmpty) :
    fault? message signature keyText = some (.keyUnavailable "public key is empty") := by
  simp [fault?, hm, hs, hk]

theorem fault?_of_malformed_key (hm : message ≠ []) (hs : signature ≠ [])
    (hk : ¬ (Text.trim keyText).isEmpty) (hp : Rsa.PublicKey.parse? keyText = none) :
    fault? message signature keyText = some .malformedKey := by
  simp [fault?, hm, hs, hk, hp]

theorem fault?_of_parsed (hm : message ≠ []) (hs : signature ≠ [])
    (hp : Rsa.PublicKey.parse? keyText = some key) :
    fault? message signature keyText =
      if Rsa.verifies key message signature then none else some .signatureMismatch := by
  have hk : ¬ (Text.trim keyText).isEmpty := by
    intro h
    rw [Rsa.PublicKey.parse?_of_blank h] at hp
    exact absurd hp (by simp)
  simp [fault?, hm, hs, hk, hp]

namespace Entitlement

variable {e : Entitlement} {today : Date}

/-- The word at the end keeps the signed text from being empty. -/
theorem bytes_message_ne_nil (e : Entitlement) : Text.bytes e.message ≠ [] := by
  have hword : Text.bytes "true" ≠ [] := by decide
  rw [message, Text.bytes_append]
  exact List.append_ne_nil_of_right_ne_nil _ hword

/-- The claim is made, and its signature is one of the signed text under the key. -/
structure Genuine (e : Entitlement) (keyText : String) : Prop where
  claimed : e.supported = true
  signed : ∃ signature key, Codec.Base64.decode e.signature = .ok signature ∧ signature ≠ [] ∧
    Rsa.PublicKey.parse? keyText = some key ∧
    Rsa.Verifies key (Text.bytes e.message) signature

/-- The answers of a check with their reasons; each rule rules out the ones before it. -/
inductive Outcome (e : Entitlement) (keyText : String) (today : Date) : Status → Prop
  | unclaimed : e.supported = false → Outcome e keyText today .unsupported
  | malformedSignature (f : Codec.Base64.Fault) : e.supported = true →
      Codec.Base64.decode e.signature = .error f →
      Outcome e keyText today
        (.rejected (.malformedSignature ("decode error: invalid base64: " ++ f.message)))
  | emptySignature : e.supported = true → Codec.Base64.decode e.signature = .ok [] →
      Outcome e keyText today (.rejected .emptySignature)
  | noKey (signature : Bytes) : e.supported = true →
      Codec.Base64.decode e.signature = .ok signature → signature ≠ [] →
      (Text.trim keyText).isEmpty →
      Outcome e keyText today (.rejected (.keyUnavailable "public key is empty"))
  | malformedKey (signature : Bytes) : e.supported = true →
      Codec.Base64.decode e.signature = .ok signature → signature ≠ [] →
      ¬ (Text.trim keyText).isEmpty → Rsa.PublicKey.parse? keyText = none →
      Outcome e keyText today (.rejected .malformedKey)
  | mismatch (signature : Bytes) (key : Rsa.PublicKey) : e.supported = true →
      Codec.Base64.decode e.signature = .ok signature → signature ≠ [] →
      Rsa.PublicKey.parse? keyText = some key →
      ¬ Rsa.Verifies key (Text.bytes e.message) signature →
      Outcome e keyText today (.rejected .signatureMismatch)
  | malformedStart (f : Date.Fault) : e.Genuine keyText →
      Date.parse e.startDate = .error f →
      Outcome e keyText today
        (.rejected (.malformedDate (Text.quoted e.startDate ++ ": " ++ f.message)))
  | malformedEnd (first : Date) (f : Date.Fault) : e.Genuine keyText →
      Date.parse e.startDate = .ok first → Date.parse e.endDate = .error f →
      Outcome e keyText today
        (.rejected (.malformedDate (Text.quoted e.endDate ++ ": " ++ f.message)))
  | expired (first last : Date) : e.Genuine keyText →
      Date.parse e.startDate = .ok first → Date.parse e.endDate = .ok last →
      ¬ (first ≤ today ∧ today ≤ last) →
      Outcome e keyText today .expired
  | supported (first last : Date) : e.Genuine keyText →
      Date.parse e.startDate = .ok first → Date.parse e.endDate = .ok last →
      first ≤ today → today ≤ last →
      Outcome e keyText today .supported

theorem Genuine.fault?_eq_none (h : e.Genuine keyText) :
    ∃ signature, Codec.Base64.decode e.signature = .ok signature ∧
      fault? (Text.bytes e.message) signature keyText = none := by
  obtain ⟨signature, key, hd, hs, hp, hv⟩ := h.signed
  refine ⟨signature, hd, ?_⟩
  rw [fault?_of_parsed e.bytes_message_ne_nil hs hp, if_pos (Rsa.verifies_iff.mpr hv)]

theorem check_of_genuine (h : e.Genuine keyText) :
    e.check keyText today =
      match date e.startDate, date e.endDate with
      | .error reason, _ => .rejected reason
      | .ok _, .error reason => .rejected reason
      | .ok first, .ok last => if first ≤ today ∧ today ≤ last then .supported else .expired := by
  obtain ⟨signature, hd, hf⟩ := h.fault?_eq_none
  simp only [check, h.claimed, hd, hf]
  rfl

theorem check_of_fault (hc : e.supported = true)
    (hd : Codec.Base64.decode e.signature = .ok signature) {reason : Reason}
    (hf : fault? (Text.bytes e.message) signature keyText = some reason) :
    e.check keyText today = .rejected reason := by
  simp only [check, hc, hd, hf]
  rfl

theorem Outcome.check_eq {status : Status} (h : Outcome e keyText today status) :
    e.check keyText today = status := by
  have hm := e.bytes_message_ne_nil
  cases h with
  | unclaimed hc => simp [check, hc]
  | malformedSignature f hc hd => simp [check, hc, hd]
  | emptySignature hc hd => exact check_of_fault hc hd (fault?_of_empty hm)
  | noKey signature hc hd hs hk => exact check_of_fault hc hd (fault?_of_blank_key hm hs hk)
  | malformedKey signature hc hd hs hk hp =>
    exact check_of_fault hc hd (fault?_of_malformed_key hm hs hk hp)
  | mismatch signature key hc hd hs hp hv =>
    apply check_of_fault hc hd
    rw [fault?_of_parsed hm hs hp, if_neg (mt Rsa.verifies_iff.mp hv)]
  | malformedStart f hg hfirst => simp [check_of_genuine hg, date, hfirst]
  | malformedEnd first f hg hfirst hlast => simp [check_of_genuine hg, date, hfirst, hlast]
  | expired first last hg hfirst hlast ht =>
    simp only [check_of_genuine hg, date, hfirst, hlast, if_neg ht]
  | supported first last hg hfirst hlast hf hl =>
    simp only [check_of_genuine hg, date, hfirst, hlast, if_pos (And.intro hf hl)]

theorem Genuine.outcome (h : e.Genuine keyText) :
    ∃ status, Outcome e keyText today status := by
  cases hfirst : Date.parse e.startDate with
  | error f => exact ⟨_, .malformedStart f h hfirst⟩
  | ok first =>
    cases hlast : Date.parse e.endDate with
    | error f => exact ⟨_, .malformedEnd first f h hfirst hlast⟩
    | ok last =>
      by_cases ht : first ≤ today ∧ today ≤ last
      · exact ⟨_, .supported first last h hfirst hlast ht.1 ht.2⟩
      · exact ⟨_, .expired first last h hfirst hlast ht⟩

/-- Some rule applies to every claim. -/
theorem exists_outcome (e : Entitlement) (keyText : String) (today : Date) :
    ∃ status, Outcome e keyText today status := by
  cases hc : e.supported with
  | false => exact ⟨_, .unclaimed hc⟩
  | true =>
    cases hd : Codec.Base64.decode e.signature with
    | error f => exact ⟨_, .malformedSignature f hc hd⟩
    | ok signature =>
      by_cases hs : signature = []
      · subst hs
        exact ⟨_, .emptySignature hc hd⟩
      · by_cases hk : (Text.trim keyText).isEmpty
        · exact ⟨_, .noKey signature hc hd hs hk⟩
        · cases hp : Rsa.PublicKey.parse? keyText with
          | none => exact ⟨_, .malformedKey signature hc hd hs hk hp⟩
          | some key =>
            by_cases hv : Rsa.Verifies key (Text.bytes e.message) signature
            · exact Genuine.outcome ⟨hc, signature, key, hd, hs, hp, hv⟩
            · exact ⟨_, .mismatch signature key hc hd hs hp hv⟩

theorem check_eq_iff_outcome {status : Status} :
    e.check keyText today = status ↔ Outcome e keyText today status := by
  constructor
  · intro h
    obtain ⟨status', hs⟩ := exists_outcome e keyText today
    have heq : status' = status := hs.check_eq.symm.trans h
    rwa [heq] at hs
  · exact Outcome.check_eq

theorem Outcome.genuine_of_expired (h : Outcome e keyText today .expired) :
    e.Genuine keyText := by
  cases h with
  | expired first last hg hfirst hlast ht => exact hg

/-- No rule that rejects looks at the day. -/
theorem Outcome.rejected_of_rejected {reason : Reason} (today' : Date)
    (h : Outcome e keyText today (.rejected reason)) :
    Outcome e keyText today' (.rejected reason) := by
  cases h with
  | malformedSignature f hc hd => exact .malformedSignature f hc hd
  | emptySignature hc hd => exact .emptySignature hc hd
  | noKey signature hc hd hs hk => exact .noKey signature hc hd hs hk
  | malformedKey signature hc hd hs hk hp => exact .malformedKey signature hc hd hs hk hp
  | mismatch signature key hc hd hs hp hv => exact .mismatch signature key hc hd hs hp hv
  | malformedStart f hg hfirst => exact .malformedStart f hg hfirst
  | malformedEnd first f hg hfirst hlast => exact .malformedEnd first f hg hfirst hlast

theorem supported_iff :
    e.check keyText today = .supported ↔ e.Genuine keyText ∧ ∃ first last,
      Date.parse e.startDate = .ok first ∧ Date.parse e.endDate = .ok last ∧
      first ≤ today ∧ today ≤ last := by
  rw [check_eq_iff_outcome]
  constructor
  · intro h
    cases h with
    | supported first last hg hfirst hlast hf hl => exact ⟨hg, first, last, hfirst, hlast, hf, hl⟩
  · rintro ⟨hg, first, last, hfirst, hlast, hf, hl⟩
    exact .supported first last hg hfirst hlast hf hl

/-- A claim is supported exactly when it is made, its signature decodes to a number below the
modulus, of the length of the modulus, whose power is the padded digest of the signed text, and
the day is in the period; else the first failure in order is the answer, where only the period
looks at the day, and only for a genuine signature. -/
theorem check_decides (e : Entitlement) (keyText : String) (today : Date) :
    (e.check keyText today = .supported ↔
      e.supported = true ∧ ∃ signature key padded first last,
        Codec.Base64.decode e.signature = .ok signature ∧ signature ≠ [] ∧
        Rsa.PublicKey.parse? keyText = some key ∧
        signature.length = (Nat.digits 256 key.modulus).length ∧
        Rsa.Der.natOfBytes signature < key.modulus ∧
        Rsa.IsPadded signature.length
          (Text.bytes (e.userId ++ e.startDate ++ e.endDate ++ "true")) padded ∧
        Rsa.Der.natOfBytes signature ^ key.exponent % key.modulus = Rsa.Der.natOfBytes padded ∧
        Date.parse e.startDate = .ok first ∧ Date.parse e.endDate = .ok last ∧
        first ≤ today ∧ today ≤ last) ∧
    (∀ status, e.check keyText today = status ↔ Outcome e keyText today status) ∧
    (∀ reason today', e.check keyText today = .rejected reason ↔
      e.check keyText today' = .rejected reason) ∧
    (e.check keyText today = .expired → e.Genuine keyText) := by
  refine ⟨?_, fun _ => check_eq_iff_outcome, fun reason today' => ?_, fun h => ?_⟩
  · rw [supported_iff]
    constructor
    · rintro ⟨⟨hc, signature, key, hd, hs, hp, hlen, hlt, padded, hpad, hopen⟩,
        first, last, hfirst, hlast, hf, hl⟩
      exact ⟨hc, signature, key, padded, first, last, hd, hs, hp, hlen, hlt, hpad, hopen,
        hfirst, hlast, hf, hl⟩
    · rintro ⟨hc, signature, key, padded, first, last, hd, hs, hp, hlen, hlt, hpad, hopen,
        hfirst, hlast, hf, hl⟩
      exact ⟨⟨hc, signature, key, hd, hs, hp, hlen, hlt, padded, hpad, hopen⟩,
        first, last, hfirst, hlast, hf, hl⟩
  · rw [check_eq_iff_outcome, check_eq_iff_outcome]
    exact ⟨Outcome.rejected_of_rejected today', Outcome.rejected_of_rejected today⟩
  · exact (check_eq_iff_outcome.mp h).genuine_of_expired

end Entitlement

end License

end AccountGate
