import AccountGate.Proofs.Calendar.Date
import AccountGate.Proofs.Codec.Base64
import AccountGate.Proofs.License.Outcome

/-!
What a signature says about the claim that carries it. The signed text has no separators, so it
binds a user and a period only as far as they can be read back from it. Main statement: a supported
claim binds its user and period, short of a collision of digests, exactly when its text has one
reading; and no claim whose dates are written out as `YYYY-MM-DD` has, unless it starts on a leap
day, since the first digit of the year may belong to the user.
-/

namespace AccountGate

/-- A text whose lines hold the data of a key reads as that key. -/
theorem Rsa.PublicKey.parse?_of_data {keyText : String} {key : PublicKey} {body : Bytes}
    (hbody : Pem.body? subjectLabel (Text.bytes (Text.trim keyText)) = some body)
    (hlines : Pem.joinLines (body.length + 1) body =
      some (Text.bytesOf (Codec.Base64.encodeChars .standard key.subjectData)))
    (hdata : (Codec.Base64.decodeBytes
      (Text.bytesOf (Codec.Base64.encodeChars .standard key.subjectData))).toOption =
        some key.subjectData)
    (hkey : ofSubjectData? key.subjectData = some key) : parse? keyText = some key := by
  simp [parse?, Pem.decode?, hbody, hlines, hdata, hkey]

namespace License.Entitlement

/-- Both claims are for one user and one period. -/
structure SameClaim (e e' : Entitlement) : Prop where
  userId_eq : e.userId = e'.userId
  startDate_eq : e.startDate = e'.startDate
  endDate_eq : e.endDate = e'.endDate

/-- The signed texts are different byte strings with one digest. -/
def Collide (e e' : Entitlement) : Prop :=
  Text.bytes e.message ≠ Text.bytes e'.message ∧
    Digest.Sha256.digest (Text.bytes e.message) = Digest.Sha256.digest (Text.bytes e'.message)

/-- Every claim that is supported with the same signature is the same claim, or collides. -/
def Binds (e : Entitlement) (keyText : String) : Prop :=
  ∀ e' today today', e'.signature = e.signature → e.check keyText today = .supported →
    e'.check keyText today' = .supported → e.SameClaim e' ∨ e.Collide e'

/-- A way to cut the signed text into a user and a period. -/
structure Reading (e : Entitlement) (userId startDate endDate : String) : Prop where
  text_eq : userId ++ startDate ++ endDate = e.userId ++ e.startDate ++ e.endDate
  period : ∃ first last, Date.parse startDate = .ok first ∧ Date.parse endDate = .ok last ∧
    first ≤ last

/-- The signed text can be cut in the one way that the claim has it. -/
def OneReading (e : Entitlement) : Prop :=
  ∀ userId startDate endDate, Reading e userId startDate endDate →
    e.SameClaim { e with userId, startDate, endDate }

variable {e e' : Entitlement} {keyText : String} {today today' : Date}

theorem message_eq_iff : e.message = e'.message ↔
    e.userId ++ e.startDate ++ e.endDate = e'.userId ++ e'.startDate ++ e'.endDate :=
  String.append_left_inj "true"

theorem reading_of_supported (h : e'.check keyText today = .supported)
    (hm : e.message = e'.message) : Reading e e'.userId e'.startDate e'.endDate := by
  obtain ⟨_, first, last, hfirst, hlast, hf, hl⟩ := supported_iff.mp h
  exact ⟨(message_eq_iff.mp hm).symm, first, last, hfirst, hlast, Date.le_trans hf hl⟩

theorem Genuine.of_message_eq (h : e.Genuine keyText) (hc : e'.supported = true)
    (hs : e'.signature = e.signature) (hm : e.message = e'.message) : e'.Genuine keyText := by
  obtain ⟨signature, key, hd, hne, hp, hv⟩ := h.signed
  rw [← hs] at hd
  rw [hm] at hv
  exact ⟨hc, signature, key, hd, hne, hp, hv⟩

/-- Every reading of a supported claim is supported on the first day of its period. -/
theorem Reading.supported {userId startDate endDate : String}
    (hr : Reading e userId startDate endDate) (h : e.check keyText today = .supported) :
    ∃ first, { e with userId, startDate, endDate }.check keyText first = .supported := by
  obtain ⟨hg, _⟩ := supported_iff.mp h
  obtain ⟨first, last, hfirst, hlast, hle⟩ := hr.period
  have hm : e.message = { e with userId, startDate, endDate }.message :=
    message_eq_iff.mpr hr.text_eq.symm
  have hg' : Genuine { e with userId, startDate, endDate } keyText :=
    hg.of_message_eq hg.claimed rfl hm
  refine ⟨first, supported_iff.mpr ⟨hg', first, last, hfirst, hlast, Date.le_refl first, hle⟩⟩

/-- One signature under one key is for one digest. -/
theorem digest_eq_of_supported (hs : e'.signature = e.signature)
    (h : e.check keyText today = .supported) (h' : e'.check keyText today' = .supported) :
    Digest.Sha256.digest (Text.bytes e.message) =
      Digest.Sha256.digest (Text.bytes e'.message) := by
  obtain ⟨signature, key, hd, _, hp, hv⟩ := (supported_iff.mp h).1.signed
  obtain ⟨signature', key', hd', _, hp', hv'⟩ := (supported_iff.mp h').1.signed
  rw [hs, hd] at hd'
  rw [hp] at hp'
  obtain rfl := Except.ok.inj hd'
  obtain rfl := Option.some.inj hp'
  exact hv.digest_eq hv'

theorem message_eq_or_collide (hs : e'.signature = e.signature)
    (h : e.check keyText today = .supported) (h' : e'.check keyText today' = .supported) :
    e.message = e'.message ∨ e.Collide e' := by
  by_cases hm : e.message = e'.message
  · exact .inl hm
  · exact .inr ⟨fun hb => hm (Text.bytes_injective hb), digest_eq_of_supported hs h h'⟩

theorem not_collide_of_message_eq (hm : e.message = e'.message) : ¬ e.Collide e' :=
  fun h => h.1 (congrArg Text.bytes hm)

theorem binds_iff_oneReading : e.Binds keyText ↔
    ((∃ today, e.check keyText today = .supported) → e.OneReading) := by
  constructor
  · rintro hb ⟨today, h⟩ userId startDate endDate hr
    -- The reading is a supported claim of its own, with the same signature.
    obtain ⟨first, h'⟩ := hr.supported h
    rcases hb { e with userId, startDate, endDate } today first rfl h h' with hsame | hcol
    · exact hsame
    · exact absurd hcol (not_collide_of_message_eq (message_eq_iff.mpr hr.text_eq.symm))
  · intro hone e' today today' hs h h'
    rcases message_eq_or_collide hs h h' with hm | hcol
    · have hsame := hone ⟨today, h⟩ _ _ _ (reading_of_supported h' hm)
      exact .inl ⟨hsame.userId_eq, hsame.startDate_eq, hsame.endDate_eq⟩
    · exact .inr hcol

/-- Texts of known lengths at the end of one text are the same. -/
theorem sameClaim_of_lengths (hm : e.message = e'.message)
    (hstart : e.startDate.length = e'.startDate.length)
    (hend : e.endDate.length = e'.endDate.length) : e.SameClaim e' := by
  have htext := congrArg String.toList (message_eq_iff.mp hm)
  simp only [String.toList_append] at htext
  obtain ⟨hfront, hlast⟩ := List.append_inj' htext (by simpa only [String.length_toList] using hend)
  obtain ⟨huser, hfirst⟩ :=
    List.append_inj' hfront (by simpa only [String.length_toList] using hstart)
  exact ⟨String.toList_injective huser, String.toList_injective hfirst,
    String.toList_injective hlast⟩

/-- The first digit of the year is moved from the start to the end of the user. -/
def moveDigit (e : Entitlement) (c : Char) (startDate : String) : Entitlement :=
  { e with userId := e.userId ++ String.ofList [c], startDate }

variable {c : Char} {year month day : List Char} {first : Date}

theorem message_moveDigit
    (hstart : e.startDate = String.ofList (Date.plain (c :: year) month day)) :
    (e.moveDigit c (String.ofList (Date.plain year month day))).message = e.message := by
  have hcut : String.ofList [c] ++ String.ofList (Date.plain year month day) = e.startDate := by
    rw [hstart, ← String.ofList_append]
    rfl
  apply message_eq_iff.mpr
  simp only [moveDigit, String.append_assoc, ← hcut]

/-- Every supported claim with a plain start date, leap days aside, has a neighbour that is
supported on the same day and names another user. -/
theorem supported_moveDigit (h : e.check keyText today = .supported)
    (hstart : e.startDate = String.ofList (Date.plain (c :: year) month day))
    (hplain : Date.IsPlain (c :: year) month day) (hyear : year ≠ [])
    (hfirst : Date.parse e.startDate = .ok first) (hleap : ¬ (first.month = 2 ∧ first.day = 29)) :
    (e.moveDigit c (String.ofList (Date.plain year month day))).check keyText today =
      .supported := by
  obtain ⟨hg, first', last, hfirst', hlast, hf, hl⟩ := supported_iff.mp h
  obtain rfl := Except.ok.inj (hfirst.symm.trans hfirst')
  rw [hstart] at hfirst
  obtain ⟨first', hmoved, hle⟩ := hplain.parse_tail hyear hfirst hleap
  have hg' : (e.moveDigit c (String.ofList (Date.plain year month day))).Genuine keyText :=
    hg.of_message_eq hg.claimed rfl (message_moveDigit hstart).symm
  exact supported_iff.mpr ⟨hg', first', last, hmoved, hlast, Date.le_trans hle hf, hl⟩

theorem not_sameClaim_moveDigit (startDate : String) : ¬ e.SameClaim (e.moveDigit c startDate) := by
  intro h
  have hlen := congrArg String.length h.userId_eq
  simp [moveDigit] at hlen

/-- What a signature binds. A claim binds its user and period exactly when it is never supported
or its text has one reading; two claims whose dates have the same lengths are always the same or
collide; and a claim that starts on a plain date other than a leap day does not bind. -/
theorem signature_binds (e : Entitlement) (keyText : String) :
    (e.Binds keyText ↔ ((∃ today, e.check keyText today = .supported) → e.OneReading)) ∧
    (∀ e' today today', e'.signature = e.signature → e.check keyText today = .supported →
      e'.check keyText today' = .supported → e.startDate.length = e'.startDate.length →
      e.endDate.length = e'.endDate.length → e.SameClaim e' ∨ e.Collide e') ∧
    (∀ today c year month day first, e.check keyText today = .supported →
      e.startDate = String.ofList (Date.plain (c :: year) month day) →
      Date.IsPlain (c :: year) month day → year ≠ [] →
      Date.parse e.startDate = .ok first → ¬ (first.month = 2 ∧ first.day = 29) →
      ¬ e.Binds keyText) := by
  refine ⟨binds_iff_oneReading, ?_, ?_⟩
  · intro e' today today' hs h h' hstart hend
    rcases message_eq_or_collide hs h h' with hm | hcol
    · exact .inl (sameClaim_of_lengths hm hstart hend)
    · exact .inr hcol
  · intro today c year month day first h hstart hplain hyear hfirst hleap hbinds
    have h' := supported_moveDigit h hstart hplain hyear hfirst hleap
    rcases hbinds (e.moveDigit c _) today today rfl h h' with hsame | hcol
    · exact not_sameClaim_moveDigit _ hsame
    · exact not_collide_of_message_eq (message_moveDigit hstart).symm hcol

def sampleKey : Rsa.PublicKey where
  modulus := 0xd4b793d9e2d5a757329c5ab3bc75b958e53e72d18a12352f58931e7949aa65314a61b865a4ae752ee52ba0423683b00676af5572717a70df2e846eff8c89
  exponent := 3

def sampleKeyText : String :=
  "-----BEGIN PUBLIC KEY-----\nMFgwDQYJKoZIhvcNAQEBBQADRwAwRAI/ANS3k9ni1adXMpxas7x1uVjlPnLRihI1\nL1iTHnlJqmUxSmG4ZaSudS7lK6BCNoOwBnavVXJxenDfLoRu/4yJAgED\n-----END PUBLIC KEY-----\n"

def sampleSignature : Bytes :=
  Rsa.Der.bytesOfNat 0x39f21903402d3fd1f720909345bcf0784d9df822a773ff0c3499361c508c82bcc10f06e4abe1432f30326b68b187599268ac3f8f843a1f82f06c14fb2405

/-- A claim that is signed with the private half of the sample key. -/
def sample : Entitlement where
  userId := "u1"
  startDate := "2024-01-01"
  endDate := "2024-12-31"
  signature := "OfIZA0AtP9H3IJCTRbzweE2d+CKnc/8MNJk2HFCMgrzBDwbkq+FDLzAya2ixh1mSaKw/j4Q6H4LwbBT7JAU="
  supported := true

section Sample

set_option maxRecDepth 10000

-- A literal is read through its characters, which the kernel compares without decoding it.

theorem parse?_sampleKeyText : Rsa.PublicKey.parse? sampleKeyText = some sampleKey := by
  have htext : Text.trim sampleKeyText = String.ofList (Text.trimChars _) := Text.trim_ofList _
  have hbegin : Rsa.Pem.beginMark = Text.bytesOf _ := Text.bytes_ofList _
  have hend : Rsa.Pem.endMark = Text.bytesOf _ := Text.bytes_ofList _
  have hdashes : Rsa.Pem.dashes = Text.bytesOf _ := Text.bytes_ofList _
  have hlabel : Text.bytes Rsa.PublicKey.subjectLabel = Text.bytesOf _ := Text.bytes_ofList _
  let symbols := Codec.Base64.encodeChars .standard sampleKey.subjectData
  have hbody : Rsa.Pem.body? Rsa.PublicKey.subjectLabel (Text.bytes (Text.trim sampleKeyText)) =
      some (Text.bytesOf (Rsa.Pem.wrap symbols.length symbols)) := by
    rw [htext, Text.bytes_ofList]
    simp only [Rsa.Pem.body?, Rsa.Pem.fromBegin, hbegin, hend, hdashes, hlabel]
    decide +kernel
  apply Rsa.PublicKey.parse?_of_data hbody
  · decide +kernel
  · decide +kernel
  · decide +kernel

theorem decode_sample : Codec.Base64.decode sample.signature = .ok sampleSignature := by
  have hopt : (Codec.Base64.decode sample.signature).toOption = some sampleSignature :=
    (congrArg Except.toOption (Codec.Base64.decode_ofList _)).trans (by decide +kernel)
  cases hd : Codec.Base64.decode sample.signature with
  | error f => exact absurd (hd ▸ hopt) (by simp [Except.toOption])
  | ok bytes => simpa [hd, Except.toOption] using hopt

theorem verifies_sample :
    Rsa.verifies sampleKey (Text.bytes sample.message) sampleSignature = true := by
  have huser : Text.bytes sample.userId = Text.bytesOf _ := Text.bytes_ofList _
  have hstart : Text.bytes sample.startDate = Text.bytesOf _ := Text.bytes_ofList _
  have hend : Text.bytes sample.endDate = Text.bytesOf _ := Text.bytes_ofList _
  have hword : Text.bytes "true" = Text.bytesOf _ := Text.bytes_ofList _
  rw [message, Text.bytes_append, Text.bytes_append, Text.bytes_append, huser, hstart, hend, hword]
  decide +kernel

theorem isPlain_sample :
    Date.IsPlain ['2', '0', '2', '4'] ['0', '1'] ['0', '1'] ∧
    Date.IsPlain ['2', '0', '2', '4'] ['1', '2'] ['3', '1'] := by
  have hdigits {digits : List Char} (h : digits.all Date.isDigit = true) :
      ∀ c ∈ digits, Date.isDigit c = true := List.all_eq_true.mp h
  constructor
  · exact ⟨hdigits rfl, hdigits rfl, hdigits rfl, by decide, rfl, rfl⟩
  · exact ⟨hdigits rfl, hdigits rfl, hdigits rfl, by decide, rfl, rfl⟩

theorem parse_sample : Date.parse sample.startDate = .ok ⟨2024, 1, 1⟩ ∧
    Date.parse sample.endDate = .ok ⟨2024, 12, 31⟩ :=
  ⟨isPlain_sample.1.parse_eq.trans rfl, isPlain_sample.2.parse_eq.trans rfl⟩

theorem check_sample : sample.check sampleKeyText ⟨2024, 6, 15⟩ = .supported := by
  have hne : sampleSignature ≠ [] := by decide +kernel
  have hgenuine : sample.Genuine sampleKeyText :=
    ⟨rfl, sampleSignature, sampleKey, decode_sample, hne, parse?_sampleKeyText,
      Rsa.verifies_iff.mp verifies_sample⟩
  exact supported_iff.mpr
    ⟨hgenuine, _, _, parse_sample.1, parse_sample.2, by decide, by decide⟩

/-- The user `u1` from `2024-01-01` on and the user `u12` from `024-01-01` on are supported with
one signature over one text. -/
theorem sample_does_not_bind :
    let other : Entitlement := { sample with userId := "u12", startDate := "024-01-01" }
    sample.check sampleKeyText ⟨2024, 6, 15⟩ = .supported ∧
    other.check sampleKeyText ⟨2024, 6, 15⟩ = .supported ∧
    other.signature = sample.signature ∧ ¬ sample.SameClaim other ∧ ¬ sample.Collide other := by
  intro other
  have hstart : sample.startDate =
      String.ofList (Date.plain ['2', '0', '2', '4'] ['0', '1'] ['0', '1']) := rfl
  have hother : sample.moveDigit '2'
      (String.ofList (Date.plain ['0', '2', '4'] ['0', '1'] ['0', '1'])) = other := by
    decide
  have hsupported := supported_moveDigit check_sample hstart isPlain_sample.1 (by decide)
    parse_sample.1 (by decide)
  have hmessage := message_moveDigit hstart
  rw [hother] at hsupported hmessage
  refine ⟨check_sample, hsupported, rfl, ?_, not_collide_of_message_eq hmessage.symm⟩
  intro hsame
  exact absurd hsame.userId_eq (by decide)

end Sample

end License.Entitlement

end AccountGate
