import AccountGate.Rsa.Signature
import Mathlib.Data.Nat.Digits.Lemmas
import Mathlib.Data.Nat.Log

/-!
What a good signature is. Main statements: `verifies` holds exactly of a signature that has the
length of the modulus, is below it and opens to the padded digest; and one signature is good for
two messages under one key only when their digests are the same.
-/

namespace AccountGate

namespace Rsa.Der

theorem natOfBytes_eq_ofDigits (bs : Bytes) :
    natOfBytes bs = Nat.ofDigits 256 (bs.reverse.map UInt8.toNat) := by
  have hstep : ∀ n (b : UInt8), n * 256 + b.toNat = b.toNat + 256 * n := by
    intro n b
    omega
  simp only [natOfBytes, hstep, Nat.ofDigits_eq_foldr, List.foldr_map, List.foldr_reverse]
  rfl

theorem byteDigit_lt (bs : Bytes) : ∀ d ∈ bs.map UInt8.toNat, d < 256 := by
  intro d hd
  obtain ⟨b, _, rfl⟩ := List.mem_map.mp hd
  exact b.toNat_lt

theorem natOfBytes_inj_length {a b : Bytes} (hl : a.length = b.length)
    (h : natOfBytes a = natOfBytes b) : a = b := by
  rw [natOfBytes_eq_ofDigits, natOfBytes_eq_ofDigits] at h
  have hd := Nat.ofDigits_inj_of_len_eq (by decide) (by simpa using hl)
    (byteDigit_lt a.reverse) (byteDigit_lt b.reverse) h
  have hr : a.reverse = b.reverse :=
    List.map_injective_iff.mpr (fun _ _ => UInt8.toNat_inj.mp) hd
  exact List.reverse_injective hr

end Rsa.Der

theorem Digest.Sha256.length_digest (message : Bytes) : (digest message).length = 32 := by
  simp [digest, bigEndian, List.length_flatMap]

namespace Rsa

/-- The length of a modulus in bytes is the number of its digits to base 256. -/
theorem PublicKey.size_eq (key : PublicKey) : key.size = (Nat.digits 256 key.modulus).length := by
  unfold PublicKey.size PublicKey.bitLength
  by_cases h0 : key.modulus = 0
  · simp [h0]
  · have hlog : Nat.log 256 key.modulus = Nat.log2 key.modulus / 8 := by
      rw [Nat.log2_eq_log_two]
      exact Nat.log_pow_left 2 8 key.modulus
    rw [if_neg h0, Nat.length_digits 256 _ (by decide) h0, hlog]
    omega

/-- The padded digest of a message: eight bytes of padding or more, up to `k` bytes in all. -/
structure IsPadded (k : Nat) (message padded : Bytes) : Prop where
  length_eq : padded.length = k
  shape : ∃ fill, 8 ≤ fill ∧ padded = 0 :: 1 :: (List.replicate fill 0xFF ++
    0 :: (digestHeader ++ Digest.Sha256.digest message))

theorem paddedDigest?_eq_some_iff {k : Nat} {message padded : Bytes} :
    paddedDigest? k message = some padded ↔ IsPadded k message padded := by
  have ht : (digestHeader ++ Digest.Sha256.digest message).length = 51 := by
    simp [digestHeader, Digest.Sha256.length_digest]
  simp only [paddedDigest?, ht]
  constructor
  · intro h
    split at h
    · next hk =>
      obtain rfl := Option.some.inj h
      refine ⟨?_, k - 51 - 3, by omega, rfl⟩
      simp only [List.length_cons, List.length_append, List.length_replicate] at ht ⊢
      omega
    · exact absurd h (by simp)
  · rintro ⟨hlen, fill, hfill, rfl⟩
    simp only [List.length_cons, List.length_append, List.length_replicate] at ht hlen
    have hk : k - 51 - 3 = fill := by omega
    rw [if_pos (by omega), hk]

theorem IsPadded.digest_eq {k : Nat} {m m' padded : Bytes} (h : IsPadded k m padded)
    (h' : IsPadded k m' padded) : Digest.Sha256.digest m = Digest.Sha256.digest m' := by
  obtain ⟨_, fill, _, hp⟩ := h
  obtain ⟨_, fill', _, hp'⟩ := h'
  -- The fills may differ, but both texts end in 32 bytes of digest.
  have hends : (0 :: 1 :: (List.replicate fill 0xFF ++ 0 :: digestHeader)) ++
      Digest.Sha256.digest m = (0 :: 1 :: (List.replicate fill' 0xFF ++ 0 :: digestHeader)) ++
      Digest.Sha256.digest m' := by
    simpa using hp.symm.trans hp'
  have hlen : (Digest.Sha256.digest m).length = (Digest.Sha256.digest m').length := by
    rw [Digest.Sha256.length_digest, Digest.Sha256.length_digest]
  exact List.append_inj_right' hends hlen

/-- What a signature has to be for a key and a message. -/
structure Verifies (key : PublicKey) (message signature : Bytes) : Prop where
  length_eq : signature.length = (Nat.digits 256 key.modulus).length
  lt_modulus : Der.natOfBytes signature < key.modulus
  opens : ∃ padded, IsPadded signature.length message padded ∧
    Der.natOfBytes signature ^ key.exponent % key.modulus = Der.natOfBytes padded

theorem opens_eq_true_iff {key : PublicKey} {message : Bytes} {s : Nat} :
    opens key message s = true ↔ s < key.modulus ∧ ∃ padded, IsPadded key.size message padded ∧
      s ^ key.exponent % key.modulus = Der.natOfBytes padded := by
  rw [opens, Bool.and_eq_true, decide_eq_true_eq]
  apply and_congr_right
  intro _
  cases hp : paddedDigest? key.size message with
  | none =>
    have hnone : ¬ ∃ padded, IsPadded key.size message padded ∧
        s ^ key.exponent % key.modulus = Der.natOfBytes padded := by
      rintro ⟨padded, hpadded, _⟩
      rw [paddedDigest?_eq_some_iff.mpr hpadded] at hp
      exact absurd hp (by simp)
    simpa using hnone
  | some padded =>
    have hpadded := paddedDigest?_eq_some_iff.mp hp
    rw [beq_iff_eq, powMod_eq]
    constructor
    · intro h
      exact ⟨padded, hpadded, h⟩
    · rintro ⟨padded', hpadded', h⟩
      have heq := hp.symm.trans (paddedDigest?_eq_some_iff.mpr hpadded')
      rw [Option.some.inj heq]
      exact h

theorem verifies_iff {key : PublicKey} {message signature : Bytes} :
    verifies key message signature = true ↔ Verifies key message signature := by
  rw [verifies, Bool.and_eq_true, beq_iff_eq, opens_eq_true_iff, PublicKey.size_eq]
  constructor
  · rintro ⟨hlen, hlt, hopens⟩
    rw [← hlen] at hopens
    exact ⟨hlen, hlt, hopens⟩
  · rintro ⟨hlen, hlt, hopens⟩
    rw [hlen] at hopens
    exact ⟨hlen, hlt, hopens⟩

/-- One signature is good for two messages under one key only if they have one digest. -/
theorem Verifies.digest_eq {key : PublicKey} {m m' signature : Bytes}
    (h : Verifies key m signature) (h' : Verifies key m' signature) :
    Digest.Sha256.digest m = Digest.Sha256.digest m' := by
  obtain ⟨padded, hp, hv⟩ := h.opens
  obtain ⟨padded', hp', hv'⟩ := h'.opens
  have hlen : padded.length = padded'.length := by rw [hp.length_eq, hp'.length_eq]
  have heq : padded = padded' := Der.natOfBytes_inj_length hlen (hv.symm.trans hv')
  subst heq
  exact hp.digest_eq hp'

end Rsa

end AccountGate
