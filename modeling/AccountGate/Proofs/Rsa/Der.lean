import AccountGate.Proofs.Text.Utf8
import AccountGate.Rsa.Der
import Mathlib.Algebra.Group.Nat.Defs
import Mathlib.Control.Basic
import Mathlib.Data.Option.Basic

/-!
Distinguished encoding. Main statements: lengths, elements and unsigned integers are read back from
what is written for them, and what follows them is left; and an element is not much longer than what
is in it.
-/

namespace AccountGate.Rsa.Der

variable {n k : Nat}

theorem natOfBytes_concat (bs : Bytes) (b : UInt8) :
    natOfBytes (bs ++ [b]) = natOfBytes bs * 256 + b.toNat := by
  rw [natOfBytes, List.foldl_append]
  rfl

theorem natOfBytes_zero_cons (bs : Bytes) : natOfBytes (0 :: bs) = natOfBytes bs := rfl

/-- A number is read back from its bytes. -/
theorem natOfBytes_bytesOfNat (n : Nat) : natOfBytes (bytesOfNat n) = n := by
  induction n using Nat.strongRecOn with
  | ind n ih =>
    rw [bytesOfNat]
    split
    · next hzero => exact hzero.symm
    · have hlast := Text.toNat_ofNat_byte (Nat.mod_lt n (show 0 < 256 by decide))
      rw [natOfBytes_concat, ih (n / 256) (by omega), hlast, Nat.div_add_mod']

theorem bytesOfNat_ne_nil (h : n ≠ 0) : bytesOfNat n ≠ [] := by
  rw [bytesOfNat, if_neg h]
  simp

theorem length_bytesOfNat_le (h : n < 256 ^ k) : (bytesOfNat n).length ≤ k := by
  induction k generalizing n with
  | zero =>
    obtain rfl : n = 0 := by simpa using h
    rw [bytesOfNat]
    exact Nat.le_refl 0
  | succ k ih =>
    rw [bytesOfNat]
    split
    · exact Nat.zero_le _
    · have hdiv : n / 256 < 256 ^ k := Nat.div_lt_of_lt_mul (by rwa [← Nat.pow_succ'])
      rw [List.length_append, List.length_singleton]
      exact Nat.succ_le_succ (ih hdiv)

/-- How long an element may be for its length to be written in five bytes. -/
def maxLength : Nat := 256 ^ 4

theorem length_writeLength_le (h : n < maxLength) : (writeLength n).length ≤ 5 := by
  rw [writeLength]
  split
  · simp
  · have := length_bytesOfNat_le h
    simp only [List.length_cons]
    omega

/-- A length is read back. -/
theorem readLength_writeLength (h : n < maxLength) (rest : Bytes) :
    readLength (writeLength n ++ rest) = some (n, rest) := by
  by_cases hshort : n < 128
  · have hbyte := Text.toNat_ofNat_byte (show n < 256 by omega)
    rw [writeLength, if_pos hshort, List.singleton_append, readLength]
    simp only [hbyte]
    rw [if_pos hshort]
  · have hmost := length_bytesOfNat_le h
    have hleast := List.length_pos_iff.mpr (bytesOfNat_ne_nil (show n ≠ 0 by omega))
    have hwritten : writeLength n = .ofNat (128 + (bytesOfNat n).length) :: bytesOfNat n := by
      rw [writeLength, if_neg hshort]
    have hbyte := Text.toNat_ofNat_byte (show 128 + (bytesOfNat n).length < 256 by omega)
    have hcount : 128 + (bytesOfNat n).length - 128 = (bytesOfNat n).length := by omega
    rw [hwritten, List.cons_append, readLength]
    simp only [hbyte, hcount, List.take_left, List.drop_left, natOfBytes_bytesOfNat, hwritten]
    have hwhole : (bytesOfNat n).length ≤ (bytesOfNat n ++ rest).length := by
      rw [List.length_append]
      omega
    rw [if_neg (by omega), if_pos ⟨hleast, hmost, hwhole⟩, if_pos trivial]

/-- An element is read back. -/
theorem readElement_element (tag : UInt8) (content : Bytes) (h : content.length < maxLength)
    (rest : Bytes) : readElement tag (element tag content ++ rest) = some (content, rest) := by
  have hlength := readLength_writeLength h (content ++ rest)
  rw [element, List.cons_append, List.append_assoc, readElement]
  simp [hlength]

theorem length_element_le (tag : UInt8) (content : Bytes) (h : content.length < maxLength) :
    (element tag content).length ≤ content.length + 6 := by
  have := length_writeLength_le h
  rw [element, List.length_cons, List.length_append]
  omega

theorem natOfBytes_unsignedContent (n : Nat) : natOfBytes (unsignedContent n) = n := by
  have hread := natOfBytes_bytesOfNat n
  rw [unsignedContent]
  split
  · next hnone => rw [← hread, hnone]; rfl
  · next b more hbytes =>
    split
    · rw [natOfBytes_zero_cons, ← hbytes, hread]
    · rw [← hbytes, hread]

theorem length_unsignedContent_le (h : n < 256 ^ k) : (unsignedContent n).length ≤ k + 1 := by
  have hlength := length_bytesOfNat_le h
  rw [unsignedContent]
  split
  · simp
  · next hbytes =>
    rw [hbytes] at hlength
    split
    · exact Nat.succ_le_succ hlength
    · exact Nat.le_succ_of_le hlength

/-- An unsigned integer is read back. -/
theorem readUnsigned_unsigned (h : (unsignedContent n).length < maxLength) (rest : Bytes) :
    readUnsigned (unsigned n ++ rest) = some (n, rest) := by
  have hread := readElement_element integerTag _ h rest
  simp [readUnsigned, unsigned, hread, natOfBytes_unsignedContent]

end AccountGate.Rsa.Der
