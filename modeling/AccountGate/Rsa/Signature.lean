import AccountGate.Digest.Sha256
import AccountGate.Rsa.PublicKey

/-!
RSA signatures over a SHA-256 digest with the deterministic padding. Main statement: `powMod` is the
power modulo its third argument.
-/

namespace AccountGate.Rsa

/-- The power modulo `m`, by squaring. -/
def powMod (b e m : Nat) : Nat :=
  if e = 0 then 1 % m
  else
    let half := powMod (b * b % m) (e / 2) m
    if e % 2 = 1 then b * half % m else half
termination_by e
decreasing_by exact Nat.div_lt_self (Nat.pos_of_ne_zero ‹_›) (by decide)

/-- What stands before a SHA-256 digest that is signed. -/
def digestHeader : Bytes :=
  [0x30, 0x31, 0x30, 0x0d, 0x06, 0x09, 0x60, 0x86, 0x48, 0x01, 0x65, 0x03, 0x04, 0x02, 0x01, 0x05,
    0x00, 0x04, 0x20]

/-- The padded digest of `k` bytes; there is none for less than eight bytes of padding. -/
def paddedDigest? (k : Nat) (message : Bytes) : Option Bytes :=
  let t := digestHeader ++ Digest.Sha256.digest message
  if t.length + 11 ≤ k then
    some (0 :: 1 :: (List.replicate (k - t.length - 3) 0xFF ++ 0 :: t))
  else none

/-- A number below the modulus whose power is the padded digest. -/
def opens (key : PublicKey) (message : Bytes) (s : Nat) : Bool :=
  s < key.modulus &&
    match paddedDigest? key.size message with
    | some padded => powMod s key.exponent key.modulus == Der.natOfBytes padded
    | none => false

/-- A signature has the length of the modulus and opens to the padded digest. -/
def verifies (key : PublicKey) (message signature : Bytes) : Bool :=
  signature.length == key.size && opens key message (Der.natOfBytes signature)

theorem powMod_eq (b e m : Nat) : powMod b e m = Nat.pow b e % m := by
  change powMod b e m = b ^ e % m
  induction e using Nat.strongRecOn generalizing b with
  | _ e ih =>
    rw [powMod]
    split
    · next h => simp [h]
    · next h =>
      have hlt : e / 2 < e := Nat.div_lt_self (Nat.pos_of_ne_zero h) (by decide)
      have hhalf : powMod (b * b % m) (e / 2) m = (b * b) ^ (e / 2) % m := by
        rw [ih _ hlt, ← Nat.pow_mod]
      have hpow : (b * b) ^ (e / 2) = b ^ (2 * (e / 2)) := by
        rw [Nat.pow_mul, Nat.pow_two]
      simp only [hhalf, hpow]
      split
      · next hodd =>
        have he : e = 2 * (e / 2) + 1 := by omega
        conv => rhs; rw [he, Nat.pow_succ]
        rw [Nat.mul_comm b, Nat.mod_mul_mod]
      · next heven =>
        have he : 2 * (e / 2) = e := by omega
        rw [he]

end AccountGate.Rsa
