import AccountGate.Text.Utf8

/-!
Lower-case hexadecimal writing of bytes.
-/

namespace AccountGate.Codec.Hex

def digit (n : Nat) : Char :=
  if n < 10 then Char.ofNat (48 + n) else Char.ofNat (87 + n)

/-- The two digits of one byte. -/
def pair (b : UInt8) : List Char := [digit (b.toNat / 16), digit (b.toNat % 16)]

def chars (bs : Bytes) : List Char := bs.flatMap pair

def encode (bs : Bytes) : String := String.ofList (chars bs)

def value? (c : Char) : Option Nat :=
  if '0' ≤ c ∧ c ≤ '9' then some (c.toNat - 48)
  else if 'a' ≤ c ∧ c ≤ 'f' then some (c.toNat - 87)
  else if 'A' ≤ c ∧ c ≤ 'F' then some (c.toNat - 55)
  else none

/-- Reads pairs of digits of either case. -/
def decodeChars? : List Char → Option Bytes
  | [] => some []
  | [_] => none
  | h :: l :: rest => do
    let high ← value? h
    let low ← value? l
    let more ← decodeChars? rest
    return UInt8.ofNat (high * 16 + low) :: more

def decode? (s : String) : Option Bytes := decodeChars? s.toList

theorem length_chars (bs : Bytes) : (chars bs).length = 2 * bs.length := by
  induction bs with
  | nil => rfl
  | cons b rest ih =>
    simp only [chars, List.flatMap_cons, List.length_append] at ih ⊢
    rw [ih]
    simp [pair]
    omega

end AccountGate.Codec.Hex
