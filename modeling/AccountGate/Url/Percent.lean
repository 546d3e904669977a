import AccountGate.Text.Utf8

/-!
Percent encoding. Which bytes are encoded depends on the part of the address that they stand in;
decoding takes back every complete escape and leaves all else as it is.
-/

namespace AccountGate.Url

/-- The bytes that an encoding replaces. -/
abbrev EncodeSet := UInt8 → Bool

def isControl (b : UInt8) : Bool := b < 0x20 || b ≥ 0x7F

def among (chars : List Char) (b : UInt8) : Bool := chars.any fun c => c.toNat == b.toNat

def controls : EncodeSet := isControl
def inFragment : EncodeSet := fun b => isControl b || among [' ', '"', '<', '>', '\x60'] b
def inPath : EncodeSet := fun b => inFragment b || among ['#', '?', '\x7b', '\x7d'] b
def inUserInfo : EncodeSet := fun b =>
  inPath b || among ['/', ':', ';', '=', '@', '[', '\\', ']', '^', '|'] b
def inQuery : EncodeSet := fun b => isControl b || among [' ', '"', '#', '<', '>'] b
def inSpecialQuery : EncodeSet := fun b => inQuery b || among ['\''] b

def hexDigit (n : Nat) : Char := if n < 10 then Char.ofNat (48 + n) else Char.ofNat (55 + n)

/-- A percent sign and two digits. -/
def escape (b : UInt8) : List Char := ['%', hexDigit (b.toNat / 16), hexDigit (b.toNat % 16)]

/-- A byte outside the set is an ASCII character and stands for itself. -/
def encodeByte (set : EncodeSet) (b : UInt8) : List Char :=
  if set b then escape b else [Char.ofNat b.toNat]

def encode (set : EncodeSet) (cs : List Char) : List Char :=
  (Text.bytesOf cs).flatMap (encodeByte set)

def hexValue? (b : UInt8) : Option Nat :=
  if 48 ≤ b ∧ b ≤ 57 then some (b.toNat - 48)
  else if 65 ≤ b ∧ b ≤ 70 then some (b.toNat - 55)
  else if 97 ≤ b ∧ b ≤ 102 then some (b.toNat - 87)
  else none

/-- The byte that an escape at the front of a text writes, and what follows. -/
def readEscape? : Bytes → Option (UInt8 × Bytes)
  | 37 :: h :: l :: rest =>
    match hexValue? h, hexValue? l with
    | some high, some low => some (UInt8.ofNat (high * 16 + low), rest)
    | _, _ => none
  | _ => none

/-- Reads escapes from the front; `skip` counts the bytes that belong to the last one. -/
def decodeStep : Nat → Bytes → Bytes
  | _, [] => []
  | skip + 1, _ :: rest => decodeStep skip rest
  | 0, b :: rest =>
    match readEscape? (b :: rest) with
    | some (value, _) => value :: decodeStep 2 rest
    | none => b :: decodeStep 0 rest

/-- A percent sign without two digits stands for itself. -/
def decode (bs : Bytes) : Bytes := decodeStep 0 bs

end AccountGate.Url
