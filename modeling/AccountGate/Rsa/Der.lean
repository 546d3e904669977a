import AccountGate.Text.Utf8

/-!
Distinguished encoding of the few forms that a key file needs: sequences, unsigned integers, bit
strings, object identifiers and null. Every element has one encoding, with the shortest length.
-/

namespace AccountGate.Rsa.Der

def natOfBytes (bs : Bytes) : Nat := bs.foldl (fun n b => n * 256 + b.toNat) 0

/-- The bytes of a number without leading zeros; zero has none. -/
def bytesOfNat (n : Nat) : Bytes :=
  if n = 0 then [] else bytesOfNat (n / 256) ++ [UInt8.ofNat (n % 256)]
termination_by n
decreasing_by exact Nat.div_lt_self (Nat.pos_of_ne_zero ‹_›) (by decide)

/-- One byte below 128; else the number of bytes and the bytes. -/
def writeLength (n : Nat) : Bytes :=
  if n < 128 then [UInt8.ofNat n]
  else let bs := bytesOfNat n; UInt8.ofNat (128 + bs.length) :: bs

def readLength : Bytes → Option (Nat × Bytes)
  | [] => none
  | b :: rest =>
    let count := b.toNat - 128
    if b.toNat < 128 then some (b.toNat, rest)
    else if 1 ≤ count ∧ count ≤ 4 ∧ count ≤ rest.length then
      let n := natOfBytes (rest.take count)
      if writeLength n = b :: rest.take count then some (n, rest.drop count) else none
    else none

def element (tag : UInt8) (content : Bytes) : Bytes :=
  tag :: (writeLength content.length ++ content)

/-- The content of an element with the given tag, and what follows it. -/
def readElement (tag : UInt8) : Bytes → Option (Bytes × Bytes)
  | [] => none
  | t :: rest => do
    guard (t = tag)
    let (n, rest) ← readLength rest
    guard (n ≤ rest.length)
    return (rest.take n, rest.drop n)

def sequenceTag : UInt8 := 0x30
def integerTag : UInt8 := 0x02
def bitStringTag : UInt8 := 0x03
def identifierTag : UInt8 := 0x06
def nullTag : UInt8 := 0x05

/-- A leading zero byte keeps the sign bit clear. -/
def unsignedContent (n : Nat) : Bytes :=
  match bytesOfNat n with
  | [] => [0]
  | b :: rest => if 128 ≤ b.toNat then 0 :: b :: rest else b :: rest

def unsigned (n : Nat) : Bytes := element integerTag (unsignedContent n)

def readUnsigned (bs : Bytes) : Option (Nat × Bytes) := do
  let (content, rest) ← readElement integerTag bs
  let n := natOfBytes content
  guard (content = unsignedContent n)
  return (n, rest)

end AccountGate.Rsa.Der
