/-!
Texts as bytes. `bytes` writes a text in UTF-8, `decode?` reads exactly what it writes, and
`decodeLossy` reads anything, with one replacement character for each maximal ill-formed part.
-/

namespace AccountGate

abbrev Bytes := List UInt8

namespace Text

def bytesOf (cs : List Char) : Bytes := cs.flatMap String.utf8EncodeChar

/-- The UTF-8 bytes of a text. -/
def bytes (s : String) : Bytes := bytesOf s.toList

/-- What stands at the front of a byte string: a character, or an ill-formed part; with the
number of bytes that it takes. -/
inductive Scan where
  | char (c : Char) (size : Nat)
  | malformed (size : Nat)

def isContinuation (b : UInt8) : Bool := 0x80 ≤ b && b ≤ 0xBF

def low6 (b : UInt8) : Nat := b.toNat % 64

/-- The range of the second byte that keeps a three-byte form shortest and out of the
surrogates. -/
def secondOfThree (lead second : UInt8) : Bool :=
  if lead == 0xE0 then 0xA0 ≤ second && second ≤ 0xBF
  else if lead == 0xED then 0x80 ≤ second && second ≤ 0x9F
  else isContinuation second

/-- The range of the second byte that keeps a four-byte form shortest and below `0x110000`. -/
def secondOfFour (lead second : UInt8) : Bool :=
  if lead == 0xF0 then 0x90 ≤ second && second ≤ 0xBF
  else if lead == 0xF4 then 0x80 ≤ second && second ≤ 0x8F
  else isContinuation second

/-- Reads one character; an ill-formed part ends before the first byte that cannot continue it. -/
def scan (lead : UInt8) (rest : Bytes) : Scan :=
  if lead < 0x80 then .char (Char.ofNat lead.toNat) 1
  else if 0xC2 ≤ lead && lead ≤ 0xDF then
    match rest with
    | b :: _ =>
      if isContinuation b then .char (Char.ofNat (lead.toNat % 32 * 64 + low6 b)) 2
      else .malformed 1
    | [] => .malformed 1
  else if 0xE0 ≤ lead && lead ≤ 0xEF then
    match rest with
    | b :: more =>
      if secondOfThree lead b then
        match more with
        | c :: _ =>
          if isContinuation c then
            .char (Char.ofNat (lead.toNat % 16 * 4096 + low6 b * 64 + low6 c)) 3
          else .malformed 2
        | [] => .malformed 2
      else .malformed 1
    | [] => .malformed 1
  else if 0xF0 ≤ lead && lead ≤ 0xF4 then
    match rest with
    | b :: more =>
      if secondOfFour lead b then
        match more with
        | c :: more' =>
          if isContinuation c then
            match more' with
            | d :: _ =>
              if isContinuation d then
                .char (Char.ofNat
                  (lead.toNat % 8 * 262144 + low6 b * 4096 + low6 c * 64 + low6 d)) 4
              else .malformed 3
            | [] => .malformed 3
          else .malformed 2
        | [] => .malformed 2
      else .malformed 1
    | [] => .malformed 1
  else .malformed 1

/-- Reads characters from the front, newest first, until nothing is left or a part is
ill-formed; `skip` counts the bytes that belong to the last character read. -/
def decodeStep (acc : List Char) : Nat → Bytes → Option (List Char)
  | _, [] => some acc
  | skip + 1, _ :: rest => decodeStep acc skip rest
  | 0, b :: rest =>
    match scan b rest with
    | .char c size => decodeStep (c :: acc) (size - 1) rest
    | .malformed _ => none

/-- The characters that a byte string writes in UTF-8, if it is well-formed. -/
def decodeChars? (bs : Bytes) : Option (List Char) := (decodeStep [] 0 bs).map List.reverse

def decode? (bs : Bytes) : Option String := (decodeChars? bs).map String.ofList

def lossyStep (acc : List Char) : Nat → Bytes → List Char
  | _, [] => acc
  | skip + 1, _ :: rest => lossyStep acc skip rest
  | 0, b :: rest =>
    match scan b rest with
    | .char c size => lossyStep (c :: acc) (size - 1) rest
    | .malformed size => lossyStep ('\uFFFD' :: acc) (size - 1) rest

/-- The text of any byte string, each maximal ill-formed part replaced by U+FFFD. -/
def decodeLossy (bs : Bytes) : String := String.ofList (lossyStep [] 0 bs).reverse

end Text

end AccountGate
