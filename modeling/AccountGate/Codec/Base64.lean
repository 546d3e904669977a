import AccountGate.Text.Blank
import AccountGate.Text.Utf8

/-!
Base64 in the standard and the URL alphabet. Encoding pads in the standard alphabet only;
decoding takes texts with none, some or all of their padding and refuses unused bits that are set.
-/

namespace AccountGate.Codec.Base64

inductive Alphabet where
  | standard
  | url
  deriving DecidableEq, Repr

def symbol : Alphabet → Nat → Char
  | alphabet, n =>
    if n < 26 then Char.ofNat (65 + n)
    else if n < 52 then Char.ofNat (71 + n)
    else if n < 62 then Char.ofNat (n - 4)
    else match alphabet with
      | .standard => if n = 62 then '+' else '/'
      | .url => if n = 62 then '-' else '_'

def padSymbols : Alphabet → Nat → List Char
  | .standard, n => List.replicate n '='
  | .url, _ => []

/-- Three bytes make four symbols; one or two bytes at the end make two or three. -/
def encodeChars (alphabet : Alphabet) : Bytes → List Char
  | a :: b :: c :: rest =>
    symbol alphabet (a.toNat / 4) ::
    symbol alphabet (a.toNat % 4 * 16 + b.toNat / 16) ::
    symbol alphabet (b.toNat % 16 * 4 + c.toNat / 64) ::
    symbol alphabet (c.toNat % 64) :: encodeChars alphabet rest
  | [a, b] =>
    symbol alphabet (a.toNat / 4) ::
    symbol alphabet (a.toNat % 4 * 16 + b.toNat / 16) ::
    symbol alphabet (b.toNat % 16 * 4) :: padSymbols alphabet 1
  | [a] =>
    symbol alphabet (a.toNat / 4) :: symbol alphabet (a.toNat % 4 * 16) :: padSymbols alphabet 2
  | [] => []

/-- Standard alphabet, padded to a multiple of four symbols. -/
def encode (bs : Bytes) : String := String.ofList (encodeChars .standard bs)

/-- URL alphabet, never padded. -/
def encodeUrl (bs : Bytes) : String := String.ofList (encodeChars .url bs)

/-- Why a text is no Base64; offsets count the bytes of the trimmed text. -/
inductive Fault where
  | symbol (byte : UInt8) (offset : Nat)
  | lastSymbol (byte : UInt8) (offset : Nat)
  | length (symbols : Nat)
  deriving DecidableEq, Repr

def Fault.message : Fault → String
  | .symbol byte offset => s!"Invalid symbol {byte.toNat}, offset {offset}."
  | .lastSymbol byte offset => s!"Invalid last symbol {byte.toNat}, offset {offset}."
  | .length symbols => s!"Invalid input length: {symbols}"

/-- The six bits of a symbol of the standard alphabet. -/
def value? (b : UInt8) : Option Nat :=
  let n := b.toNat
  if 65 ≤ n ∧ n ≤ 90 then some (n - 65)
  else if 97 ≤ n ∧ n ≤ 122 then some (n - 71)
  else if 48 ≤ n ∧ n ≤ 57 then some (n + 4)
  else if n = 43 then some 62
  else if n = 47 then some 63
  else none

def value (offset : Nat) (b : UInt8) : Except Fault Nat :=
  match value? b with
  | some v => .ok v
  | none => .error (.symbol b offset)

def padByte : UInt8 := 61

/-- The bytes of two or three symbols at the end; `last` is the symbol whose unused bits must be
zero. -/
def closing (last : UInt8) (offset : Nat) : List Nat → Except Fault Bytes
  | [x, y] =>
    if y % 16 = 0 then .ok [UInt8.ofNat (x * 4 + y / 16)] else .error (.lastSymbol last (offset + 1))
  | [x, y, z] =>
    if z % 4 = 0 then .ok [UInt8.ofNat (x * 4 + y / 16), UInt8.ofNat (y % 16 * 16 + z / 4)]
    else .error (.lastSymbol last (offset + 2))
  | [x, y, z, w] =>
    .ok [UInt8.ofNat (x * 4 + y / 16), UInt8.ofNat (y % 16 * 16 + z / 4),
      UInt8.ofNat (z % 4 * 64 + w)]
  | vs => .error (.length (offset + vs.length))

/-- The symbols of the last group up to its padding: padding needs two symbols before it and
nothing but padding after it. -/
def groupValues (offset : Nat) (bs : Bytes) : Except Fault (List Nat × UInt8) :=
  go 0 [] 0 bs
where
  go (index : Nat) (values : List Nat) (last : UInt8) : Bytes → Except Fault (List Nat × UInt8)
    | [] => .ok (values, last)
    | b :: rest =>
      if b = padByte then
        if index < 2 then .error (.symbol b (offset + index))
        else if rest.all (· == padByte) then .ok (values, last)
        else .error (.symbol padByte (offset + index))
      else
        match value? b with
        | none => .error (.symbol b (offset + index))
        | some v => go (index + 1) (values ++ [v]) b rest

/-- The last group, of at most four bytes. -/
def decodeLast (offset : Nat) (bs : Bytes) : Except Fault Bytes :=
  match groupValues offset bs with
  | .error e => .error e
  | .ok (values, last) => closing last offset values

/-- Whole groups from the front; the last one, even when whole, may be padded. -/
def decodeGroups (acc : Bytes) (offset : Nat) : Bytes → Except Fault Bytes
  | a :: b :: c :: d :: e :: rest => do
    let x ← value offset a
    let y ← value (offset + 1) b
    let z ← value (offset + 2) c
    let w ← value (offset + 3) d
    decodeGroups
      (UInt8.ofNat (z % 4 * 64 + w) :: UInt8.ofNat (y % 16 * 16 + z / 4) ::
        UInt8.ofNat (x * 4 + y / 16) :: acc)
      (offset + 4) (e :: rest)
  | [] => .ok acc.reverse
  | bs => do
    let tail ← decodeLast offset bs
    return acc.reverse ++ tail

/-- A stray byte after whole groups is named before anything else. -/
def strayByte? (bs : Bytes) : Option Fault :=
  if bs.length % 4 = 1 then
    match bs.getLast? with
    | some b => if b ≠ padByte ∧ value? b = none then some (.symbol b (bs.length - 1)) else none
    | none => none
  else none

def decodeBytes (bs : Bytes) : Except Fault Bytes :=
  match strayByte? bs with
  | some fault => .error fault
  | none => decodeGroups [] 0 bs

/-- Decodes the standard alphabet; blanks around the text do not count. -/
def decode (s : String) : Except Fault Bytes := decodeBytes (Text.bytes (Text.trim s))

/-- The symbol of the standard alphabet that has the same value. -/
def toStandard : Char → Char
  | '-' => '+'
  | '_' => '/'
  | c => c

/-- Decodes either alphabet, also when both are mixed. -/
def decodeUrl (s : String) : Except Fault Bytes :=
  decodeBytes (Text.bytesOf ((Text.trimChars s.toList).map toStandard))

end AccountGate.Codec.Base64
