import AccountGate.Text.Utf8
import AccountGate.Url.Percent

/-!
Form encoding: pairs of texts joined by ampersands. Decoding takes any text, so it is total; what
encoding writes is read back.
-/

namespace AccountGate.Url.Form

abbrev Pairs := List (String × String)

def isPlain (b : UInt8) : Bool :=
  (48 ≤ b && b ≤ 57) || (65 ≤ b && b ≤ 90) || (97 ≤ b && b ≤ 122) || among ['*', '-', '.', '_'] b

def encodeByte (b : UInt8) : List Char :=
  if b = 32 then ['+'] else if isPlain b then [Char.ofNat b.toNat] else escape b

def encodeText (s : String) : List Char := (Text.bytes s).flatMap encodeByte

def encodePair (p : String × String) : List Char := encodeText p.1 ++ '=' :: encodeText p.2

/-- The pairs after what is already written; an ampersand parts them from it. -/
def append (written : List Char) (pairs : Pairs) : List Char :=
  pairs.foldl (fun out p => out ++ (if out.isEmpty then [] else ['&']) ++ encodePair p) written

def encode (pairs : Pairs) : String := String.ofList (append [] pairs)

/-- The parts between the occurrences of a byte. -/
def parts (sep : UInt8) : Bytes → List Bytes
  | [] => [[]]
  | b :: rest =>
    if b == sep then [] :: parts sep rest
    else match parts sep rest with
      | [] => [[b]]
      | first :: others => (b :: first) :: others

def plusToSpace (b : UInt8) : UInt8 := if b = 43 then 32 else b

def decodeText (bs : Bytes) : String := Text.decodeLossy (Url.decode (bs.map plusToSpace))

/-- Name and value part at the first equals sign; without one there is an empty value. -/
def decodePair (bs : Bytes) : String × String :=
  (decodeText (bs.takeWhile (· != 61)), decodeText ((bs.dropWhile (· != 61)).drop 1))

/-- The pairs of a text; empty parts count for nothing. -/
def decode (bs : Bytes) : Pairs := ((parts 38 bs).filter fun p => !p.isEmpty).map decodePair

end AccountGate.Url.Form
