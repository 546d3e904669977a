import AccountGate.Codec.Base64

/-!
Textual encoding of binary data between a BEGIN and an END line of one label, sixty-four symbols
a line.
-/

namespace AccountGate.Rsa.Pem

def lineWidth : Nat := 64

def beginMark : Bytes := Text.bytes "-----BEGIN "
def endMark : Bytes := Text.bytes "-----END "
def dashes : Bytes := Text.bytes "-----"

/-- The rest after a line end: line feed, carriage return, or both. -/
def dropEol? : Bytes → Option Bytes
  | 13 :: 10 :: rest => some rest
  | 13 :: rest => some rest
  | 10 :: rest => some rest
  | _ => none

/-- What stands before a line end at the end. -/
def dropLastEol? (bs : Bytes) : Option Bytes :=
  match bs.reverse with
  | 10 :: 13 :: rest => some rest.reverse
  | 10 :: rest => some rest.reverse
  | 13 :: rest => some rest.reverse
  | _ => none

def dropPrefix? (p bs : Bytes) : Option Bytes :=
  if p.isPrefixOf bs then some (bs.drop p.length) else none

def dropSuffix? (s bs : Bytes) : Option Bytes :=
  if s.isSuffixOf bs then some (bs.take (bs.length - s.length)) else none

/-- Steps over lines before the BEGIN line. -/
def skipPreamble : Bytes → Option Bytes
  | [] => none
  | b :: rest =>
    if b = 0 then none
    else if b = 10 ∧ beginMark.isPrefixOf rest then some rest
    else skipPreamble rest

def fromBegin (bs : Bytes) : Option Bytes :=
  if beginMark.isPrefixOf bs then some bs else skipPreamble bs

/-- The text between the lines of a label. -/
def body? (label : String) (bs : Bytes) : Option Bytes := do
  let name := Text.bytes label
  let rest ← dropPrefix? (beginMark ++ name ++ dashes) (← fromBegin bs)
  let rest ← dropEol? rest
  let rest := (dropLastEol? rest).getD rest
  dropLastEol? (← dropSuffix? (endMark ++ name ++ dashes) rest)

/-- The symbols of all lines: each but the last is full, the last may be shorter but not empty. -/
def joinLines : Nat → Bytes → Option Bytes
  | 0, _ => none
  | fuel + 1, bs =>
    if bs.isEmpty then some []
    else if bs.length ≤ lineWidth then (some ((dropLastEol? bs).getD bs)).filter (!·.isEmpty)
    else do
      let rest ← dropEol? (bs.drop lineWidth)
      return bs.take lineWidth ++ (← joinLines fuel rest)

/-- The data of a text with the given label: padded Base64, each datum in its one spelling. -/
def decode? (label : String) (text : String) : Option Bytes := do
  let body ← body? label (Text.bytes text)
  let symbols ← joinLines (body.length + 1) body
  let data ← (Codec.Base64.decodeBytes symbols).toOption
  guard (Text.bytesOf (Codec.Base64.encodeChars .standard data) = symbols)
  return data

/-- Full lines, and a last line that may be shorter. -/
def wrap : Nat → List Char → List Char
  | 0, cs => cs
  | fuel + 1, cs =>
    if cs.length ≤ lineWidth then cs
    else cs.take lineWidth ++ '\n' :: wrap fuel (cs.drop lineWidth)

/-- The text of some data under a label. -/
def encode (label : String) (data : Bytes) : String :=
  let cs := Codec.Base64.encodeChars .standard data
  "-----BEGIN " ++ label ++ "-----\n" ++ String.ofList (wrap cs.length cs) ++
    "\n-----END " ++ label ++ "-----\n"

end AccountGate.Rsa.Pem
