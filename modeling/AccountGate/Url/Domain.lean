import AccountGate.Text.Composed
import AccountGate.Url.Domain.Direction
import AccountGate.Url.Domain.Mapping
import AccountGate.Url.Punycode

/-!
Domain names in their ASCII form: characters in the form that stands for them, labels with others
than those of ASCII in Punycode.
-/

namespace AccountGate.Url.Domain

/-- Characters of ASCII that no domain name may hold. -/
def isForbidden (c : Char) : Bool :=
  c.toNat ≤ 32 || c.toNat == 127 ||
    ['%', '#', '/', ':', '<', '>', '?', '@', '[', '\\', ']', '^', '|'].contains c

/-- How many characters a label may have that needs to be encoded. -/
def longestText : Nat := 1000

/-- How many characters an encoded label may have. -/
def longestCode : Nat := 2000

/-- A label with others than the characters of ASCII: it starts with no mark, joiners stand where
they may, and it is not too long to be encoded. -/
def isLabel (label : List Char) : Bool :=
  !(label.take 1).any Text.isMark && joinersFit [] label && label.length ≤ longestText

def punycodeMark : List Char := ['x', 'n', '-', '-']

/-- A label that came encoded, without its mark: the text must be one that is encoded so. -/
def decodeLabel? (code : List Char) : Option (List Char) := do
  guard (Text.isAscii code && code.length ≤ longestCode)
  let label ← Punycode.decode? code
  guard (!Text.isAscii label && label.all isSettled && Text.compose label == label && isLabel label)
  return label

/-- The text of a label. -/
def labelText? (label : List Char) : Option (List Char) :=
  if label.take 4 == punycodeMark then decodeLabel? (label.drop 4)
  else if Text.isAscii label || isLabel label then some label
  else none

/-- The ASCII form of a label; one that came encoded has it already. -/
def labelCode (label : List Char) : List Char :=
  if Text.isAscii label then label else punycodeMark ++ Punycode.encode label

def join : List (List Char) → List Char
  | [] => []
  | [label] => label
  | label :: rest => label ++ '.' :: join rest

/-- The ASCII form of a name. -/
def toAscii? (name : List Char) : Option (List Char) := do
  let mapped := Text.compose (← name.mapM mapChar?).flatten
  guard (!mapped.any isForbidden)
  let labels := Text.pieces '.' mapped
  guard (areOneWay (← labels.mapM labelText?))
  return join (labels.map labelCode)

end AccountGate.Url.Domain
