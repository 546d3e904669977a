import AccountGate.Decimal.Shortest
import AccountGate.Json.Value

/-!
Writing JSON: compact, and a map of texts with one member a line.
-/

namespace AccountGate.Json

def hexDigit (n : Nat) : Char := if n < 10 then Char.ofNat (48 + n) else Char.ofNat (87 + n)

/-- One character of a string: quotes, backslashes and controls are escaped. -/
def escapeChar (c : Char) : List Char :=
  if c = '"' then ['\\', '"']
  else if c = '\\' then ['\\', '\\']
  else if c.toNat = 8 then ['\\', 'b']
  else if c.toNat = 12 then ['\\', 'f']
  else if c = '\n' then ['\\', 'n']
  else if c = '\r' then ['\\', 'r']
  else if c = '\t' then ['\\', 't']
  else if c.toNat < 32 then
    ['\\', 'u', '0', '0', hexDigit (c.toNat / 16), hexDigit (c.toNat % 16)]
  else [c]

def stringChars (s : String) : List Char := '"' :: (s.toList.flatMap escapeChar ++ ['"'])

/-- Positional from `1e-5` up to seventeen digits before the point, else with an exponent. -/
def digitsChars (d : Decimal.Digits) : List Char :=
  let digits := Nat.toDigits 10 d.digits
  let count : Int := digits.length
  let point : Int := count + d.exponent
  if 0 ≤ d.exponent ∧ point ≤ 16 then
    digits ++ List.replicate d.exponent.toNat '0' ++ ['.', '0']
  else if 0 < point ∧ point ≤ 16 then
    digits.take point.toNat ++ '.' :: digits.drop point.toNat
  else if -5 < point ∧ point ≤ 0 then
    '0' :: '.' :: (List.replicate (-point).toNat '0' ++ digits)
  else
    let exponent := 'e' :: (toString (point - 1)).toList
    match digits with
    | [d] => d :: exponent
    | d :: rest => d :: '.' :: (rest ++ exponent)
    | [] => exponent

def floatChars (x : Float) : List Char :=
  if x.toBits >>> 63 == 1 then '-' :: digitsChars (Decimal.shortest (-x))
  else digitsChars (Decimal.shortest x)

def numberChars : Number → List Char
  | .int n => (toString n).toList
  | .real x => floatChars x

mutual

def chars : Json → List Char
  | .null => ['n', 'u', 'l', 'l']
  | .bool true => ['t', 'r', 'u', 'e']
  | .bool false => ['f', 'a', 'l', 's', 'e']
  | .number n => numberChars n
  | .text s => stringChars s
  | .array [] => ['[', ']']
  | .array (item :: items) => '[' :: (chars item ++ itemsChars items)
  | .object [] => ['\x7b', '\x7d']
  | .object ((name, value) :: members) =>
    '\x7b' :: (stringChars name ++ ':' :: (chars value ++ membersChars members))

def itemsChars : List Json → List Char
  | [] => [']']
  | item :: items => ',' :: (chars item ++ itemsChars items)

def membersChars : List (String × Json) → List Char
  | [] => ['\x7d']
  | (name, value) :: members =>
    ',' :: (stringChars name ++ ':' :: (chars value ++ membersChars members))

end

/-- The compact text of a value. -/
def render (j : Json) : String := String.ofList j.chars

def linesChars : List (String × String) → List Char
  | [] => []
  | [(name, value)] => ' ' :: ' ' :: (stringChars name ++ ':' :: ' ' :: (stringChars value ++ ['\n']))
  | (name, value) :: rest =>
    ' ' :: ' ' :: (stringChars name ++ ':' :: ' ' :: (stringChars value ++ ',' :: '\n' :: linesChars rest))

/-- A map of texts, one member a line, indented by two blanks. -/
def renderTexts (members : List (String × String)) : String :=
  match members with
  | [] => String.ofList ['\x7b', '\x7d']
  | _ => String.ofList ('\x7b' :: '\n' :: (linesChars members ++ ['\x7d']))

end AccountGate.Json
