import AccountGate.Calendar.Date
import AccountGate.Toml.Value

/-!
Single values of a configuration text: strings of four kinds, numbers, and moments in time.
-/

namespace AccountGate.Toml

def isWs (c : Char) : Bool := c == ' ' || c == '\t'

/-- Characters that may stand in strings and comments. -/
def isTextChar (c : Char) : Bool := c == '\t' || (0x20 ≤ c.toNat && c.toNat ≠ 0x7F)

def isDigit (c : Char) : Bool := '0' ≤ c && c ≤ '9'

def hexValue? (c : Char) : Option Nat :=
  if isDigit c then some (c.toNat - 48)
  else if 'a' ≤ c ∧ c ≤ 'f' then some (c.toNat - 87)
  else if 'A' ≤ c ∧ c ≤ 'F' then some (c.toNat - 55)
  else none

/-- The character with the number that hexadecimal digits write. -/
def hexChar? (digits : List Char) : Option Char := do
  let n ← digits.foldlM (fun n c => (hexValue? c).map (n * 16 + ·)) 0
  guard n.isValidChar
  return Char.ofNat n

/-- The character after a backslash, and what follows. -/
def readEscape : List Char → Option (Char × List Char)
  | 'b' :: rest => some ('\x08', rest)
  | 't' :: rest => some ('\t', rest)
  | 'n' :: rest => some ('\n', rest)
  | 'f' :: rest => some ('\x0C', rest)
  | 'r' :: rest => some ('\r', rest)
  | 'e' :: rest => some ('\x1B', rest)
  | '"' :: rest => some ('"', rest)
  | '\\' :: rest => some ('\\', rest)
  | 'x' :: rest => numbered 2 rest
  | 'u' :: rest => numbered 4 rest
  | 'U' :: rest => numbered 8 rest
  | _ => none
where
  numbered (size : Nat) (cs : List Char) : Option (Char × List Char) := do
    guard (size ≤ cs.length)
    return (← hexChar? (cs.take size), cs.drop size)

/-- A string between double quotes, from after the first of them. -/
def basicBody : Nat → List Char → List Char → Option (List Char × List Char)
  | 0, _, _ => none
  | _ + 1, _, [] => none
  | _ + 1, acc, '"' :: rest => some (acc.reverse, rest)
  | fuel + 1, acc, '\\' :: rest => do
    let (c, rest) ← readEscape rest
    basicBody fuel (c :: acc) rest
  | fuel + 1, acc, c :: rest => if isTextChar c then basicBody fuel (c :: acc) rest else none

/-- A string between single quotes, in which nothing is escaped. -/
def literalBody (acc : List Char) : List Char → Option (List Char × List Char)
  | [] => none
  | '\'' :: rest => some (acc.reverse, rest)
  | c :: rest => if isTextChar c then literalBody (c :: acc) rest else none

/-- A line end at the front. -/
def dropNewline? : List Char → Option (List Char)
  | '\n' :: rest => some rest
  | '\r' :: '\n' :: rest => some rest
  | _ => none

def skipNewline (cs : List Char) : List Char := (dropNewline? cs).getD cs

/-- Blanks and line ends at the front; a carriage return alone is none. -/
def dropBlankLines : List Char → List Char
  | '\r' :: '\n' :: rest => dropBlankLines rest
  | c :: rest => if isWs c || c == '\n' then dropBlankLines rest else c :: rest
  | [] => []

/-- The end of a string of several lines; one or two more quotes before it belong to it. -/
def closing? (quote : Char) (acc : List Char) : List Char → Option (List Char × List Char)
  | a :: b :: c :: rest =>
    if a == quote && b == quote && c == quote then
      let extra := (rest.take 2).takeWhile (· == quote)
      some (acc.reverse ++ extra, rest.drop extra.length)
    else none
  | _ => none

/-- A string of several lines with escapes; a backslash at a line's end joins what follows. -/
def basicLines : Nat → List Char → List Char → Option (List Char × List Char)
  | 0, _, _ => none
  | fuel + 1, acc, cs =>
    match closing? '"' acc cs with
    | some r => some r
    | none =>
      match cs with
      | [] => none
      | '\\' :: rest =>
        match dropNewline? (rest.dropWhile isWs) with
        | some after => basicLines fuel acc (dropBlankLines after)
        | none => do
          let (c, rest) ← readEscape rest
          basicLines fuel (c :: acc) rest
      | '\r' :: '\n' :: rest => basicLines fuel ('\n' :: '\r' :: acc) rest
      | c :: rest => if isTextChar c || c == '\n' then basicLines fuel (c :: acc) rest else none

/-- A string of several lines in which nothing is escaped. -/
def literalLines : Nat → List Char → List Char → Option (List Char × List Char)
  | 0, _, _ => none
  | fuel + 1, acc, cs =>
    match closing? '\'' acc cs with
    | some r => some r
    | none =>
      match cs with
      | [] => none
      | '\r' :: '\n' :: rest => literalLines fuel ('\n' :: '\r' :: acc) rest
      | c :: rest => if isTextChar c || c == '\n' then literalLines fuel (c :: acc) rest else none

/-- A string on one line, with its quotes. -/
def readLineString : List Char → Option (String × List Char)
  | '"' :: rest => (basicBody (rest.length + 1) [] rest).map fun r => (String.ofList r.1, r.2)
  | '\'' :: rest => (literalBody [] rest).map fun r => (String.ofList r.1, r.2)
  | _ => none

/-- A string of any kind, with its quotes. -/
def readString : List Char → Option (String × List Char)
  | '"' :: '"' :: '"' :: rest =>
    (basicLines (rest.length + 1) [] (skipNewline rest)).map fun r => (String.ofList r.1, r.2)
  | '\'' :: '\'' :: '\'' :: rest =>
    (literalLines (rest.length + 1) [] (skipNewline rest)).map fun r => (String.ofList r.1, r.2)
  | cs => readLineString cs

/-- The number that digits of a base write; single underscores may part them. -/
def grouped? (base : Nat) (cs : List Char) : Option Nat :=
  let rec go (acc : Nat) (afterDigit : Bool) : List Char → Option Nat
    | [] => if afterDigit then some acc else none
    | '_' :: rest => if afterDigit then go acc false rest else none
    | c :: rest => do
      let d ← hexValue? c
      guard (d < base)
      go (acc * base + d) true rest
  go 0 false cs

/-- Decimal digits without a zero in front of others. -/
def decimal? (cs : List Char) : Option Nat :=
  match cs with
  | '0' :: _ :: _ => none
  | _ => grouped? 10 cs

def signed (cs : List Char) : Bool × List Char :=
  match cs with
  | '-' :: rest => (true, rest)
  | '+' :: rest => (false, rest)
  | _ => (false, cs)

/-- Whole numbers have at most 128 bits. -/
def integer? (cs : List Char) : Option Int :=
  let n? : Option Int := match cs with
    | '0' :: 'x' :: digits => (grouped? 16 digits).map Int.ofNat
    | '0' :: 'o' :: digits => (grouped? 8 digits).map Int.ofNat
    | '0' :: 'b' :: digits => (grouped? 2 digits).map Int.ofNat
    | _ =>
      let (negative, digits) := signed cs
      (decimal? digits).map fun n => if negative then -(n : Int) else n
  n?.filter fun n => -(Nat.pow 2 127) ≤ n && n < Nat.pow 2 128

def isExponentMark (c : Char) : Bool := c == 'e' || c == 'E'

/-- The least number that is nearer to two to the power 1024 than to the greatest float. -/
def floatBound : Nat := Nat.pow 2 1024 - Nat.pow 2 970

/-- Whether `n * 10 ^ exponent` is a float; `size` is how many digits `n` has. -/
def isWithinFloats (n size : Nat) (exponent : Int) : Bool :=
  if n = 0 ∨ size + exponent < 300 then true
  else if 310 < size + exponent then false
  else if 0 ≤ exponent then n * Nat.pow 10 exponent.toNat < floatBound
  else n < floatBound * Nat.pow 10 exponent.natAbs

/-- Whether whole digits, digits after the point and an exponent write a number that is a float. -/
def isRepresentable (whole fraction exponent : List Char) : Bool :=
  let fraction := fraction.filter isDigit
  let digits := (whole.filter isDigit ++ fraction).dropWhile (· == '0')
  let (negative, exponent) := signed exponent
  let shift : Int := (grouped? 10 exponent).getD 0
  isWithinFloats (digits.foldl (fun n c => n * 10 + (c.toNat - 48)) 0) digits.length
    ((if negative then -shift else shift) - fraction.length)

/-- Digits with a point and more digits, or with an exponent, or both. -/
def isFloat (cs : List Char) : Bool :=
  let body := (signed cs).2
  if body == "inf".toList || body == "nan".toList then true
  else
    let mantissa := body.takeWhile fun c => !isExponentMark c
    let exponent := body.dropWhile fun c => !isExponentMark c
    let whole := mantissa.takeWhile (· != '.')
    let fraction := mantissa.dropWhile (· != '.')
    (decimal? whole).isSome && !(fraction.isEmpty && exponent.isEmpty) &&
      (fraction.isEmpty || (grouped? 10 (fraction.drop 1)).isSome) &&
      (exponent.isEmpty || (grouped? 10 (signed (exponent.drop 1)).2).isSome) &&
      isRepresentable whole fraction (exponent.drop 1)

/-- Exactly so many digits, up to a limit. -/
def digits? (size limit : Nat) (cs : List Char) : Option (Nat × List Char) := do
  let digits := cs.take size
  guard (digits.length = size && digits.all isDigit)
  let n := digits.foldl (fun n c => n * 10 + (c.toNat - 48)) 0
  guard (n ≤ limit)
  return (n, cs.drop size)

def char? (c : Char) (cs : List Char) : Option (List Char) :=
  if cs.head? == some c then some (cs.drop 1) else none

def dropDate? (cs : List Char) : Option (List Char) := do
  let (year, rest) ← digits? 4 9999 cs
  let (month, rest) ← digits? 2 12 (← char? '-' rest)
  let (day, rest) ← digits? 2 31 (← char? '-' rest)
  guard (Date.isValid ⟨year, month, day⟩)
  return rest

/-- Hours and minutes, perhaps seconds, perhaps a fraction of them. -/
def dropTime? (cs : List Char) : Option (List Char) := do
  let (_, rest) ← digits? 2 23 cs
  let (_, rest) ← digits? 2 59 (← char? ':' rest)
  match rest with
  | ':' :: rest => do
    let (_, rest) ← digits? 2 60 rest
    match rest with
    | '.' :: rest => do
      guard ((rest.head?.map isDigit).getD false)
      return rest.dropWhile isDigit
    | _ => return rest
  | _ => return rest

def dropOffset? (cs : List Char) : Option (List Char) :=
  match cs with
  | [] => some []
  | 'Z' :: rest => some rest
  | 'z' :: rest => some rest
  | sign :: rest => do
    guard (sign == '+' || sign == '-')
    let (_, rest) ← digits? 2 23 rest
    let (_, rest) ← digits? 2 59 (← char? ':' rest)
    return rest

/-- A date, a time of day, or both, then perhaps with a distance from universal time. -/
def isMoment (cs : List Char) : Bool :=
  match dropDate? cs with
  | some [] => true
  | some (mark :: rest) =>
    (mark == 'T' || mark == 't' || mark == ' ') &&
      ((dropTime? rest).bind dropOffset?) == some []
  | none => dropTime? cs == some []

def bare? (cs : List Char) : Option Value :=
  if cs == "true".toList then some (.boolean true)
  else if cs == "false".toList then some (.boolean false)
  else match integer? cs with
    | some n => some (.integer n)
    | none => if isFloat cs then some .float else if isMoment cs then some .moment else none

def isBareChar (c : Char) : Bool :=
  isDigit c || ('a' ≤ c && c ≤ 'z') || ('A' ≤ c && c ≤ 'Z') || c == '_' || c == '-' || c == '+' ||
    c == '.' || c == ':'

/-- A value without quotes and brackets; a date and a time of day may have a blank between them. -/
def readBare (cs : List Char) : Option (Value × List Char) :=
  let word := cs.takeWhile isBareChar
  let rest := cs.dropWhile isBareChar
  match rest with
  | ' ' :: c :: more =>
    if isDigit c && dropDate? word == some [] then
      let time := (c :: more).takeWhile isBareChar
      (bare? (word ++ ' ' :: time)).map fun v => (v, (c :: more).dropWhile isBareChar)
    else (bare? word).map fun v => (v, rest)
  | _ => (bare? word).map fun v => (v, rest)

end AccountGate.Toml
