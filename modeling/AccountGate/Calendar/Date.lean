import AccountGate.Text.Blank

/-!
Calendar dates: their order, their reading from `YYYY-MM-DD`, and the day of a moment in time.
-/

namespace AccountGate

structure Date where
  year : Int
  month : Nat
  day : Nat
  deriving DecidableEq, Repr

namespace Date

/-- Earlier or the same day. -/
def le (a b : Date) : Bool :=
  a.year < b.year || (a.year == b.year &&
    (a.month < b.month || (a.month == b.month && a.day ≤ b.day)))

instance : LE Date := ⟨fun a b => a.le b = true⟩

instance (a b : Date) : Decidable (a ≤ b) := inferInstanceAs (Decidable (a.le b = true))

def isLeap (year : Int) : Bool := year % 4 == 0 && (year % 100 != 0 || year % 400 == 0)

def daysIn (year : Int) (month : Nat) : Nat :=
  if month == 2 then if isLeap year then 29 else 28
  else if month == 4 || month == 6 || month == 9 || month == 11 then 30
  else 31

def minYear : Int := -262143
def maxYear : Int := 262142

def isValid (d : Date) : Bool :=
  minYear ≤ d.year && d.year ≤ maxYear && 1 ≤ d.month && d.month ≤ 12 && 1 ≤ d.day &&
    d.day ≤ daysIn d.year d.month

/-- The date of a day counted from 1970-01-01, by eras of 400 years that begin in March. -/
def ofDayNumber (n : Int) : Date :=
  let shifted := n + 719468
  let era := Int.fdiv shifted 146097
  let dayOfEra := (Int.fmod shifted 146097).toNat
  let yearOfEra := (dayOfEra - dayOfEra / 1460 + dayOfEra / 36524 - dayOfEra / 146096) / 365
  let dayOfYear := dayOfEra - (365 * yearOfEra + yearOfEra / 4 - yearOfEra / 100)
  let monthFromMarch := (5 * dayOfYear + 2) / 153
  let day := dayOfYear - (153 * monthFromMarch + 2) / 5 + 1
  let month := if monthFromMarch < 10 then monthFromMarch + 3 else monthFromMarch - 9
  let year := (yearOfEra : Int) + era * 400
  ⟨if month ≤ 2 then year + 1 else year, month, day⟩

/-- The day of a moment, given in seconds from the start of 1970. -/
def ofUnix (seconds : Int) : Date := ofDayNumber (Int.fdiv seconds 86400)

/-- Why a text is no date. -/
inductive Fault where
  | invalid
  | tooShort
  | trailing
  | outOfRange
  deriving DecidableEq, Repr

def Fault.message : Fault → String
  | .invalid => "input contains invalid characters"
  | .tooShort => "premature end of input"
  | .trailing => "trailing input"
  | .outOfRange => "input is out of range"

def isDigit (c : Char) : Bool := '0' ≤ c && c ≤ '9'

def maxNumber : Nat := 9223372036854775807

/-- The number that up to `width` digits write, and the rest. -/
def digits (acc : Nat) : Nat → List Char → Except Fault (Nat × List Char)
  | 0, cs => .ok (acc, cs)
  | _ + 1, [] => .ok (acc, [])
  | width + 1, c :: rest =>
    if isDigit c then
      let n := acc * 10 + (c.toNat - 48)
      if maxNumber < n then .error .outOfRange else digits n width rest
    else .ok (acc, c :: rest)

/-- A number of at least one and at most `width` digits. -/
def number (width : Nat) (cs : List Char) : Except Fault (Nat × List Char) :=
  match cs with
  | [] => .error .tooShort
  | c :: _ => if isDigit c then digits 0 width cs else .error .invalid

/-- A year has up to four digits, or a sign and any number of them; blanks may stand before it. -/
def readYear (cs : List Char) : Except Fault (Int × List Char) := do
  let cs := Text.trimStart cs
  let (year, rest) ← match cs with
    | '-' :: rest => (number rest.length rest).map fun (n, rest) => (-(n : Int), rest)
    | '+' :: rest => (number rest.length rest).map fun (n, rest) => ((n : Int), rest)
    | _ => (number 4 cs).map fun (n, rest) => ((n : Int), rest)
  if -2147483648 ≤ year ∧ year < 2147483648 then .ok (year, rest) else .error .outOfRange

/-- One or two digits up to `limit`, from 1 on; blanks may stand before them. -/
def readPart (limit : Nat) (cs : List Char) : Except Fault (Nat × List Char) := do
  let (n, rest) ← number 2 (Text.trimStart cs)
  if 1 ≤ n ∧ n ≤ limit then .ok (n, rest) else .error .outOfRange

def readDash : List Char → Except Fault (List Char)
  | [] => .error .tooShort
  | c :: rest => if c = '-' then .ok rest else .error .invalid

/-- Reads a date from the whole of a text, blanks around it aside. -/
def parse (text : String) : Except Fault Date := do
  let (year, rest) ← readYear (Text.trimChars text.toList)
  let rest ← readDash rest
  let (month, rest) ← readPart 12 rest
  let rest ← readDash rest
  let (day, rest) ← readPart 31 rest
  if rest.isEmpty then
    let d : Date := ⟨year, month, day⟩
    if d.isValid then .ok d else .error .outOfRange
  else .error .trailing

end Date

end AccountGate
