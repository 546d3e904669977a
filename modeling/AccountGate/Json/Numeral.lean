import AccountGate.Json.Value
import AccountGate.Text.Utf8

/-!
JSON numerals: their form, and the number that a form stands for.
-/

namespace AccountGate.Json

/-- A numeral as written: digits before the point, after it, and of the exponent. -/
structure Numeral where
  negative : Bool
  whole : List Nat
  fraction : Option (List Nat)
  exponent : Option (Bool × List Nat)
  deriving DecidableEq, Repr

def isDigit (b : UInt8) : Bool := 48 ≤ b && b ≤ 57

def digitOf (b : UInt8) : Nat := b.toNat - 48

def takeDigits (bs : Bytes) : List Nat × Bytes :=
  ((bs.takeWhile isDigit).map digitOf, bs.dropWhile isDigit)

def Numeral.readExponent (bs : Bytes) : Option (Option (Bool × List Nat) × Bytes) :=
  match bs with
  | b :: rest =>
    if b = 101 ∨ b = 69 then
      let (negative, rest) := match rest with
        | s :: more => if s = 45 then (true, more) else if s = 43 then (false, more) else (false, rest)
        | [] => (false, [])
      match takeDigits rest with
      | ([], _) => none
      | (digits, rest) => some (some (negative, digits), rest)
    else some (none, bs)
  | [] => some (none, [])

def Numeral.readFraction (bs : Bytes) : Option (Option (List Nat) × Bytes) :=
  match bs with
  | b :: rest =>
    if b = 46 then
      match takeDigits rest with
      | ([], _) => none
      | (digits, rest) => some (some digits, rest)
    else some (none, bs)
  | [] => some (none, [])

/-- No digit may follow a leading zero. -/
def Numeral.read (bs : Bytes) : Option (Numeral × Bytes) := do
  let (negative, bs) := match bs with
    | b :: rest => if b = 45 then (true, rest) else (false, bs)
    | [] => (false, [])
  let (whole, bs) := takeDigits bs
  guard (whole ≠ [] ∧ (whole.head? = some 0 → whole.length = 1))
  let (fraction, bs) ← readFraction bs
  let (exponent, bs) ← readExponent bs
  return (⟨negative, whole, fraction, exponent⟩, bs)

/-- How far below zero a whole number of 64 bits goes. -/
def minMagnitude : Nat := 9223372036854775808

def maxWord : Nat := 18446744073709551615

/-- Digits joined to a significand for as long as it stays within 64 bits, and how many are left. -/
def joinDigits (significand : Nat) : List Nat → Nat × Nat
  | [] => (significand, 0)
  | d :: rest =>
    if significand * 10 + d ≤ maxWord then joinDigits (significand * 10 + d) rest
    else (significand, rest.length + 1)

def natOfDigits (ds : List Nat) : Nat := ds.foldl (fun n d => n * 10 + d) 0

def powerOfTen (k : Nat) : Float := Float.ofScientific 1 false k

/-- `x * 10 ^ e` by one multiplication or by divisions; nothing when it overflows. -/
def scale : Nat → Float → Int → Option Float
  | 0, x, _ => some x
  | fuel + 1, x, e =>
    if e.natAbs ≤ 308 then
      if 0 ≤ e then
        let y := x * powerOfTen e.natAbs
        if y.isInf then none else some y
      else some (x / powerOfTen e.natAbs)
    else if x == 0 then some x
    else if 0 ≤ e then none
    else scale fuel (x / powerOfTen 308) (e + 308)

def signed (negative : Bool) (x : Float) : Float := if negative then -x else x

def maxExponent : Nat := 2147483647

/-- The float of a numeral: its first digits within 64 bits, scaled. -/
def Numeral.float? (n : Numeral) : Option Float :=
  let (head, dropped) := joinDigits 0 n.whole
  let fraction := n.fraction.getD []
  let (significand, left) := joinDigits head fraction
  let place : Int := dropped - (fraction.length - left : Nat)
  let (negativeExponent, digits) := n.exponent.getD (false, [])
  let exponent := natOfDigits digits
  if maxExponent < exponent then
    if significand ≠ 0 ∧ !negativeExponent then none else some (signed n.negative 0)
  else
    let shift : Int := if negativeExponent then place - exponent else place + exponent
    (scale 5 significand.toUInt64.toFloat shift).map (signed n.negative)

/-- A numeral without point and exponent is whole where 64 bits hold it; minus zero is a float. -/
def Numeral.number? (n : Numeral) : Option Number :=
  if n.fraction.isNone ∧ n.exponent.isNone then
    let magnitude := natOfDigits n.whole
    if n.negative then
      if magnitude ≠ 0 ∧ magnitude ≤ minMagnitude then some (.int (-magnitude)) else n.float?.map .real
    else if magnitude ≤ maxWord then some (.int magnitude)
    else n.float?.map .real
  else n.float?.map .real

end AccountGate.Json
