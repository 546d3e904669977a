/-!
The fewest decimal digits that read back as a given binary float.
-/

namespace AccountGate.Decimal

/-- `digits * 10 ^ exponent`. -/
structure Digits where
  digits : Nat
  exponent : Int
  deriving DecidableEq, Repr

def Digits.toFloat (d : Digits) : Float :=
  if d.exponent < 0 then Float.ofScientific d.digits true d.exponent.natAbs
  else Float.ofScientific d.digits false d.exponent.natAbs

/-- A positive finite float as `m * 2 ^ q`. -/
def binaryParts (x : Float) : Nat × Int :=
  let bits := x.toBits.toNat
  let exponent : Nat := bits / 4503599627370496 % 2048
  let fraction : Nat := bits % 4503599627370496
  if exponent = 0 then (fraction, -1074) else (fraction + 4503599627370496, (exponent : Int) - 1075)

/-- The quotient nearest to `num / den`; of two, the even one. -/
def roundDiv (num den : Nat) : Nat :=
  let q := num / den
  let r := num % den
  if 2 * r < den then q else if den < 2 * r then q + 1 else if q % 2 = 0 then q else q + 1

/-- The multiple of `10 ^ e` nearest to `m * 2 ^ q`, in units of `10 ^ e`. -/
def nearestMultiple (m : Nat) (q e : Int) : Nat :=
  let num := m * Nat.pow 2 q.toNat * Nat.pow 10 (-e).toNat
  let den := Nat.pow 2 (-q).toNat * Nat.pow 10 e.toNat
  roundDiv num den

/-- A number is at least `10 ^ e` when scaled up or down by that power it is at least one. -/
def atLeastPower (num den : Nat) (e : Int) : Bool :=
  den * Nat.pow 10 e.toNat ≤ num * Nat.pow 10 (-e).toNat

/-- The exponent of the first significant digit of `m * 2 ^ q`, for `m ≠ 0`: the binary exponent
gives it up to one. -/
def leadingExponent (m : Nat) (q : Int) : Int :=
  let guess := ((Nat.log2 m : Int) + q) * 30103 / 100000
  let num := m * Nat.pow 2 q.toNat
  let den := Nat.pow 2 (-q).toNat
  if atLeastPower num den (guess + 1) then guess + 1
  else if atLeastPower num den guess then guess
  else guess - 1

/-- Drops zeros at the end of the digits; `fuel` bounds their number. -/
def Digits.strip : Nat → Digits → Digits
  | 0, d => d
  | fuel + 1, d =>
    if d.digits % 10 = 0 ∧ d.digits ≠ 0 then
      Digits.strip fuel ⟨d.digits / 10, d.exponent + 1⟩
    else d

def tryDigits (x : Float) (m : Nat) (q lead : Int) : Nat → Nat → Digits
  | 0, count => ⟨nearestMultiple m q (lead - count), lead - count⟩
  | fuel + 1, count =>
    let d : Digits := ⟨nearestMultiple m q (lead - count), lead - count⟩
    if d.toFloat == x then d else tryDigits x m q lead fuel (count + 1)

/-- The shortest digits of a positive finite float; zero has the one digit 0. -/
def shortest (x : Float) : Digits :=
  let (m, q) := binaryParts x
  if m = 0 then ⟨0, 0⟩
  else (tryDigits x m q (leadingExponent m q) 17 0).strip 20

end AccountGate.Decimal
