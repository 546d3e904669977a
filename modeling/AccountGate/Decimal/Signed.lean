/-!
Decimal texts of signed 64-bit numbers.
-/

namespace AccountGate.Decimal

def minInt64 : Int := -9223372036854775808
def maxInt64 : Int := 9223372036854775807

def fits64 (n : Int) : Bool := minInt64 ≤ n && n ≤ maxInt64

def digit? (c : Char) : Option Nat := if '0' ≤ c ∧ c ≤ '9' then some (c.toNat - 48) else none

/-- The number that digits alone write. -/
def natFrom (acc : Nat) : List Char → Option Nat
  | [] => some acc
  | c :: rest => match digit? c with
    | some d => natFrom (acc * 10 + d) rest
    | none => none

/-- At least one digit. -/
def readNat? (cs : List Char) : Option Nat := if cs.isEmpty then none else natFrom 0 cs

/-- An optional sign and at least one digit, within 64 bits. -/
def readInt64? (text : String) : Option Int := do
  let n ← match text.toList with
    | '+' :: rest => (readNat? rest).map Int.ofNat
    | '-' :: rest => (readNat? rest).map fun n => -(n : Int)
    | cs => (readNat? cs).map Int.ofNat
  guard (fits64 n)
  return n

end AccountGate.Decimal
