/-!
The ASCII form of labels with other characters: each of these becomes a distance from the one
before it, in the order of their numbers, written in digits of base 36 of which the thresholds adapt.
-/

namespace AccountGate.Url.Punycode

def digit (n : Nat) : Char := if n < 26 then Char.ofNat (97 + n) else Char.ofNat (22 + n)

def value? (c : Char) : Option Nat :=
  if 'a' ≤ c ∧ c ≤ 'z' then some (c.toNat - 97)
  else if 'A' ≤ c ∧ c ≤ 'Z' then some (c.toNat - 65)
  else if '0' ≤ c ∧ c ≤ '9' then some (c.toNat - 22)
  else none

def threshold (k bias : Nat) : Nat :=
  if k ≤ bias + 1 then 1 else if bias + 26 ≤ k then 26 else k - bias

theorem threshold_pos (k bias : Nat) : 1 ≤ threshold k bias := by
  unfold threshold
  split
  · omega
  · split <;> omega

def shrink (delta k : Nat) : Nat × Nat :=
  if 455 < delta then shrink (delta / 35) (k + 36) else (k, delta)
termination_by delta
decreasing_by omega

/-- The bias after a distance, `count` characters being written. -/
def adapt (delta count : Nat) (first : Bool) : Nat :=
  let scaled := if first then delta / 700 else delta / 2
  let (k, delta) := shrink (scaled + scaled / count) 0
  k + 36 * delta / (delta + 38)

def writeDigits (bias k q : Nat) : List Char :=
  let t := threshold k bias
  if q < t then [digit q]
  else digit (t + (q - t) % (36 - t)) :: writeDigits bias (k + 36) ((q - t) / (36 - t))
termination_by q
decreasing_by
  have := threshold_pos k bias
  exact Nat.lt_of_le_of_lt (Nat.div_le_self _ _) (by omega)

structure Writer where
  out : List Char
  delta : Nat
  bias : Nat
  count : Nat

def writeChar (basic point : Nat) (w : Writer) (c : Char) : Writer :=
  if c.toNat < point then { w with delta := w.delta + 1 }
  else if c.toNat = point then
    { out := w.out ++ writeDigits w.bias 36 w.delta
      delta := 0
      bias := adapt w.delta (w.count + 1) (w.count == basic)
      count := w.count + 1 }
  else w

def writePoint (basic : Nat) (label : List Char) (s : Writer × Nat) (point : Nat) :
    Writer × Nat :=
  let w := { s.1 with delta := s.1.delta + (point - s.2) * (s.1.count + 1) }
  let w := label.foldl (writeChar basic point) w
  ({ w with delta := w.delta + 1 }, point + 1)

def encode (label : List Char) : List Char :=
  let basic := label.filter fun c => c.toNat < 128
  let points := ((label.map Char.toNat).filter fun n => 128 ≤ n).mergeSort.eraseDups
  let start : Writer := ⟨if basic.isEmpty then [] else basic ++ ['-'], 0, 72, basic.length⟩
  (points.foldl (writePoint basic.length label) (start, 128)).1.out

/-- Places and weights are numbers below this one. -/
def bound : Nat := 4294967296

/-- One distance from the front: the place after it, and the rest. -/
def readDigits (bias : Nat) (i weight k : Nat) : List Char → Option (Nat × List Char)
  | [] => none
  | c :: rest => do
    let d ← value? c
    let i := i + d * weight
    let t := threshold k bias
    guard (i < bound)
    if d < t then return (i, rest)
    else do
      guard (weight * (36 - t) < bound)
      readDigits bias i (weight * (36 - t)) (k + 36) rest

def readPoints (out : List Char) (n i bias : Nat) : Nat → List Char → Option (List Char)
  | _, [] => some out
  | 0, _ => none
  | fuel + 1, cs => do
    let (place, rest) ← readDigits bias i 1 36 cs
    let count := out.length + 1
    let bias := adapt (place - i) count (i == 0 && n == 128)
    let n := n + place / count
    let i := place % count
    guard n.isValidChar
    readPoints (out.take i ++ Char.ofNat n :: out.drop i) n (i + 1) bias fuel rest

/-- The characters before the last hyphen are themselves, the rest are distances; a hyphen that has
nothing before it is none of either. -/
def decode? (label : List Char) : Option (List Char) :=
  let tail := (label.reverse.takeWhile (· != '-')).reverse
  let basic := label.take (label.length - tail.length - 1)
  if basic.isEmpty then readPoints [] 128 0 72 (label.length + 1) label
  else readPoints basic 128 0 72 (label.length + 1) tail

end AccountGate.Url.Punycode
