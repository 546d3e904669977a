/-!
Numeric addresses: four bytes in one to four numbers of base 8, 10 or 16, and eight words in
hexadecimal of which one run of zeros may be left out.
-/

namespace AccountGate.Url

def hexValueOf? (c : Char) : Option Nat :=
  if '0' ≤ c ∧ c ≤ '9' then some (c.toNat - 48)
  else if 'a' ≤ c ∧ c ≤ 'f' then some (c.toNat - 87)
  else if 'A' ≤ c ∧ c ≤ 'F' then some (c.toNat - 55)
  else none

def digitOf? (base : Nat) (c : Char) : Option Nat := (hexValueOf? c).filter (· < base)

def readDigits? (base : Nat) (cs : List Char) : Option Nat :=
  cs.foldlM (fun n c => (digitOf? base c).map (n * base + ·)) 0

namespace Ipv4

/-- One number; the bare sign of base 16 is zero. -/
def number? : List Char → Option Nat
  | [] => none
  | '0' :: 'x' :: digits => readDigits? 16 digits
  | '0' :: 'X' :: digits => readDigits? 16 digits
  | '0' :: d :: digits => readDigits? 8 (d :: digits)
  | digits => readDigits? 10 digits

def isDigits (part : List Char) : Bool := !part.isEmpty && part.all fun c => '0' ≤ c && c ≤ '9'

/-- Whether the last part makes the whole a numeric address. -/
def endsInNumber (parts : List (List Char)) : Bool :=
  let last? := match parts.reverse with
    | [] :: part :: _ => some part
    | [] :: [] => none
    | part :: _ => some part
    | [] => none
  match last? with
  | some part => isDigits part || (number? part).isSome
  | none => false

/-- The last number fills the bytes that the others leave. -/
def parse? (parts : List (List Char)) : Option Nat := do
  let parts := if parts.getLast? == some [] then parts.dropLast else parts
  guard (parts.length ≤ 4)
  let numbers ← parts.mapM number?
  let last ← numbers.getLast?
  let leading := numbers.dropLast
  guard (last < Nat.pow 256 (4 - leading.length) && leading.all (· < 256))
  return leading.foldl (fun n part => n * 256 + part) 0 * Nat.pow 256 (4 - leading.length) + last

def render (address : Nat) : List Char :=
  (String.intercalate "." ([16777216, 65536, 256, 1].map fun w =>
    toString (address / w % 256))).toList

end Ipv4

namespace Ipv6

/-- Four decimal numbers without leading zeros, as two words. -/
def readTail (cs : List Char) : Option (Nat × Nat) :=
  let rec number (acc : Option Nat) : List Char → Option (Nat × List Char)
    | [] => acc.map fun n => (n, [])
    | c :: rest =>
      match digitOf? 10 c with
      | none => acc.map fun n => (n, c :: rest)
      | some d =>
        match acc with
        | none => number (some d) rest
        | some 0 => none
        | some n => if n * 10 + d ≤ 255 then number (some (n * 10 + d)) rest else none
  let dot (cs : List Char) : Option (List Char) := match cs with
    | '.' :: rest => some rest
    | _ => none
  do
    let (a, rest) ← number none cs
    let (b, rest) ← number none (← dot rest)
    let (c, rest) ← number none (← dot rest)
    let (d, rest) ← number none (← dot rest)
    guard rest.isEmpty
    return (a * 256 + b, c * 256 + d)

/-- Up to four hexadecimal digits. -/
def readWord (cs : List Char) : Nat × List Char × Nat :=
  let digits := (cs.take 4).takeWhile fun c => (hexValueOf? c).isSome
  ((readDigits? 16 digits).getD 0, cs.drop digits.length, digits.length)

/-- The words read so far, and how many stood before the gap. -/
abbrev Words := List Nat × Option Nat

def readWords : Nat → Words → List Char → Option Words
  | _, state, [] => some state
  | 0, _, _ => none
  | fuel + 1, (words, gap), cs => do
    guard (words.length + (if gap.isSome then 1 else 0) < 8)
    match cs with
    | ':' :: rest => do
      guard gap.isNone
      readWords fuel (words, some words.length) rest
    | _ =>
      let (word, rest, size) := readWord cs
      match rest with
      | [] => readWords fuel (words ++ [word], gap) []
      | ':' :: rest => do
        guard (!rest.isEmpty)
        readWords fuel (words ++ [word], gap) rest
      | '.' :: _ => do
        guard (0 < size && words.length + (if gap.isSome then 1 else 0) ≤ 6)
        let (high, low) ← readTail cs
        return (words ++ [high, low], gap)
      | _ => none

/-- The eight words of an address. -/
def parse? (cs : List Char) : Option (List Nat) := do
  guard (2 ≤ cs.length)
  let (words, gap) ← match cs with
    | ':' :: ':' :: rest => readWords cs.length ([], some 0) rest
    | ':' :: _ => none
    | _ => readWords (cs.length + 1) ([], none) cs
  match gap with
  | none => do
    guard (words.length = 8)
    return words
  | some before => do
    guard (words.length < 8)
    return words.take before ++ List.replicate (8 - words.length) 0 ++ words.drop before

/-- The longest run of at least two zeros, the first of equals: its start and its length. -/
def longestGap (words : List Nat) : Option (Nat × Nat) :=
  let runs := (List.range words.length).map fun i => (i, ((words.drop i).takeWhile (· == 0)).length)
  let best := runs.foldl (fun b r => if r.2 > b.2 then r else b) (0, 0)
  if 2 ≤ best.2 then some best else none

def joined (words : List Nat) : String :=
  String.intercalate ":" (words.map fun w => String.ofList (Nat.toDigits 16 w))

def render (words : List Nat) : List Char :=
  match longestGap words with
  | none => (joined words).toList
  | some (start, size) =>
    (joined (words.take start) ++ "::" ++ joined (words.drop (start + size))).toList

end Ipv6

end AccountGate.Url
