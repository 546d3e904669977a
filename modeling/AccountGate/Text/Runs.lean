/-!
Tables of characters: runs of numbers in ascending order, looked up by halving.
-/

namespace AccountGate.Text

/-- The place between `low` and `high` that `side` takes for the right one; `lt` sends the search
to lower places and `gt` to higher ones, and `fuel` bounds the halvings. -/
def searchBetween (side : Nat → Ordering) : Nat → Nat → Nat → Option Nat
  | 0, _, _ => none
  | fuel + 1, low, high =>
    if low < high then
      let middle := (low + high) / 2
      match side middle with
      | .lt => searchBetween side fuel low middle
      | .gt => searchBetween side fuel (middle + 1) high
      | .eq => some middle
    else none

/-- Where a number lies as seen from a run. -/
def sideOf (n first last : Nat) : Ordering :=
  if n < first then .lt else if last < n then .gt else .eq

/-- Whether a number lies in one of the runs. -/
def inRuns (runs : Array (Nat × Nat)) (n : Nat) : Bool :=
  let side (i : Nat) : Ordering := let (first, last) := runs.getD i (0, 0); sideOf n first last
  (searchBetween side (runs.size + 1) 0 runs.size).isSome

/-- The run that a number lies in, with its value. -/
def runAt? {α : Type} (runs : Array (Nat × Nat × α)) (n : Nat) : Option (Nat × Nat × α) := do
  let side (i : Nat) : Ordering :=
    match runs[i]? with
    | some (first, last, _) => sideOf n first last
    | none => .lt
  runs[← searchBetween side (runs.size + 1) 0 runs.size]?

/-- The value of the run that a number lies in. -/
def runValue? {α : Type} (runs : Array (Nat × Nat × α)) (n : Nat) : Option α :=
  (runAt? runs n).map fun run => run.2.2

end AccountGate.Text
