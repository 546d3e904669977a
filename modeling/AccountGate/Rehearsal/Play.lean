import AccountGate.Rehearsal.Stage

/-!
Playing programs on a stage, one at a time: each goes on until it waits, gives way or ends. Whoever
waits for a thing gets it in the order of asking.
-/

namespace AccountGate.Rehearsal

/-- A running program; `delay` is the number of turns that it gives way. -/
structure Task (α : Type) where
  id : Nat
  delay : Nat := 0
  program : Account.Program (Option α)

/-- How a program ended, and the session at that moment. -/
structure Ending (α : Type) where
  id : Nat
  result : Option α
  session : Account.Session

/-- The stage, the programs that can go on, those that wait, and those that have ended. -/
structure Cast (α : Type) where
  stage : Stage
  ready : List (Task α)
  waiting : List (Task α)
  ended : List (Ending α)

namespace Cast

/-- Brings spawned jobs in. -/
def enter (cfg : Account.Config) (c : Cast α) : Cast α :=
  let jobs := c.stage.spawned.map fun (id, job) =>
    { id, program := (Account.Program.ofJob cfg job).bind fun _ => .done none : Task α }
  { c with stage := { c.stage with spawned := [] }, ready := c.ready ++ jobs }

/-- Gives those who wait what has become free. -/
def wake (c : Cast α) : List (Task α) → Cast α
  | [] => c
  | t :: rest =>
    match t.program with
    | .done _ => wake { c with ready := c.ready ++ [t] } rest
    | .ask call next =>
      match c.stage.perform call with
      | .wait => wake { c with waiting := c.waiting ++ [t] } rest
      | .reply r delay stage =>
        wake { c with stage, ready := c.ready ++ [{ t with program := next r, delay }] } rest

/-- One turn of the first program that can go on. -/
def turn (cfg : Account.Config) (c : Cast α) : Cast α :=
  match c.ready with
  | [] => c
  | t :: rest =>
    if 0 < t.delay then { c with ready := rest ++ [{ t with delay := t.delay - 1 }] }
    else match t.program with
      | .done result =>
        let ended := c.ended ++ [⟨t.id, result, c.stage.shared.session⟩]
        let stage := { c.stage with finished := t.id :: c.stage.finished }
        wake { c with stage, ready := rest, waiting := [], ended } c.waiting
      | .ask call next =>
        match c.stage.perform call with
        | .wait => { c with ready := rest, waiting := c.waiting ++ [t] }
        | .reply r delay stage =>
          let t := { t with program := next r, delay }
          let ready := if delay = 0 then t :: rest else rest ++ [t]
          let c := wake { c with stage, ready, waiting := [] } c.waiting
          enter cfg c

/-- Goes on until nobody can, or so many turns have been taken. -/
def run (cfg : Account.Config) : Nat → Cast α → Cast α
  | 0, c => c
  | turns + 1, c => if c.ready.isEmpty then c else run cfg turns (turn cfg c)

end Cast

/-- More turns than any script takes. -/
def maxTurns : Nat := 1000000

/-- Plays programs that start together; the results are in the order of the programs. -/
def playAll (cfg : Account.Config) (s : Stage) (ps : List (Account.Program α)) :
    List (Option (α × Account.Session)) × Stage :=
  let tasks := ps.mapIdx fun i p =>
    { id := s.tasks + i, program := p.bind fun a => .done (some a) : Task α }
  let start : Cast α :=
    ⟨{ s with tasks := s.tasks + ps.length }, tasks, [], []⟩
  let last := Cast.run cfg maxTurns start
  let resultOf (t : Task α) : Option (α × Account.Session) := do
    let ending ← last.ended.find? fun e => e.id == t.id
    return (← ending.result, ending.session)
  (tasks.map resultOf, last.stage)

/-- Plays a program, and the jobs that it starts, to their ends. -/
def play (cfg : Account.Config) (s : Stage) (p : Account.Program α) :
    Option (α × Account.Session) × Stage :=
  let (results, s) := playAll cfg s [p]
  (results.head?.join, s)

end AccountGate.Rehearsal
