import AccountGate.Proofs.Flow.World

/-!
The calls that a program makes, whatever is replied. Main statement: in every run of many tasks the
calls of one are those along its own path, and the one that it waits at.
-/

namespace AccountGate

variable {I : Interface} {σ ι α β : Type} {P : I.Call → Prop}

namespace Flow

/-- Some replies bring a program to a call. -/
def Comes (p : Flow I α) (c : I.Call) : Prop := ∃ xs next, Path p xs (.ask c next)

theorem comes_ask_iff {c d : I.Call} {next : I.Reply c → Flow I α} :
    Comes (.ask c next) d ↔ d = c ∨ ∃ r, Comes (next r) d := by
  constructor
  · rintro ⟨xs, next', h⟩
    rcases path_ask_iff.mp h with ⟨_, hq⟩ | ⟨r, rest, _, hrest⟩
    · exact .inl (Flow.ask.inj hq).1
    · exact .inr ⟨r, rest, next', hrest⟩
  · rintro (rfl | ⟨r, xs, next', h⟩)
    · exact ⟨[], next, .nil _⟩
    · exact ⟨⟨c, r⟩ :: xs, next', .cons r h⟩

/-- A program all of whose calls are as `P` says. -/
def Makes (P : I.Call → Prop) : Flow I α → Prop
  | .done _ => True
  | .ask c next => P c ∧ ∀ r, Makes P (next r)

theorem makes_done (a : α) : Makes P (.done a : Flow I α) := trivial

theorem Makes.bind {p : Flow I α} {f : α → Flow I β} (hp : Makes P p) (hf : ∀ a, Makes P (f a)) :
    Makes P (p.bind f) := by
  induction p with
  | done a => exact hf a
  | ask c next ih => exact ⟨hp.1, fun r => ih r (hp.2 r)⟩

theorem Makes.mono {Q : I.Call → Prop} {p : Flow I α} (h : Makes P p) (hPQ : ∀ c, P c → Q c) :
    Makes Q p := by
  induction p with
  | done a => trivial
  | ask c next ih => exact ⟨hPQ c h.1, fun r => ih r (h.2 r)⟩

/-- A program in place of each call. -/
theorem Makes.expand {J : Interface} {Q : J.Call → Prop} {f : (c : I.Call) → Flow J (I.Reply c)}
    {p : Flow I α} (h : Makes P p) (hf : ∀ c, P c → Makes Q (f c)) : Makes Q (p.expand f) := by
  induction p with
  | done a => trivial
  | ask c next ih => exact (hf c h.1).bind fun r => ih r (h.2 r)

/-- What is left of such a program is such a program, and so was all that it did. -/
theorem Makes.path {p q : Flow I α} {xs : List (Exchange I)} (hp : Makes P p) (h : Path p xs q) :
    Makes P q ∧ ∀ x ∈ xs, P x.call := by
  induction h with
  | nil p => exact ⟨hp, fun _ hx => absurd hx List.not_mem_nil⟩
  | @cons c next rest q r _ ih =>
    obtain ⟨hq, hrest⟩ := ih (hp.2 r)
    exact ⟨hq, List.forall_mem_cons.mpr ⟨hp.1, hrest⟩⟩

/-- The call that a program is at. -/
def head? : Flow I α → Option I.Call
  | .done _ => none
  | .ask c _ => some c

end Flow

/-- The call that a task waits at. -/
def Task.call? : Task I α → Option I.Call
  | .running _ => none
  | .waiting c _ => some c

theorem Task.call?_eq_some {t : Task I α} {c : I.Call} (h : t.call? = some c) :
    t.program.head? = some c := by
  cases t with
  | running p => exact absurd h (by simp [call?])
  | waiting d next => exact h

namespace World

variable [DecidableEq ι] {step : σ → (c : I.Call) → Outcome σ (I.Reply c)} {w₀ w : World I σ ι α}
  {log : Trace I ι} {p : ι → Flow I α}

/-- The calls that one task has made, the first first. -/
def callsBy (i : ι) (log : Trace I ι) : List I.Call :=
  log.filterMap fun e => if e.1 = i then e.2.call? else none

theorem callsBy_snoc (i j : ι) (log : Trace I ι) (e : Event I) :
    callsBy i (log ++ [(j, e)]) = callsBy i log ++ if j = i then e.call?.toList else [] := by
  by_cases h : j = i
  · cases hc : e.call? <;> simp [callsBy, h, hc]
  · simp [callsBy, h]

/-- The calls of a task are those that it got replies to, and the one that it waits at. -/
theorem Reaches.callsBy_eq (h : Reaches step w₀ log w) (hp : ∀ i, w₀.task i = .running (p i))
    (i : ι) :
    callsBy i log = (repliesTo i log).map Exchange.call ++ (w.task i).call?.toList := by
  induction h with
  | start =>
    rw [hp i]
    rfl
  | @step log w e w' _ hs ih =>
    obtain ⟨j, e⟩ := e
    rw [callsBy_snoc, repliesTo_append, repliesTo_singleton, ih]
    by_cases hj : j = i
    · subst hj
      rw [if_pos rfl, if_pos rfl]
      cases hs with
      | inner ht hr => simp [set_task_self, ht, Task.call?, Event.call?, Event.reply?]
      | asked ht hr => simp [set_task_self, ht, Task.call?, Event.call?, Event.reply?]
      | answered r ht => simp [set_task_self, ht, Task.call?, Event.call?, Event.reply?]
    · rw [if_neg hj, if_neg hj, hs.task_of_ne (Ne.symm hj)]
      simp

/-- All calls of a task in a run. -/
theorem Reaches.makes (h : Reaches step w₀ log w) (hp : ∀ i, w₀.task i = .running (p i)) {i : ι}
    (hi : Flow.Makes P (p i)) : ∀ c ∈ callsBy i log, P c := by
  obtain ⟨hleft, hdone⟩ := hi.path (h.path hp i)
  rw [h.callsBy_eq hp i]
  intro c hc
  rcases List.mem_append.mp hc with hmem | hmem
  · obtain ⟨x, hx, rfl⟩ := List.mem_map.mp hmem
    exact hdone x hx
  · have hhead := Task.call?_eq_some (Option.mem_toList.mp hmem)
    generalize (w.task i).program = q at hleft hhead
    cases q with
    | done a => exact absurd hhead (by simp [Flow.head?])
    | ask d next =>
      obtain rfl := Option.some.inj hhead
      exact hleft.1

/-- What all calls of the programs keep holds in every world that is reached. -/
theorem Reaches.keeps {Inv : σ → Prop} (h : Reaches step w₀ log w)
    (hp : ∀ i, w₀.task i = .running (p i)) (hmakes : ∀ i, Flow.Makes P (p i)) (hstart : Inv w₀.state)
    (hkeep : ∀ {s c r s'}, P c → Inv s → step s c = .reply r s' → Inv s') : Inv w.state := by
  induction h with
  | start => exact hstart
  | @step log w e w' hreach hs ih =>
    cases hs with
    | @inner i c next r s' ht hr =>
      have hleft := ((hmakes i).path (hreach.path hp i)).1
      rw [ht] at hleft
      exact hkeep hleft.1 ih hr
    | asked ht hr => exact ih
    | answered r ht => exact ih

end World

end AccountGate
