import AccountGate.Proofs.Flow.Alone
import Mathlib.Logic.Function.Basic

/-!
Tasks that share their surroundings. A step is one call of one task: the surroundings answer it, or
it is put outside, or the reply to it comes; a call that must wait is no step. Main statements: a
task goes down its own program along the replies that it got; and what holds at the start and is
kept by each step holds after every trace.
-/

namespace AccountGate

variable {I : Interface} {σ ι α : Type}

namespace Flow

/-- `Path p xs q`: after the replies `xs` what is left of `p` is `q`. -/
inductive Path : Flow I α → List (Exchange I) → Flow I α → Prop
  | nil (p : Flow I α) : Path p [] p
  | cons {c next rest q} (r : I.Reply c) : Path (next r) rest q →
      Path (.ask c next) (⟨c, r⟩ :: rest) q

theorem Path.append {p q r : Flow I α} {xs ys : List (Exchange I)} (h : Path p xs q)
    (h' : Path q ys r) : Path p (xs ++ ys) r := by
  induction h with
  | nil p => exact h'
  | cons a _ ih => exact .cons a (ih h')

theorem path_done_iff {a : α} {xs : List (Exchange I)} {q : Flow I α} :
    Path (.done a) xs q ↔ xs = [] ∧ q = .done a := by
  constructor
  · intro h
    cases h with
    | nil => exact ⟨rfl, rfl⟩
  · rintro ⟨rfl, rfl⟩
    exact .nil _

theorem path_ask_iff {c : I.Call} {next : I.Reply c → Flow I α} {xs : List (Exchange I)}
    {q : Flow I α} : Path (.ask c next) xs q ↔
      (xs = [] ∧ q = .ask c next) ∨ ∃ r rest, xs = ⟨c, r⟩ :: rest ∧ Path (next r) rest q := by
  constructor
  · intro h
    cases h with
    | nil => exact .inl ⟨rfl, rfl⟩
    | cons r h => exact .inr ⟨r, _, rfl, h⟩
  · rintro (⟨rfl, rfl⟩ | ⟨r, rest, rfl, h⟩)
    · exact .nil _
    · exact .cons r h

/-- A path to the end goes by the reply to the first call. -/
theorem path_ask_done_iff {c : I.Call} {next : I.Reply c → Flow I α} {xs : List (Exchange I)}
    {a : α} : Path (.ask c next) xs (.done a) ↔
      ∃ r rest, xs = ⟨c, r⟩ :: rest ∧ Path (next r) rest (.done a) := by
  rw [path_ask_iff, or_iff_right]
  exact fun h => absurd h.2 (by simp)

/-- A path of two programs in a row: it has not left the first, or it has come to its end. -/
theorem Path.of_bind {β : Type} {p : Flow I α} {f : α → Flow I β} {xs : List (Exchange I)}
    {q : Flow I β} (h : Path (p.bind f) xs q) :
    (∃ c next, Path p xs (.ask c next) ∧ q = .ask c fun r => (next r).bind f) ∨
    ∃ a ys zs, xs = ys ++ zs ∧ Path p ys (.done a) ∧ Path (f a) zs q := by
  induction p generalizing xs with
  | done a => exact .inr ⟨a, [], xs, rfl, .nil _, h⟩
  | ask c next ih =>
    rcases path_ask_iff.mp h with ⟨rfl, rfl⟩ | ⟨r, rest, rfl, hrest⟩
    · exact .inl ⟨c, next, .nil _, rfl⟩
    · rcases ih r hrest with ⟨d, next', hp, rfl⟩ | ⟨a, ys, zs, rfl, hp, hq⟩
      · exact .inl ⟨d, next', .cons r hp, rfl⟩
      · exact .inr ⟨a, ⟨c, r⟩ :: ys, zs, rfl, .cons r hp, hq⟩

/-- A program whose result is only passed on. -/
theorem Path.of_bind_done {β : Type} {p : Flow I α} {f : α → β} {xs : List (Exchange I)}
    {q : Flow I β} (h : Path (p.bind fun a => .done (f a)) xs q) :
    ∃ p', Path p xs p' ∧ q = p'.bind fun a => .done (f a) := by
  induction xs generalizing p with
  | nil =>
    generalize hp : (p.bind fun a => .done (f a)) = whole at h
    cases h with
    | nil => exact ⟨p, .nil p, hp.symm⟩
  | cons x xs ih =>
    cases p with
    | done a =>
      obtain ⟨hxs, _⟩ := path_done_iff.mp h
      exact absurd hxs (by simp)
    | ask c next =>
      cases h with
      | cons r h =>
        obtain ⟨p', hp', hq⟩ := ih h
        exact ⟨p', .cons r hp', hq⟩

end Flow

/-- A task has the rest of its program before it, or waits for the reply to its first call. -/
inductive Task (I : Interface) (α : Type) where
  | running (p : Flow I α)
  | waiting (c : I.Call) (next : I.Reply c → Flow I α)

/-- What is left, whether its first call has been put outside or not. -/
def Task.program : Task I α → Flow I α
  | .running p => p
  | .waiting c next => .ask c next

inductive Event (I : Interface) where
  | inner (c : I.Call) (r : I.Reply c)
  | asked (c : I.Call)
  | answered (c : I.Call) (r : I.Reply c)

/-- The reply that a task got by an event. -/
def Event.reply? : Event I → Option (Exchange I)
  | .inner c r => some ⟨c, r⟩
  | .asked _ => none
  | .answered c r => some ⟨c, r⟩

/-- The call that a task made by an event. -/
def Event.call? : Event I → Option I.Call
  | .inner c _ => some c
  | .asked c => some c
  | .answered _ _ => none

/-- What happened, each event with its task. -/
abbrev Trace (I : Interface) (ι : Type) := List (ι × Event I)

structure World (I : Interface) (σ ι α : Type) where
  state : σ
  task : ι → Task I α

namespace World

variable [DecidableEq ι]

def set (w : World I σ ι α) (i : ι) (s : σ) (t : Task I α) : World I σ ι α :=
  ⟨s, Function.update w.task i t⟩

inductive Step (step : σ → (c : I.Call) → Outcome σ (I.Reply c)) :
    World I σ ι α → ι × Event I → World I σ ι α → Prop
  | inner {w i c next r s} : w.task i = .running (.ask c next) → step w.state c = .reply r s →
      Step step w (i, .inner c r) (w.set i s (.running (next r)))
  | asked {w i c next} : w.task i = .running (.ask c next) → step w.state c = .outside →
      Step step w (i, .asked c) (w.set i w.state (.waiting c next))
  | answered {w i c next} (r : I.Reply c) : w.task i = .waiting c next →
      Step step w (i, .answered c r) (w.set i w.state (.running (next r)))

/-- The worlds that are reached from one, each by a trace. -/
inductive Reaches (step : σ → (c : I.Call) → Outcome σ (I.Reply c)) (w₀ : World I σ ι α) :
    Trace I ι → World I σ ι α → Prop
  | start : Reaches step w₀ [] w₀
  | step {log w e w'} : Reaches step w₀ log w → Step step w e w' → Reaches step w₀ (log ++ [e]) w'

variable {step : σ → (c : I.Call) → Outcome σ (I.Reply c)} {w₀ w w' : World I σ ι α}
  {log : Trace I ι}

/-- The replies that one task got. -/
def repliesTo (i : ι) (log : Trace I ι) : List (Exchange I) :=
  log.filterMap fun e => if e.1 = i then e.2.reply? else none

theorem repliesTo_append (i : ι) (log more : Trace I ι) :
    repliesTo i (log ++ more) = repliesTo i log ++ repliesTo i more := by
  simp [repliesTo]

/-- Each reply to a task came by an event of the trace. -/
theorem split_of_repliesTo {i : ι} {x : Exchange I} {xs ys : List (Exchange I)}
    (h : repliesTo i log = xs ++ x :: ys) :
    ∃ before e after, log = before ++ (i, e) :: after ∧ e.reply? = some x ∧
      repliesTo i before = xs ∧ repliesTo i after = ys := by
  obtain ⟨before, rest, rfl, hxs, hrest⟩ := List.filterMap_eq_append_iff.mp h
  obtain ⟨skipped, ⟨j, e⟩, after, rfl, hskipped, he, hys⟩ := List.filterMap_eq_cons_iff.mp hrest
  -- What was skipped brought no reply to this task, so it goes to the front.
  have hj : j = i := by
    by_contra hne
    exact absurd he (by simp [hne])
  subst hj
  refine ⟨before ++ skipped, e, after, by simp, by simpa using he, ?_, hys⟩
  have hnone : repliesTo j skipped = [] := List.filterMap_eq_nil_iff.mpr hskipped
  rw [repliesTo_append, hnone, List.append_nil]
  exact hxs

theorem mem_repliesTo {i : ι} {e : Event I} {x : Exchange I} (h : (i, e) ∈ log)
    (he : e.reply? = some x) : x ∈ repliesTo i log := by
  rw [repliesTo, List.mem_filterMap]
  exact ⟨(i, e), h, by simpa using he⟩

theorem set_task_self (w : World I σ ι α) (i : ι) (s : σ) (t : Task I α) :
    (w.set i s t).task i = t := by
  simp [set]

theorem set_task_of_ne (w : World I σ ι α) {i j : ι} (h : j ≠ i) (s : σ) (t : Task I α) :
    (w.set i s t).task j = w.task j := by
  simp [set, h]

theorem repliesTo_singleton (i j : ι) (e : Event I) :
    repliesTo i [(j, e)] = if j = i then e.reply?.toList else [] := by
  by_cases h : j = i
  · cases hr : e.reply? <;> simp [repliesTo, h, hr]
  · simp [repliesTo, h]

theorem Step.task_of_ne {i j : ι} {e : Event I} (hs : Step step w (j, e) w') (h : i ≠ j) :
    w'.task i = w.task i := by
  cases hs with
  | inner ht hr => exact set_task_of_ne w h _ _
  | asked ht hr => exact set_task_of_ne w h _ _
  | answered r ht => exact set_task_of_ne w h _ _

theorem Step.path {j : ι} {e : Event I} (hs : Step step w (j, e) w') :
    Flow.Path (w.task j).program e.reply?.toList (w'.task j).program := by
  cases hs with
  | inner ht hr =>
    rw [set_task_self, ht]
    exact .cons _ (.nil _)
  | asked ht hr =>
    rw [set_task_self, ht]
    exact .nil _
  | answered r ht =>
    rw [set_task_self, ht]
    exact .cons _ (.nil _)

/-- Before each event of a trace there was a world in which it could happen. -/
theorem Reaches.split {before after : Trace I ι} {e : ι × Event I}
    (h : Reaches step w₀ (before ++ e :: after) w) :
    ∃ w₁ w₂, Reaches step w₀ before w₁ ∧ Step step w₁ e w₂ := by
  generalize hlog : before ++ e :: after = log at h
  induction h generalizing after with
  | start => exact absurd hlog (by simp)
  | @step log w e' w' h hs ih =>
    -- The last step is the event itself, or lies after it.
    rcases List.eq_nil_or_concat after with rfl | ⟨rest, last, rfl⟩
    · obtain ⟨rfl, heq⟩ := List.append_inj' hlog rfl
      obtain rfl := List.head_eq_of_cons_eq heq
      exact ⟨w, w', h, hs⟩
    · have hcut : (before ++ e :: rest) ++ [last] = log ++ [e'] := by
        rw [← hlog]
        simp
      exact ih (List.append_inj' hcut rfl).1

/-- A task is left alone by the others. -/
theorem Reaches.task_of_ne {i : ι} (h : Reaches step w log w') (hlog : ∀ e ∈ log, e.1 ≠ i) :
    w'.task i = w.task i := by
  induction h with
  | start => rfl
  | @step log u e u' _ hs ih =>
    obtain ⟨j, e⟩ := e
    have hj : j ≠ i := hlog (j, e) (by simp)
    rw [hs.task_of_ne (Ne.symm hj)]
    exact ih fun e he => hlog e (List.mem_append_left _ he)

theorem Reaches.trans {more : Trace I ι} (h : Reaches step w₀ log w) (h' : Reaches step w more w') :
    Reaches step w₀ (log ++ more) w' := by
  induction h' with
  | start => simpa using h
  | step _ hs ih =>
    rw [← List.append_assoc]
    exact .step ih hs

/-- What every step keeps holds in every world that is reached. -/
theorem Reaches.invariant (h : Reaches step w₀ log w) (Inv : σ → Prop) (hstart : Inv w₀.state)
    (hkeep : ∀ {s c r s'}, Inv s → step s c = .reply r s' → Inv s') : Inv w.state := by
  induction h with
  | start => exact hstart
  | step _ hs ih =>
    cases hs with
    | inner ht hr => exact hkeep ih hr
    | asked ht hr => exact ih
    | answered r ht => exact ih

/-- A task goes down its own program. -/
theorem Reaches.path {p : ι → Flow I α} (h : Reaches step w₀ log w)
    (hp : ∀ i, w₀.task i = .running (p i)) (i : ι) :
    Flow.Path (p i) (repliesTo i log) (w.task i).program := by
  induction h with
  | start =>
    rw [hp i]
    exact .nil (p i)
  | @step log w e w' _ hs ih =>
    obtain ⟨j, e⟩ := e
    rw [repliesTo_append, repliesTo_singleton]
    by_cases hj : j = i
    · subst hj
      rw [if_pos rfl]
      exact ih.append hs.path
    · rw [if_neg hj, List.append_nil, hs.task_of_ne (Ne.symm hj)]
      exact ih

/-- A task waits only for what the surroundings leave to the outside. -/
theorem Reaches.outside_of_waiting {p : ι → Flow I α} (h : Reaches step w₀ log w)
    (hp : ∀ i, w₀.task i = .running (p i)) {i : ι} {c : I.Call}
    {next : I.Reply c → Flow I α} (ht : w.task i = .waiting c next) :
    ∃ s, step s c = .outside := by
  induction h generalizing c next with
  | start =>
    rw [hp i] at ht
    exact absurd ht (by simp)
  | @step log w e w' _ hs ih =>
    obtain ⟨j, e⟩ := e
    by_cases hj : i = j
    · subst hj
      cases hs with
      | inner ht' hr =>
        rw [set_task_self] at ht
        exact absurd ht (by simp)
      | asked ht' hr =>
        rw [set_task_self] at ht
        obtain ⟨rfl, _⟩ := Task.waiting.inj ht
        exact ⟨w.state, hr⟩
      | answered r ht' =>
        rw [set_task_self] at ht
        exact absurd ht (by simp)
    · rw [hs.task_of_ne hj] at ht
      exact ih ht

/-- Each reply came from the surroundings, or to a call that they leave to the outside. -/
theorem Reaches.origin {p : ι → Flow I α} (h : Reaches step w₀ log w)
    (hp : ∀ i, w₀.task i = .running (p i)) {i : ι} {c : I.Call} {r : I.Reply c}
    (hx : ⟨c, r⟩ ∈ repliesTo i log) :
    (∃ s s', step s c = .reply r s') ∨ ∃ s, step s c = .outside := by
  obtain ⟨xs, ys, hsplit⟩ := List.append_of_mem hx
  obtain ⟨before, e, after, rfl, he, _, _⟩ := split_of_repliesTo hsplit
  obtain ⟨w₁, w₂, hreach, hs⟩ := h.split
  cases hs with
  | inner ht hr =>
    cases he
    exact .inl ⟨_, _, hr⟩
  | asked ht hr => exact absurd he (by simp [Event.reply?])
  | answered r' ht =>
    cases he
    exact .inr (hreach.outside_of_waiting hp ht)

/-- A reply that cannot come from outside was that of the surroundings when it came. -/
theorem Reaches.replied {p : ι → Flow I α} (h : Reaches step w₀ log w)
    (hp : ∀ i, w₀.task i = .running (p i)) {i : ι} {c : I.Call} {r : I.Reply c}
    {xs ys : List (Exchange I)} (hx : repliesTo i log = xs ++ ⟨c, r⟩ :: ys)
    (hc : ∀ s, step s c ≠ .outside) :
    ∃ front back u s, log = front ++ (i, .inner c r) :: back ∧ repliesTo i front = xs ∧
      Reaches step w₀ front u ∧ step u.state c = .reply r s := by
  obtain ⟨front, e, back, rfl, he, hxs, -⟩ := split_of_repliesTo hx
  obtain ⟨u, u', hreach, hs⟩ := h.split
  cases hs with
  | inner ht hr =>
    cases he
    exact ⟨front, back, u, _, rfl, hxs, hreach, hr⟩
  | asked ht hr => exact absurd he (by simp [Event.reply?])
  | answered r' ht =>
    cases he
    obtain ⟨s, hs⟩ := hreach.outside_of_waiting hp ht
    exact absurd hs (hc s)

end World

end AccountGate
