import AccountGate.Proofs.Flow.Calls

/-!
Rules of conduct. A conduct says which calls a program may make where it stands, which replies can
come to it there, and where it stands after them. Each program is checked against it once. Main
statement: what the surroundings keep under every call that is allowed holds in every run of such
programs, however many run at once.
-/

namespace AccountGate

/-- What programs may do from where they stand, and where that leads them. -/
structure Conduct (I : Interface) where
  Stage : Type
  Allows : Stage → I.Call → Prop
  /-- The replies that can come there. -/
  Expects : Stage → (c : I.Call) → I.Reply c → Prop
  after : Stage → (c : I.Call) → I.Reply c → Stage

namespace Conduct

variable {I : Interface} {α β σ ι : Type} {k k' : Conduct I}

/-- A program that keeps to a conduct from where it stands, and ends as described. -/
def Leads (k : Conduct I) (Q : α → k.Stage → Prop) : k.Stage → Flow I α → Prop
  | s, .done a => Q a s
  | s, .ask c next => k.Allows s c ∧ ∀ r, k.Expects s c r → Leads k Q (k.after s c r) (next r)

variable {Q Q' : α → k.Stage → Prop} {s : k.Stage}

theorem leads_bind {R : β → k.Stage → Prop} {p : Flow I α} {f : α → Flow I β} :
    k.Leads R s (p.bind f) ↔ k.Leads (fun a s => k.Leads R s (f a)) s p := by
  induction p generalizing s with
  | done a => exact Iff.rfl
  | ask c next ih => exact and_congr_right fun _ => forall₂_congr fun r _ => ih r

theorem Leads.mono {p : Flow I α} (h : k.Leads Q s p) (hQ : ∀ a s, Q a s → Q' a s) :
    k.Leads Q' s p := by
  induction p generalizing s with
  | done a => exact hQ a s h
  | ask c next ih => exact ⟨h.1, fun r hr => ih r (h.2 r hr)⟩

theorem Leads.bind {R : β → k.Stage → Prop} {p : Flow I α} {f : α → Flow I β}
    (hp : k.Leads Q s p) (hf : ∀ a s, Q a s → k.Leads R s (f a)) : k.Leads R s (p.bind f) :=
  leads_bind.mpr (hp.mono hf)

/-- Calls that are allowed there and lead nowhere. -/
theorem leads_of_makes {p : Flow I α}
    (h : Flow.Makes (fun c => k.Allows s c ∧ ∀ r, k.after s c r = s) p) :
    k.Leads (fun _ s' => s' = s) s p := by
  induction p with
  | done a => rfl
  | ask c next ih =>
    refine ⟨h.1.1, fun r _ => ?_⟩
    rw [h.1.2 r]
    exact ih r (h.2 r)

/-- So does what is left of a program that has got such replies as can come anywhere. -/
theorem Leads.of_expected {p q : Flow I α} {xs : List (Exchange I)} (h : k.Leads Q s p)
    (hpath : Flow.Path p xs q) (hx : ∀ x ∈ xs, ∀ t, k.Expects t x.call x.reply) :
    ∃ t, k.Leads Q t q := by
  induction hpath generalizing s with
  | nil p => exact ⟨s, h⟩
  | cons r _ ih =>
    obtain ⟨hfirst, hrest⟩ := List.forall_mem_cons.mp hx
    exact ih (h.2 r (hfirst s)) hrest

/-- Programs in place of calls, each of which stays where it is. -/
theorem leads_expand {J : Interface} {f : (c : J.Call) → Flow I (J.Reply c)} {p : Flow J α}
    (hf : ∀ c, k.Leads (fun _ s' => s' = s) s (f c)) :
    k.Leads (fun _ s' => s' = s) s (p.expand f) := by
  induction p with
  | done a => rfl
  | ask c next ih =>
    refine (hf c).bind fun r s' hs' => ?_
    rw [hs']
    exact ih r

/-- Two conducts side by side: a program keeps to the one or to the other. -/
def sum (k k' : Conduct I) : Conduct I where
  Stage := k.Stage ⊕ k'.Stage
  Allows := Sum.elim k.Allows k'.Allows
  Expects := Sum.elim k.Expects k'.Expects
  after s c r := s.map (k.after · c r) (k'.after · c r)

theorem Leads.inl {p : Flow I α} (h : k.Leads Q s p) :
    (k.sum k').Leads (fun a s => ∃ s', s = .inl s' ∧ Q a s') (.inl s) p := by
  induction p generalizing s with
  | done a => exact ⟨s, rfl, h⟩
  | ask c next ih => exact ⟨h.1, fun r hr => ih r (h.2 r hr)⟩

theorem Leads.inr {Q : α → k'.Stage → Prop} {s : k'.Stage} {p : Flow I α} (h : k'.Leads Q s p) :
    (k.sum k').Leads (fun a s => ∃ s', s = .inr s' ∧ Q a s') (.inr s) p := by
  induction p generalizing s with
  | done a => exact ⟨s, rfl, h⟩
  | ask c next ih => exact ⟨h.1, fun r hr => ih r (h.2 r hr)⟩

section Runs

variable [DecidableEq ι]

/-- Where the tasks stand in one respect when one of them moves on in others. -/
theorem update_same {S : Type} (f : S → β) (st : ι → S) (i : ι) :
    Function.update (fun j => f (st j)) i (f (st i)) = fun j => f (st j) :=
  Function.update_eq_self i _

/-- Where the tasks stand in one respect after one of them has moved on in it. -/
theorem proj_update_self {S : Type} (f : S → β) (st : ι → S) (i : ι) (t : S) :
    (fun j => f (Function.update st i t j)) = Function.update (fun j => f (st j)) i (f t) :=
  funext (Function.apply_update (fun _ => f) st i t)

/-- `Inv` holds of what has happened, of where the tasks stand and of the surroundings; it is kept
by every step of a task that keeps to the conduct, as long as what happens is fair. -/
structure Keeps (k : Conduct I) (step : σ → (c : I.Call) → Outcome σ (I.Reply c))
    (Fair : Trace I ι → σ → ι × Event I → Prop)
    (Inv : Trace I ι → (ι → k.Stage) → σ → Prop) : Prop where
  inner : ∀ {log st s i c r s'}, Inv log st s → k.Allows (st i) c → step s c = .reply r s' →
    Fair log s (i, .inner c r) → k.Expects (st i) c r ∧
      Inv (log ++ [(i, .inner c r)]) (Function.update st i (k.after (st i) c r)) s'
  asked : ∀ {log st s i c}, Inv log st s → k.Allows (st i) c → step s c = .outside →
    Inv (log ++ [(i, .asked c)]) st s
  answered : ∀ {log st s i c r}, Inv log st s → k.Allows (st i) c → (∃ v, step v c = .outside) →
    Fair log s (i, .answered c r) → k.Expects (st i) c r ∧
      Inv (log ++ [(i, .answered c r)]) (Function.update st i (k.after (st i) c r)) s

variable {step : σ → (c : I.Call) → Outcome σ (I.Reply c)}
  {Fair : Trace I ι → σ → ι × Event I → Prop} {Inv : Trace I ι → (ι → k.Stage) → σ → Prop}
  {w₀ w : World I σ ι α} {log : Trace I ι} {p : ι → Flow I α} {start : ι → k.Stage}
  {Q : ι → α → k.Stage → Prop}

/-- Every event of a run is fair. -/
def FairRun (step : σ → (c : I.Call) → Outcome σ (I.Reply c))
    (Fair : Trace I ι → σ → ι × Event I → Prop) (w₀ : World I σ ι α) (log : Trace I ι) : Prop :=
  ∀ before e after w w', log = before ++ e :: after → World.Reaches step w₀ before w →
    World.Step step w e w' → Fair before w.state e

theorem FairRun.of_snoc {e : ι × Event I} (h : FairRun step Fair w₀ (log ++ [e])) :
    FairRun step Fair w₀ log := by
  intro before e' after w w' hlog hreach hs
  exact h before e' (after ++ [e]) w w' (by rw [hlog]; simp) hreach hs

/-- The others stand where they stood. -/
theorem leads_update {st : ι → k.Stage} {i : ι} {s : k.Stage} (state : σ) {t : Task I α}
    (hothers : ∀ j, k.Leads (Q j) (st j) (w.task j).program)
    (hself : k.Leads (Q i) s t.program) (j : ι) :
    k.Leads (Q j) (Function.update st i s j) ((w.set i state t).task j).program := by
  by_cases hj : j = i
  · subst hj
    rw [World.set_task_self, Function.update_self]
    exact hself
  · rw [World.set_task_of_ne w hj, Function.update_of_ne hj]
    exact hothers j

/-- What every step keeps holds after every run. -/
theorem Keeps.of_reaches (hk : k.Keeps step Fair Inv) (h₀ : Inv [] start w₀.state)
    (hp : ∀ i, w₀.task i = .running (p i)) (hlead : ∀ i, k.Leads (Q i) (start i) (p i))
    (h : World.Reaches step w₀ log w) (hfair : FairRun step Fair w₀ log) :
    ∃ st, Inv log st w.state ∧ ∀ i, k.Leads (Q i) (st i) (w.task i).program := by
  induction h with
  | start =>
    refine ⟨start, h₀, fun i => ?_⟩
    rw [hp i]
    exact hlead i
  | @step log w e w' hreach hs ih =>
    obtain ⟨st, hinv, hleads⟩ := ih hfair.of_snoc
    have hnow : Fair log w.state e := hfair log e [] w w' rfl hreach hs
    cases hs with
    | @inner i c next r s ht hr =>
      have hself := hleads i
      rw [ht] at hself
      obtain ⟨hexpects, hkept⟩ := hk.inner hinv hself.1 hr hnow
      exact ⟨_, hkept, leads_update _ hleads (hself.2 r hexpects)⟩
    | @asked i c next ht hr =>
      have hself := hleads i
      rw [ht] at hself
      refine ⟨st, hk.asked hinv hself.1 hr, fun j => ?_⟩
      have hnext := leads_update w.state (t := .waiting c next) hleads hself j
      rwa [Function.update_eq_self] at hnext
    | @answered i c next r ht =>
      have hself := hleads i
      rw [ht] at hself
      obtain ⟨hexpects, hkept⟩ :=
        hk.answered hinv hself.1 (hreach.outside_of_waiting hp ht) hnow
      exact ⟨_, hkept, leads_update _ hleads (hself.2 r hexpects)⟩

end Runs

section Replies

/-- What a program may do depends on the replies that it has got. -/
def recounting (Allows : List (Exchange I) → I.Call → Prop) : Conduct I where
  Stage := List (Exchange I)
  Allows
  Expects _ _ _ := True
  after xs c r := xs ++ [⟨c, r⟩]

variable [DecidableEq ι] {Allows : List (Exchange I) → I.Call → Prop}
  {step : σ → (c : I.Call) → Outcome σ (I.Reply c)} {w₀ w : World I σ ι α} {log : Trace I ι}
  {p : ι → Flow I α} {Q : ι → α → List (Exchange I) → Prop}

/-- Calls that are allowed after any replies. -/
theorem leads_recounting {P : I.Call → Prop} {p : Flow I α} {xs : List (Exchange I)}
    (h : Flow.Makes P p) (hP : ∀ c xs, P c → Allows xs c) : (recounting Allows).Leads
      (fun _ ys => ∃ more, ys = xs ++ more ∧ ∀ x ∈ more, P x.call) xs p := by
  induction p generalizing xs with
  | done a => exact ⟨[], (List.append_nil xs).symm, fun _ hx => absurd hx List.not_mem_nil⟩
  | ask c next ih =>
    refine ⟨hP c xs h.1, fun r _ => (ih r (h.2 r)).mono fun _ ys hys => ?_⟩
    obtain ⟨more, rfl, hmore⟩ := hys
    exact ⟨⟨c, r⟩ :: more, List.append_assoc xs [⟨c, r⟩] more,
      List.forall_mem_cons.mpr ⟨h.1, hmore⟩⟩

/-- What is left of a program keeps to the rules after the replies that it got on the way. -/
theorem leads_of_path {R : α → List (Exchange I) → Prop} {p q : Flow I α}
    {xs ys : List (Exchange I)} (h : (recounting Allows).Leads R xs p) (hpath : Flow.Path p ys q) :
    (recounting Allows).Leads R (xs ++ ys) q := by
  induction hpath generalizing xs with
  | nil p =>
    rw [List.append_nil]
    exact h
  | @cons c next rest q r _ ih =>
    rw [List.append_cons]
    exact ih (h.2 r trivial)

/-- So does what is left of a task. -/
theorem leads_of_reaches (hlead : ∀ i, (recounting Allows).Leads (Q i) [] (p i))
    (h : World.Reaches step w₀ log w) (hp : ∀ i, w₀.task i = .running (p i)) (i : ι) :
    (recounting Allows).Leads (Q i) (World.repliesTo i log) (w.task i).program :=
  leads_of_path (hlead i) (h.path hp i)

end Replies

end Conduct

end AccountGate
