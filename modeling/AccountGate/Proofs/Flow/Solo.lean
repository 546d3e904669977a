import AccountGate.Proofs.Flow.Calls

/-!
One task of many that goes on while the others stand still. Main statement: a run of a program by
itself is a run of the world in which only its task works; so runs of many tasks are put together
from those of single programs.
-/

namespace AccountGate

variable {I : Interface} {σ ι α β : Type}

namespace Flow

/-- `Solo step P p s a t` is a run of `p` from `s` to `t` that ends with `a`; all that it is replied
is as `P` says. -/
inductive Solo (step : σ → (c : I.Call) → Outcome σ (I.Reply c)) (P : (c : I.Call) → I.Reply c → Prop) :
    Flow I α → σ → α → σ → Prop
  | done (a : α) (s : σ) : Solo step P (.done a) s a s
  | inner {c next s r s' a t} : step s c = .reply r s' → P c r → Solo step P (next r) s' a t →
      Solo step P (.ask c next) s a t
  | outer {c next s a t} (r : I.Reply c) : step s c = .outside → P c r →
      Solo step P (next r) s a t → Solo step P (.ask c next) s a t

variable {step : σ → (c : I.Call) → Outcome σ (I.Reply c)} {P : (c : I.Call) → I.Reply c → Prop}
  {s t : σ} {a : α} {log : List (Exchange I)}

theorem Solo.bind {p : Flow I α} {f : α → Flow I β} {s t u : σ} {a : α} {b : β}
    (h : Solo step P p s a t) (h' : Solo step P (f a) t b u) : Solo step P (p.bind f) s b u := by
  induction h with
  | done a s => exact h'
  | inner hs hr _ ih => exact .inner hs hr (ih h')
  | outer r hs hr _ ih => exact .outer r hs hr (ih h')

theorem solo_done_iff {b : α} : Solo step P (.done a) s b t ↔ b = a ∧ t = s := by
  constructor
  · intro h
    cases h with
    | done => exact ⟨rfl, rfl⟩
  · rintro ⟨rfl, rfl⟩
    exact .done _ _

theorem solo_ask_of_reply {c : I.Call} {next : I.Reply c → Flow I α} {r : I.Reply c} {s' : σ}
    (hs : step s c = .reply r s') :
    Solo step P (.ask c next) s a t ↔ P c r ∧ Solo step P (next r) s' a t := by
  constructor
  · intro h
    cases h with
    | inner hs' hr h =>
      obtain ⟨rfl, rfl⟩ := Outcome.reply.inj (hs.symm.trans hs')
      exact ⟨hr, h⟩
    | outer r' hs' _ _ => exact absurd (hs.symm.trans hs') (by simp)
  · rintro ⟨hr, h⟩
    exact .inner hs hr h

theorem solo_ask_of_outside {c : I.Call} {next : I.Reply c → Flow I α} (hs : step s c = .outside) :
    Solo step P (.ask c next) s a t ↔ ∃ r, P c r ∧ Solo step P (next r) s a t := by
  constructor
  · intro h
    cases h with
    | inner hs' _ _ => exact absurd (hs.symm.trans hs') (by simp)
    | outer r _ hr h => exact ⟨r, hr, h⟩
  · rintro ⟨r, hr, h⟩
    exact .outer r hs hr h

theorem solo_bind_iff {p : Flow I α} {f : α → Flow I β} {b : β} :
    Solo step P (p.bind f) s b t ↔ ∃ a u, Solo step P p s a u ∧ Solo step P (f a) u b t := by
  constructor
  · intro h
    induction p generalizing s with
    | done a => exact ⟨a, s, .done a s, h⟩
    | ask c next ih =>
      cases h with
      | inner hs hr h =>
        obtain ⟨a, u, hfirst, hsecond⟩ := ih _ h
        exact ⟨a, u, .inner hs hr hfirst, hsecond⟩
      | outer r hs hr h =>
        obtain ⟨a, u, hfirst, hsecond⟩ := ih _ h
        exact ⟨a, u, .outer r hs hr hfirst, hsecond⟩
  · rintro ⟨a, u, hfirst, hsecond⟩
    exact hfirst.bind hsecond

/-- What each call of a program keeps, a run of it keeps. -/
theorem Solo.keeps {Q : I.Call → Prop} {Inv : σ → Prop} {p : Flow I α} (h : Solo step P p s a t)
    (hp : Makes Q p) (hstep : ∀ {s c r s'}, Q c → P c r → Inv s → step s c = .reply r s' → Inv s')
    (hs : Inv s) : Inv t := by
  induction h with
  | done => exact hs
  | inner hreply hr _ ih => exact ih (hp.2 _) (hstep hp.1 hr hs hreply)
  | outer r _ _ _ ih => exact ih (hp.2 r) hs

/-- A run with its exchanges is one whose replies from outside are as there. -/
theorem Alone.solo {p : Flow I α} (h : Alone step p s log a t) :
    Solo step (fun _ _ => True) p s a t := by
  induction h with
  | done a s => exact .done a s
  | inner hs _ ih => exact .inner hs trivial ih
  | outer r hs _ ih => exact .outer r hs trivial ih

/-- A program that ends in another one, after calls that are all as `Q` says. -/
inductive EndsIn (Q : I.Call → Prop) (last : Flow I α) : Flow I α → Prop
  | last : EndsIn Q last last
  | ask {c next} : Q c → (∀ r, EndsIn Q last (next r)) → EndsIn Q last (.ask c next)

theorem EndsIn.bind {Q : I.Call → Prop} {last : Flow I α} {p : Flow I β} {f : β → Flow I α}
    (hp : Makes Q p) (hf : ∀ b, EndsIn Q last (f b)) : EndsIn Q last (p.bind f) := by
  induction p with
  | done b => exact hf b
  | ask c next ih => exact .ask hp.1 fun r => ih r (hp.2 r)

theorem EndsIn.makes {Q R : I.Call → Prop} {p last : Flow I α} (h : EndsIn Q last p)
    (hlast : Makes R last) (hQR : ∀ c, Q c → R c) : Makes R p := by
  induction h with
  | last => exact hlast
  | ask hc _ ih => exact ⟨hQR _ hc, ih⟩

/-- A run of such a program comes to the other one, with all that the calls before it keep. -/
theorem Solo.endsIn {Q : I.Call → Prop} {Inv : σ → Prop} {p last : Flow I α}
    (hp : EndsIn Q last p) (h : Solo step P p s a t)
    (hstep : ∀ {s c r s'}, Q c → P c r → Inv s → step s c = .reply r s' → Inv s') (hs : Inv s) :
    ∃ u, Inv u ∧ Solo step P last u a t := by
  induction hp generalizing s with
  | last => exact ⟨s, hs, h⟩
  | ask hc _ ih =>
    cases h with
    | inner hreply hr h => exact ih _ h (hstep hc hr hs hreply)
    | outer r _ _ h => exact ih r h hs

/-- A program by itself, as far as there are answers from outside. -/
def play (step : σ → (c : I.Call) → Outcome σ (I.Reply c)) (P : (c : I.Call) → I.Reply c → Prop)
    [∀ c r, Decidable (P c r)] (answer : (c : I.Call) → Option (I.Reply c)) :
    Flow I α → σ → Option (α × σ)
  | .done a, s => some (a, s)
  | .ask c next, s =>
    match step s c with
    | .reply r s' => if P c r then play step P answer (next r) s' else none
    | .wait => none
    | .outside => (answer c).bind fun r =>
      if P c r then play step P answer (next r) s else none

theorem solo_of_play [∀ c r, Decidable (P c r)] {answer : (c : I.Call) → Option (I.Reply c)}
    {p : Flow I α} (h : play step P answer p s = some (a, t)) : Solo step P p s a t := by
  induction p generalizing s with
  | done b =>
    obtain ⟨rfl, rfl⟩ := Prod.mk.inj (Option.some.inj h)
    exact .done _ _
  | ask c next ih =>
    rw [play] at h
    split at h
    · next hs =>
      rw [Option.ite_none_right_eq_some] at h
      exact .inner hs h.1 (ih _ h.2)
    · exact absurd h (by simp)
    · next hs =>
      obtain ⟨r, -, h⟩ := Option.bind_eq_some_iff.mp h
      rw [Option.ite_none_right_eq_some] at h
      exact .outer _ hs h.1 (ih _ h.2)

/-- What is played has the given answers for its exchanges. -/
theorem exists_alone_of_play [∀ c r, Decidable (P c r)] {answer : (c : I.Call) → Option (I.Reply c)}
    {p : Flow I α} (h : play step P answer p s = some (a, t)) :
    ∃ log, Alone step p s log a t ∧ ∀ e ∈ log, answer e.call = some e.reply := by
  induction p generalizing s with
  | done b =>
    obtain ⟨rfl, rfl⟩ := Prod.mk.inj (Option.some.inj h)
    exact ⟨[], .done _ _, fun _ he => absurd he List.not_mem_nil⟩
  | ask c next ih =>
    rw [play] at h
    split at h
    · next hs =>
      rw [Option.ite_none_right_eq_some] at h
      obtain ⟨log, hrun, hlog⟩ := ih _ h.2
      exact ⟨log, .inner hs hrun, hlog⟩
    · exact absurd h (by simp)
    · next hs =>
      obtain ⟨r, hr, h⟩ := Option.bind_eq_some_iff.mp h
      rw [Option.ite_none_right_eq_some] at h
      obtain ⟨log, hrun, hlog⟩ := ih _ h.2
      exact ⟨_, .outer r hs hrun, List.forall_mem_cons.mpr ⟨hr, hlog⟩⟩

/-- The replies to a program, and what is left of it, as far as there are answers. -/
def follow (answer : (c : I.Call) → Option (I.Reply c)) : Flow I α → List (Exchange I) × Flow I α
  | .done a => ([], .done a)
  | .ask c next =>
    match answer c with
    | none => ([], .ask c next)
    | some r => (⟨c, r⟩ :: (follow answer (next r)).1, (follow answer (next r)).2)

/-- What happens to a program by itself, as far as there are answers from outside, with what is left
of it then. -/
def advance (step : σ → (c : I.Call) → Outcome σ (I.Reply c))
    (answer : (c : I.Call) → Option (I.Reply c)) :
    Flow I α → σ → List (Event I) × σ × Flow I α
  | .done a, s => ([], s, .done a)
  | .ask c next, s =>
    match step s c with
    | .reply r s' =>
      let rest := advance step answer (next r) s'
      (.inner c r :: rest.1, rest.2)
    | .wait => ([], s, .ask c next)
    | .outside =>
      match answer c with
      | none => ([], s, .ask c next)
      | some r =>
        let rest := advance step answer (next r) s
        (.asked c :: .answered c r :: rest.1, rest.2)

variable (step) in
theorem path_advance (answer : (c : I.Call) → Option (I.Reply c)) (p : Flow I α) (s : σ) :
    Path p ((advance step answer p s).1.filterMap Event.reply?) (advance step answer p s).2.2 := by
  induction p generalizing s with
  | done a => exact .nil _
  | ask c next ih =>
    rw [advance]
    split
    · exact .cons _ (ih _ _)
    · exact .nil _
    · split
      · exact .nil _
      · exact .cons _ (ih _ _)

end Flow

namespace World

variable [DecidableEq ι] {step : σ → (c : I.Call) → Outcome σ (I.Reply c)}
  {P : (c : I.Call) → I.Reply c → Prop} {w w' w'' : World I σ ι α} {i : ι} {log more : Trace I ι}

/-- Every reply of a trace is as `P` says. -/
def RepliesAre (P : (c : I.Call) → I.Reply c → Prop) (log : Trace I ι) : Prop :=
  ∀ e ∈ log, ∀ x, e.2.reply? = some x → P x.call x.reply

omit [DecidableEq ι] in
theorem RepliesAre.append (h : RepliesAre P log) (h' : RepliesAre P more) :
    RepliesAre P (log ++ more) := fun e he =>
  (List.mem_append.mp he).elim (h e) (h' e)

theorem set_set (w : World I σ ι α) (i : ι) (s s' : σ) (t t' : Task I α) :
    (w.set i s t).set i s' t' = w.set i s' t' := by
  simp [set]

theorem set_self (w : World I σ ι α) (i : ι) : w.set i w.state (w.task i) = w := by
  simp [set]

theorem reaches_of_asked {c : I.Call} {next : I.Reply c → Flow I α} (r : I.Reply c)
    (ht : w.task i = .running (.ask c next)) (hs : step w.state c = .outside) :
    Reaches step w [(i, .asked c), (i, .answered c r)] (w.set i w.state (.running (next r))) := by
  have hreply : Step step (w.set i w.state (.waiting c next)) (i, .answered c r) _ :=
    .answered r (set_task_self w i w.state _)
  rw [set_set] at hreply
  exact .step (.step .start (.asked ht hs)) hreply

/-- A run of a program by itself, as the first part of what a task has to do. -/
theorem reaches_of_solo {p : Flow I β} {f : β → Flow I α} {s t : σ} {b : β}
    (h : Flow.Solo step P p s b t) (hs : w.state = s) (ht : w.task i = .running (p.bind f)) :
    ∃ more, Reaches step w more (w.set i t (.running (f b))) ∧ RepliesAre P more := by
  induction h generalizing w with
  | done b s =>
    have hsame : w.set i s (.running (f b)) = w := by
      rw [← hs, show Task.running (f b) = w.task i from ht.symm, set_self]
    rw [hsame]
    exact ⟨[], .start, fun _ he => absurd he List.not_mem_nil⟩
  | @inner c next s r s' b t hstep hr _ ih =>
    subst hs
    have hfirst : Reaches step w [(i, .inner c r)] (w.set i s' (.running ((next r).bind f))) :=
      .step .start (.inner ht hstep)
    obtain ⟨more, hmore, hreplies⟩ := ih (w := w.set i s' (.running ((next r).bind f))) rfl
      (set_task_self w i _ _)
    rw [set_set] at hmore
    refine ⟨[(i, .inner c r)] ++ more, hfirst.trans hmore, .append ?_ hreplies⟩
    intro e he x hx
    rw [List.mem_singleton.mp he] at hx
    obtain rfl := Option.some.inj hx
    exact hr
  | @outer c next s b t r hstep hr _ ih =>
    subst hs
    have hboth : Reaches step w [(i, .asked c), (i, .answered c r)]
        (w.set i w.state (.running ((next r).bind f))) := reaches_of_asked r ht hstep
    obtain ⟨more, hmore, hreplies⟩ := ih (w := w.set i w.state (.running ((next r).bind f))) rfl
      (set_task_self w i _ _)
    rw [set_set] at hmore
    refine ⟨[(i, .asked c), (i, .answered c r)] ++ more, hboth.trans hmore, .append ?_ hreplies⟩
    intro e he x hx
    rcases List.mem_cons.mp he with rfl | he
    · exact absurd hx (by simp [Event.reply?])
    · rw [List.mem_singleton.mp he] at hx
      obtain rfl := Option.some.inj hx
      exact hr

/-- A program by itself, as the first part of what a task has to do, as far as it gets. -/
theorem reaches_of_advance {answer : (c : I.Call) → Option (I.Reply c)} {p q : Flow I β}
    {f : β → Flow I α} {s t : σ} {es : List (Event I)}
    (h : Flow.advance step answer p s = (es, t, q)) (hs : w.state = s)
    (ht : w.task i = .running (p.bind f)) :
    Reaches step w (es.map (i, ·)) (w.set i t (.running (q.bind f))) := by
  subst hs
  have hstopped {p : Flow I β} {w : World I σ ι α} (ht : w.task i = .running (p.bind f)) :
      Reaches step w [] (w.set i w.state (.running (p.bind f))) := by
    rw [← ht, set_self]
    exact .start
  induction p generalizing w es with
  | done b =>
    obtain ⟨rfl, rfl, rfl⟩ : [] = es ∧ w.state = t ∧ .done b = q := by simpa [Flow.advance] using h
    exact hstopped ht
  | ask c next ih =>
    rw [Flow.advance] at h
    split at h
    · next r s' hs =>
      obtain ⟨rfl, hrest⟩ := Prod.mk.inj h
      have hfirst : Reaches step w [(i, .inner c r)] (w.set i s' (.running ((next r).bind f))) :=
        .step .start (.inner ht hs)
      have hmore := ih r (w := w.set i s' (.running ((next r).bind f)))
        (set_task_self w i _ _) (Prod.ext rfl hrest)
      rw [set_set] at hmore
      exact hfirst.trans hmore
    · obtain ⟨rfl, rfl, rfl⟩ : [] = es ∧ w.state = t ∧ .ask c next = q := by simpa using h
      exact hstopped ht
    · next hs =>
      split at h
      · obtain ⟨rfl, rfl, rfl⟩ : [] = es ∧ w.state = t ∧ .ask c next = q := by simpa using h
        exact hstopped ht
      · next r hr =>
        obtain ⟨rfl, hrest⟩ := Prod.mk.inj h
        have hfirst : Reaches step w _ (w.set i w.state (.running ((next r).bind f))) :=
          reaches_of_asked r ht hs
        have hmore := ih r (w := w.set i w.state (.running ((next r).bind f)))
          (set_task_self w i _ _) (Prod.ext rfl hrest)
        rw [set_set] at hmore
        exact hfirst.trans hmore

end World

end AccountGate
