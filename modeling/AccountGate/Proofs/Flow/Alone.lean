import AccountGate.Auth.Vault

/-!
Programs that run alone. Calls that the surroundings answer are answered in place; each question
for the outside may get any reply, and is written down with it. Main statement: what the runs of a
program are is decided by its first call.
-/

namespace AccountGate

/-- A question for the outside, and the reply. -/
structure Exchange (I : Interface) where
  call : I.Call
  reply : I.Reply call

namespace Flow

variable {I : Interface} {σ α β : Type}

/-- `Alone step p s log a t` is a run of `p` from `s` to `t` that ends with `a`. -/
inductive Alone (step : σ → (c : I.Call) → Outcome σ (I.Reply c)) :
    Flow I α → σ → List (Exchange I) → α → σ → Prop
  | done (a : α) (s : σ) : Alone step (.done a) s [] a s
  | inner {c next s r s' log a t} : step s c = .reply r s' →
      Alone step (next r) s' log a t → Alone step (.ask c next) s log a t
  | outer {c next s log a t} (r : I.Reply c) : step s c = .outside →
      Alone step (next r) s log a t → Alone step (.ask c next) s (⟨c, r⟩ :: log) a t

variable {step : σ → (c : I.Call) → Outcome σ (I.Reply c)} {s t : σ} {log : List (Exchange I)}

theorem alone_done_iff {a b : α} :
    Alone step (.done a) s log b t ↔ log = [] ∧ a = b ∧ s = t := by
  constructor
  · intro h
    cases h with
    | done => exact ⟨rfl, rfl, rfl⟩
  · rintro ⟨rfl, rfl, rfl⟩
    exact .done a s

theorem alone_ask_of_reply {c : I.Call} {next : I.Reply c → Flow I α} {r : I.Reply c} {s' : σ}
    {a : α} (hs : step s c = .reply r s') :
    Alone step (.ask c next) s log a t ↔ Alone step (next r) s' log a t := by
  constructor
  · intro h
    cases h with
    | inner hs' h =>
      obtain ⟨rfl, rfl⟩ := Outcome.reply.inj (hs.symm.trans hs')
      exact h
    | outer r' hs' h => exact absurd (hs.symm.trans hs') (by simp)
  · exact .inner hs

theorem alone_ask_of_outside {c : I.Call} {next : I.Reply c → Flow I α} {a : α}
    (hs : step s c = .outside) : Alone step (.ask c next) s log a t ↔
      ∃ r rest, log = ⟨c, r⟩ :: rest ∧ Alone step (next r) s rest a t := by
  constructor
  · intro h
    cases h with
    | inner hs' h => exact absurd (hs.symm.trans hs') (by simp)
    | outer r _ h => exact ⟨r, _, rfl, h⟩
  · rintro ⟨r, rest, rfl, h⟩
    exact .outer r hs h

/-- What has to wait never ends by itself. -/
theorem not_alone_of_wait {c : I.Call} {next : I.Reply c → Flow I α} {a : α}
    (hs : step s c = .wait) : ¬ Alone step (.ask c next) s log a t := by
  intro h
  cases h with
  | inner hs' _ => exact absurd (hs.symm.trans hs') (by simp)
  | outer r hs' _ => exact absurd (hs.symm.trans hs') (by simp)

theorem Alone.bind {p : Flow I α} {f : α → Flow I β} {s t u : σ} {a : α} {b : β}
    {log log' : List (Exchange I)} (h : Alone step p s log a t) (h' : Alone step (f a) t log' b u) :
    Alone step (p.bind f) s (log ++ log') b u := by
  induction h with
  | done a s => exact h'
  | inner hs _ ih => exact .inner hs (ih h')
  | outer r hs _ ih => exact .outer r hs (ih h')

theorem alone_bind_iff {p : Flow I α} {f : α → Flow I β} {b : β} :
    Alone step (p.bind f) s log b t ↔ ∃ first second a u, log = first ++ second ∧
      Alone step p s first a u ∧ Alone step (f a) u second b t := by
  constructor
  · intro h
    induction p generalizing s log with
    | done a => exact ⟨[], log, a, s, rfl, .done a s, h⟩
    | ask c next ih =>
      cases h with
      | inner hs h =>
        obtain ⟨first, second, a, u, rfl, hfirst, hsecond⟩ := ih _ h
        exact ⟨first, second, a, u, rfl, .inner hs hfirst, hsecond⟩
      | outer r hs h =>
        obtain ⟨first, second, a, u, rfl, hfirst, hsecond⟩ := ih _ h
        exact ⟨_, second, a, u, rfl, .outer r hs hfirst, hsecond⟩
  · rintro ⟨first, second, a, u, rfl, hfirst, hsecond⟩
    exact hfirst.bind hsecond

/-- Runs of one program in a row, each with its exchanges and its result. -/
inductive InRow (step : σ → (c : I.Call) → Outcome σ (I.Reply c)) (p : Flow I α) :
    σ → List (List (Exchange I) × α) → σ → Prop
  | nil (s : σ) : InRow step p s [] s
  | cons {s log a t turns u} : Alone step p s log a t → InRow step p t turns u →
      InRow step p s ((log, a) :: turns) u

end Flow

end AccountGate
