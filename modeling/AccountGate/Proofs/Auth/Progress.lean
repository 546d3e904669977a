import AccountGate.Proofs.Auth.Asking

/-!
Tasks that share a session come to their ends. Main statements: who holds the tokens never waits for
another task, and so lets go of them; and so whoever asks for the header can get to its answer from
wherever it is, whatever the outside replies.
-/

namespace AccountGate.Auth

open Program AccountGate.Flow

variable {ι α : Type} [DecidableEq ι] {id : Nat} {clientId tokenServer : String} {i : ι}

/-- The outside has replied as given. -/
def Replied (f : (c : Call) → Reply c) (more : Trace interface ι) : Prop :=
  ∀ i c r, (i, .answered c r) ∈ more → r = f c

omit [DecidableEq ι] in
theorem Replied.append {f : (c : Call) → Reply c} {log more : Trace interface ι}
    (h : Replied f log) (h' : Replied f more) : Replied f (log ++ more) := by
  intro i c r hmem
  rcases List.mem_append.mp hmem with hlog | hmore
  · exact h i c r hlog
  · exact h' i c r hmore

/-- A run in which only one task works. -/
structure Runs (f : (c : Call) → Reply c) (i : ι) (w : Tasks ι α) (more : Trace interface ι)
    (w' : Tasks ι α) : Prop where
  reaches : World.Reaches Vault.step w more w'
  replied : Replied f more
  own : ∀ e ∈ more, e.1 = i

variable {f : (c : Call) → Reply c} {w w' w'' : Tasks ι α} {log more : Trace interface ι}

theorem Runs.start (f : (c : Call) → Reply c) (i : ι) (w : Tasks ι α) : Runs f i w [] w :=
  ⟨.start, fun _ _ _ h => absurd h List.not_mem_nil, fun _ h => absurd h List.not_mem_nil⟩

theorem Runs.trans (h : Runs f i w log w') (h' : Runs f i w' more w'') :
    Runs f i w (log ++ more) w'' where
  reaches := h.reaches.trans h'.reaches
  replied := h.replied.append h'.replied
  own e he := (List.mem_append.mp he).elim (h.own e) (h'.own e)

theorem Runs.task_of_ne {j : ι} (h : Runs f i w more w') (hj : j ≠ i) : w'.task j = w.task j :=
  h.reaches.task_of_ne fun e he heq => hj (heq ▸ h.own e he)

/-- A call that need not wait gets its reply. -/
theorem exists_runs {c : Call} {next : Reply c → Program α} (f : (c : Call) → Reply c)
    (ht : (w.task i).program = .ask c next) (hc : w.state.step c ≠ .wait) :
    ∃ r more w', Runs f i w more w' ∧ w'.task i = .running (next r) := by
  cases htask : w.task i with
  | waiting c' next' =>
    rw [htask] at ht
    cases ht
    refine ⟨f c, [(i, .answered c (f c))], _,
      ⟨.step .start (.answered (f c) htask), ?_, by simp⟩, World.set_task_self _ _ _ _⟩
    intro j c' r hmem
    obtain ⟨rfl, heq⟩ := Prod.mk.inj (List.mem_singleton.mp hmem)
    cases heq
    rfl
  | running p =>
    rw [htask] at ht
    cases ht
    cases hs : w.state.step c with
    | wait => exact absurd hs hc
    | reply r s =>
      refine ⟨r, [(i, .inner c r)], _, ⟨.step .start (.inner htask hs), ?_, by simp⟩,
        World.set_task_self _ _ _ _⟩
      intro j c' r' hmem
      exact absurd hmem (by simp)
    | outside =>
      have hwaits := World.set_task_self w i w.state (.waiting c next)
      refine ⟨f c, [(i, .asked c), (i, .answered c (f c))], _,
        ⟨.step (.step .start (.asked htask hs)) (.answered (f c) hwaits), ?_, by simp⟩,
        World.set_task_self _ _ _ _⟩
      intro j c' r hmem
      rcases List.mem_cons.mp hmem with heq | hmem
      · exact absurd heq (by simp)
      · obtain ⟨rfl, heq⟩ := Prod.mk.inj (List.mem_singleton.mp hmem)
        cases heq
        rfl

omit [DecidableEq ι] in
/-- Who holds the tokens waits for nobody. -/
theorem Inv.never_waits {l : Ledger ι} {c : Call} {next : Reply c → Program α}
    (h : Inv id clientId tokenServer l w) (hi : i ∈ l.holders)
    (ht : (w.task i).program = .ask c next) (v : Vault) : v.step c ≠ .wait := by
  obtain ⟨stage, hbusy, hobeys, _⟩ := h.busy_of_mem hi
  rw [ht] at hobeys
  have hallow := hobeys.1
  cases stage with
  | free => exact hbusy.fits.elim
  | _ =>
    -- No stage lets a holder take tokens, and no other call waits.
    cases c with
    | acquire other => exact hallow.elim
    | _ => simp [Vault.step]

omit [DecidableEq ι] in
/-- Who holds the tokens is not done. -/
theorem Inv.not_done {l : Ledger ι} {a : α} (h : Inv id clientId tokenServer l w)
    (hi : i ∈ l.holders) : (w.task i).program ≠ .done a := by
  intro ht
  obtain ⟨stage, hbusy, hobeys, _⟩ := h.busy_of_mem hi
  rw [ht] at hobeys
  have hfree : stage = .free := hobeys
  subst hfree
  exact hbusy.fits

variable {w₀ : Tasks ι α} {p : ι → Program α} {t : TokenSet}

/-- Who holds the tokens lets go of them, by its own work alone. The induction is on what is left
of its program. -/
theorem lets_go (h₀ : Inv id clientId tokenServer ({ tokens := t } : Ledger ι) w₀)
    (hp : ∀ i, w₀.task i = .running (p i)) (f : (c : Call) → Reply c) {rest : Program α}
    (h : World.Reaches Vault.step w₀ log w) (hi : i ∈ (Ledger.ofTrace id t log).holders)
    (ht : (w.task i).program = rest) :
    ∃ more w', Runs f i w more w' ∧ (Ledger.ofTrace id t (log ++ more)).holders = [] := by
  induction rest generalizing log w with
  | done a => exact absurd ht ((inv_of_reaches h₀ hp h).not_done hi)
  | ask c next ih =>
    have hinv := inv_of_reaches h₀ hp h
    obtain ⟨r, more, w', hruns, htask⟩ := exists_runs f ht (hinv.never_waits hi ht w.state)
    have hreach := h.trans hruns.reaches
    -- Either there is more to do before it lets go, or it has just done so.
    by_cases hmem : i ∈ (Ledger.ofTrace id t (log ++ more)).holders
    · obtain ⟨more', w'', hruns', hholders⟩ := ih r hreach hmem (congrArg Task.program htask)
      rw [List.append_assoc] at hholders
      exact ⟨more ++ more', w'', hruns.trans hruns', hholders⟩
    · refine ⟨more, w', hruns, List.eq_nil_iff_forall_not_mem.mpr fun j hj => ?_⟩
      obtain ⟨stage, hbusy, _⟩ := hinv.busy_of_mem hi
      rcases Ledger.eq_or_mem_of_mem_append hruns.own hj with rfl | hold
      · exact hmem hj
      · rw [hbusy.holders_eq, List.mem_singleton] at hold
        exact hmem (hold ▸ hj)

/-- When nobody holds the tokens, they can be taken. -/
theorem acquires {next : Tokens → Program α}
    (h₀ : Inv id clientId tokenServer ({ tokens := t } : Ledger ι) w₀)
    (hp : ∀ i, w₀.task i = .running (p i)) (f : (c : Call) → Reply c)
    (h : World.Reaches Vault.step w₀ log w) (hidle : (Ledger.ofTrace id t log).holders = [])
    (ht : (w.task i).program = .ask (.acquire id) next) :
    ∃ r more w', Runs f i w more w' ∧ w'.task i = .running (next r) := by
  apply exists_runs f ht
  cases inv_of_reaches h₀ hp h with
  | idle _ hidle _ =>
    rw [Vault.step_acquire_of_free hidle.not_held]
    simp
  | busy k _ _ hbusy _ _ =>
    rw [hbusy.holders_eq] at hidle
    exact absurd hidle (by simp)

/-- Who asks for the header gets an answer, once the tasks before it have let go of the tokens. -/
theorem comes_to_end {v : Vault} {ops : ι → Operation} {w : Tasks ι Result} {rest : Program Result}
    (h₀ : Inv id clientId tokenServer ({ tokens := t } : Ledger ι) (begun v ops))
    (f : (c : Call) → Reply c) (h : World.Reaches Vault.step (begun v ops) log w)
    (ha : Asks (.bearer id clientId tokenServer) (ops i) (World.repliesTo i log))
    (ht : (w.task i).program = rest) :
    ∃ more w' a, World.Reaches Vault.step w more w' ∧ Replied f more ∧
      w'.task i = .running (.done (.authorization a)) := by
  have hp : ∀ i, (begun v ops).task i = .running (ops i).program := fun _ => rfl
  induction rest generalizing log w with
  | done b =>
    rcases reaches_of_asks h₀ h ha with ⟨next, ht'⟩ | ⟨_, _, _, p, _, _, _, _, hends, hprogram⟩
    · exact absurd (ht.symm.trans ht') (by simp)
    · rcases hends with ⟨_, c, next, rfl⟩ | ⟨a, rfl, _⟩
      · exact absurd (ht.symm.trans hprogram) (by simp [Flow.bind])
      · cases htask : w.task i with
        | running q =>
          rw [htask] at hprogram
          exact ⟨[], w, a, .start, fun _ _ _ h => absurd h List.not_mem_nil,
            htask.trans (congrArg Task.running hprogram)⟩
        | waiting c next =>
          rw [htask] at ht
          exact absurd ht (by simp [Task.program])
  | ask c next ih =>
    -- After one more call of its own, the rest of the program decides.
    have hgo {log₁ : Trace interface ι} {w₁ : Tasks ι Result}
        (hreach : World.Reaches Vault.step w log₁ w₁) (hreplied : Replied f log₁)
        (hstep : ∃ r more w', Runs f i w₁ more w' ∧ w'.task i = .running (next r)) :
        ∃ more w' a, World.Reaches Vault.step w more w' ∧ Replied f more ∧
          w'.task i = .running (.done (.authorization a)) := by
      obtain ⟨r, more, w', hruns, htask⟩ := hstep
      have hfar := hreach.trans hruns.reaches
      have ha' : Asks (.bearer id clientId tokenServer) (ops i)
          (World.repliesTo i (log ++ (log₁ ++ more))) := by
        rw [World.repliesTo_append]
        exact ha.append _
      obtain ⟨more', w'', a, hreach', hreplied', hdone⟩ :=
        ih r (h.trans hfar) ha' (congrArg Task.program htask)
      exact ⟨log₁ ++ more ++ more', w'', a, hfar.trans hreach',
        (hreplied.append hruns.replied).append hreplied', hdone⟩
    by_cases hc : c = .acquire id
    · subst hc
      by_cases hidle : (Ledger.ofTrace id t log).holders = []
      · exact hgo .start (Runs.start f i w).replied (acquires h₀ hp f h hidle ht)
      · -- Somebody holds the tokens, and has to let go of them first.
        obtain ⟨k, hk⟩ := List.exists_mem_of_ne_nil _ hidle
        obtain ⟨more, w', hruns, hidle'⟩ := lets_go h₀ hp f h hk rfl
        have hne : i ≠ k := by
          rintro rfl
          exact (inv_of_reaches h₀ hp h).never_waits hk ht (w.state.hold id)
            (by simp [Vault.step, Vault.hold])
        have htask : (w'.task i).program = .ask (.acquire id) next := by
          rw [hruns.task_of_ne hne]
          exact ht
        exact hgo hruns.reaches hruns.replied
          (acquires h₀ hp f (h.trans hruns.reaches) hidle' htask)
    · have hmem := holds_of_asks h₀ h ha ht hc
      exact hgo .start (Runs.start f i w).replied
        (exists_runs f ht ((inv_of_reaches h₀ hp h).never_waits hmem ht w.state))

end AccountGate.Auth
