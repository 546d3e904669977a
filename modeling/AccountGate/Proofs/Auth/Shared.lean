import AccountGate.Proofs.Auth.Ledger

/-!
A session among tasks that share it. Main statement: as long as all tasks keep to the protocol, at
most one of them holds the tokens, that one stands where the ledger says, and when nobody holds
them the tokens in the vault are those of the ledger.
-/

namespace AccountGate.Auth

open Program

variable {ι α : Type} {id : Nat} {clientId tokenServer : String}

abbrev Tasks (ι α : Type) := World interface Vault ι α

/-- The stage of the task that holds the tokens, against the vault and the ledger. -/
def Stage.Fits (id : Nat) (v : Vault) (l : Ledger ι) : Stage → Prop
  | .free => False
  | .read t => l.tokens = t ∧ v.tokensOf id = t.tokens ∧ l.unstamped = false
  | .marked t => l.tokens = t ∧ t.access ≠ "" ∧ l.unstamped = false
  | .unstamped t => l.tokens = t ∧ l.unstamped = true
  | .settled t => l.tokens = t ∧ l.unstamped = false
  | .put t => l.tokens = t ∧ v.tokensOf id = t.tokens ∧ l.unstamped = false

/-- Nobody holds the tokens. -/
structure Idle (id : Nat) (v : Vault) (l : Ledger ι) : Prop where
  holders_eq : l.holders = []
  tokens_eq : v.tokensOf id = l.tokens.tokens
  stamped : l.unstamped = false
  not_held : id ∉ v.held

/-- One task holds the tokens, at some stage. -/
structure Busy (id : Nat) (v : Vault) (l : Ledger ι) (i : ι) (stage : Stage) : Prop where
  holders_eq : l.holders = [i]
  fits : stage.Fits id v l
  held : id ∈ v.held

/-- What holds of tasks that share a session after any trace. -/
inductive Inv (id : Nat) (clientId tokenServer : String) (l : Ledger ι) (w : Tasks ι α) : Prop
  | idle : Sound id clientId tokenServer w.state → Idle id w.state l →
      (∀ i, Obeys id clientId tokenServer .free (w.task i).program) →
      Inv id clientId tokenServer l w
  | busy (i : ι) (stage : Stage) : Sound id clientId tokenServer w.state →
      Busy id w.state l i stage → Obeys id clientId tokenServer stage (w.task i).program →
      (∀ j, j ≠ i → Obeys id clientId tokenServer .free (w.task j).program) →
      Inv id clientId tokenServer l w

/-- The holder either goes on or lets go. -/
inductive Passes (id : Nat) (v : Vault) (l : Ledger ι) (i : ι) (stage : Stage) : Prop
  | holds : Busy id v l i stage → Passes id v l i stage
  | lets : Idle id v l → stage = .free → Passes id v l i stage

variable {v v' : Vault} {l : Ledger ι} {i : ι} {stage : Stage}

theorem Idle.of_spares (h : Idle id v l) (hv : Vault.Spares id v v') : Idle id v' l where
  holders_eq := h.holders_eq
  tokens_eq := hv.tokens_eq.trans h.tokens_eq
  stamped := h.stamped
  not_held := mt hv.held_iff.mp h.not_held

theorem Busy.of_spares (h : Busy id v l i stage) (hv : Vault.Spares id v v') :
    Busy id v' l i stage where
  holders_eq := h.holders_eq
  held := hv.held_iff.mpr h.held
  fits := by
    cases stage with
    | free => exact h.fits
    | read t => exact ⟨h.fits.1, hv.tokens_eq.trans h.fits.2.1, h.fits.2.2⟩
    | marked t => exact h.fits
    | unstamped t => exact h.fits
    | settled t => exact h.fits
    | put t => exact ⟨h.fits.1, hv.tokens_eq.trans h.fits.2.1, h.fits.2.2⟩

/-- The answer to a refresh moves the ledger as it moves the holder. -/
theorem Busy.heard {t : TokenSet} (h : Busy id v l i (.marked t)) (answer : Answer) :
    Busy id v (l.heard answer) i (.afterAnswer t answer) := by
  obtain ⟨htokens, _, hstamped⟩ := h.fits
  unfold Ledger.heard Stage.afterAnswer
  cases refreshOutcome answer with
  | refreshed response =>
    exact ⟨h.holders_eq, ⟨congrArg (TokenSet.accepted · response) htokens, rfl⟩, h.held⟩
  | unreachable cause => exact ⟨h.holders_eq, ⟨htokens, hstamped⟩, h.held⟩
  | rejected reason =>
    exact ⟨h.holders_eq, ⟨congrArg TokenSet.refused htokens, hstamped⟩, h.held⟩

/-- Calls that are left to the outside. -/
def Call.isOuter : Call → Bool
  | .clock => true
  | .send _ => true
  | .count _ => true
  | _ => false

theorem Vault.step_eq_outside_iff {v : Vault} {c : Call} :
    v.step c = .outside ↔ c.isOuter = true := by
  cases c with
  | acquire id =>
    simp only [Vault.step, Call.isOuter]
    split <;> simp
  | _ => simp [Vault.step, Call.isOuter]

/-- A reply from outside tells a program without the tokens nothing about the session. -/
theorem free_of_outer (id : Nat) (clientId tokenServer : String) {c : Call} (r : Reply c)
    (hc : c.isOuter = true) :
    Expected id clientId tokenServer c r ∧ Stage.free.after id c r = .free := by
  cases c with
  | clock => exact ⟨trivial, rfl⟩
  | send o => exact ⟨trivial, rfl⟩
  | count counter => exact ⟨trivial, rfl⟩
  | _ => exact absurd hc (by simp [Call.isOuter])

variable {w : Tasks ι α}

theorem Inv.sound (h : Inv id clientId tokenServer l w) :
    Sound id clientId tokenServer w.state := by
  cases h with
  | idle hsound _ _ => exact hsound
  | busy _ _ hsound _ _ _ => exact hsound

theorem Inv.obeys_free (h : Inv id clientId tokenServer l w) (hi : i ∉ l.holders) :
    Obeys id clientId tokenServer .free (w.task i).program := by
  cases h with
  | idle _ _ hobeys => exact hobeys i
  | busy k stage _ hbusy _ hothers =>
    refine hothers i fun hk => hi ?_
    rw [hbusy.holders_eq, hk]
    exact List.mem_singleton_self k

theorem Inv.busy_of_mem (h : Inv id clientId tokenServer l w) (hi : i ∈ l.holders) :
    ∃ stage, Busy id w.state l i stage ∧ Obeys id clientId tokenServer stage (w.task i).program ∧
      ∀ j, j ≠ i → Obeys id clientId tokenServer .free (w.task j).program := by
  cases h with
  | idle _ hidle _ =>
    rw [hidle.holders_eq] at hi
    exact absurd hi List.not_mem_nil
  | busy k stage _ hbusy hobeys hothers =>
    rw [hbusy.holders_eq] at hi
    obtain rfl := List.mem_singleton.mp hi
    exact ⟨stage, hbusy, hobeys, hothers⟩

theorem Inv.idle_of_acquire {r : Tokens} {s : Vault} (h : Inv id clientId tokenServer l w)
    (hr : w.state.step (.acquire id) = .reply r s) :
    Idle id w.state l ∧ r = w.state.tokensOf id ∧ s = w.state.hold id := by
  have hfree : id ∉ w.state.held := by
    intro hheld
    rw [Vault.step, if_pos (List.contains_iff_mem.mpr hheld)] at hr
    exact absurd hr (by simp)
  rw [Vault.step_acquire_of_free hfree] at hr
  obtain ⟨rfl, rfl⟩ := Outcome.reply.inj hr
  cases h with
  | idle _ hidle _ => exact ⟨hidle, rfl, rfl⟩
  | busy _ _ _ hbusy _ _ => exact absurd hbusy.held hfree

/-- A request of the holder asks for new tokens, with the refresh token of the ledger. -/
theorem Inv.request_of_mem {o : Outgoing} {next : Answer → Program α}
    (h : Inv id clientId tokenServer l w) (hi : i ∈ l.holders)
    (ht : (w.task i).program = .ask (.send o) next) :
    l.tokens.access ≠ "" ∧ o = refreshRequest clientId tokenServer l.tokens.refresh := by
  obtain ⟨stage, hbusy, hobeys, _⟩ := h.busy_of_mem hi
  have hfits := hbusy.fits
  rw [ht] at hobeys
  have hallow := hobeys.1
  cases stage with
  | free => exact hfits.elim
  | marked t =>
    obtain ⟨htokens, hlive, _⟩ := hfits
    rw [htokens]
    exact ⟨hlive, hallow⟩
  | _ => exact hallow.elim

variable [DecidableEq ι]

/-- The tokens are taken when nobody holds them. -/
theorem Idle.acquire (h : Idle id v l) (i : ι) :
    Busy id (v.hold id) (l.note id (i, .inner (.acquire id) (v.tokensOf id))) i
      (Stage.free.after id (.acquire id) (v.tokensOf id)) := by
  have hnote : l.note id (i, .inner (.acquire id) (v.tokensOf id)) =
      { l with holders := i :: l.holders } := if_pos rfl
  have hafter : Stage.free.after id (.acquire id) (v.tokensOf id) =
      .read (.ofTokens (v.tokensOf id)) := if_pos rfl
  rw [hnote, hafter, h.tokens_eq, TokenSet.ofTokens_tokens]
  exact ⟨by rw [h.holders_eq], ⟨rfl, h.tokens_eq, h.stamped⟩, List.mem_cons_self⟩

/-- The holder lets go. -/
theorem Busy.release (h : Busy id v l i stage) (ht : v.tokensOf id = l.tokens.tokens)
    (hs : l.unstamped = false) :
    Idle id { v with held := v.held.filter (· != id) }
      (l.note id (i, .inner (.release id) ())) := by
  have hnote : l.note id (i, .inner (.release id) ()) =
      { l with holders := l.holders.filter fun j => j ≠ i } := if_pos rfl
  rw [hnote]
  exact ⟨by simp [h.holders_eq], ht, hs, by simp⟩

/-- A call of the holder that the vault answers. -/
theorem Busy.step {c : Call} {r : Reply c} (h : Busy id v l i stage)
    (hallow : stage.Allows id clientId tokenServer c) (hstep : v.step c = .reply r v') :
    Passes id v' (l.note id (i, .inner c r)) i (stage.after id c r) ∧ v'.registry = v.registry ∧
      v'.created = v.created := by
  have hfits := h.fits
  cases stage with
  | free => exact hfits.elim
  | read t =>
    obtain ⟨htokens, hvault, hstamped⟩ := hfits
    cases c with
    | release other =>
      obtain rfl := hallow
      obtain ⟨rfl, rfl⟩ := Outcome.reply.inj hstep
      exact ⟨.lets (h.release (htokens ▸ hvault) hstamped) rfl, rfl, rfl⟩
    | update other tokens =>
      obtain ⟨rfl, hlive, rfl⟩ := hallow
      obtain ⟨rfl, rfl⟩ := Outcome.reply.inj hstep
      exact ⟨.holds ⟨h.holders_eq, ⟨htokens, hlive, hstamped⟩, h.held⟩, rfl, rfl⟩
    | clock => exact absurd hstep (by simp [Vault.step])
    | _ => exact hallow.elim
  | marked t =>
    cases c with
    | send o => exact absurd hstep (by simp [Vault.step])
    | _ => exact hallow.elim
  | unstamped t =>
    cases c with
    | clock => exact absurd hstep (by simp [Vault.step])
    | _ => exact hallow.elim
  | settled t =>
    obtain ⟨htokens, hstamped⟩ := hfits
    cases c with
    | update other tokens =>
      obtain ⟨rfl, rfl⟩ := hallow
      obtain ⟨rfl, rfl⟩ := Outcome.reply.inj hstep
      have hput : (v.putTokens other t.tokens).tokensOf other = t.tokens := by
        rw [Vault.tokensOf_putTokens, if_pos rfl]
      exact ⟨.holds ⟨h.holders_eq, ⟨htokens, hput, hstamped⟩, h.held⟩, rfl, rfl⟩
    | _ => exact hallow.elim
  | put t =>
    obtain ⟨htokens, hvault, hstamped⟩ := hfits
    cases c with
    | release other =>
      obtain rfl := hallow
      obtain ⟨rfl, rfl⟩ := Outcome.reply.inj hstep
      exact ⟨.lets (h.release (htokens ▸ hvault) hstamped) rfl, rfl, rfl⟩
    | count counter => exact absurd hstep (by simp [Vault.step])
    | _ => exact hallow.elim

/-- A reply from outside to the holder. -/
theorem Busy.answered {c : Call} (r : Reply c) (h : Busy id v l i stage)
    (hallow : stage.Allows id clientId tokenServer c) (hc : c.isOuter = true) :
    Busy id v (l.note id (i, .answered c r)) i (stage.after id c r) := by
  have hmem : i ∈ l.holders := by rw [h.holders_eq]; exact List.mem_singleton_self i
  have hfits := h.fits
  cases stage with
  | free => exact hfits.elim
  | read t =>
    cases c with
    | clock =>
      have hnote : l.note id (i, .answered .clock r) = l :=
        if_neg fun hc => absurd (hfits.2.2.symm.trans hc.2) (by decide)
      rw [hnote]
      exact h
    | release other => exact absurd hc (by simp [Call.isOuter])
    | update other tokens => exact absurd hc (by simp [Call.isOuter])
    | _ => exact hallow.elim
  | marked t =>
    cases c with
    | send o =>
      have hnote : l.note id (i, .answered (.send o) r) = l.heard r := if_pos hmem
      rw [hnote]
      exact h.heard r
    | _ => exact hallow.elim
  | unstamped t =>
    obtain ⟨htokens, hunstamped⟩ := hfits
    cases c with
    | clock =>
      have hnote : l.note id (i, .answered .clock r) =
          { l with tokens := l.tokens.stamped r, unstamped := false } :=
        if_pos ⟨hmem, hunstamped⟩
      rw [hnote]
      exact ⟨h.holders_eq, ⟨congrArg (TokenSet.stamped · r) htokens, rfl⟩, h.held⟩
    | _ => exact hallow.elim
  | settled t =>
    cases c with
    | update other tokens => exact absurd hc (by simp [Call.isOuter])
    | _ => exact hallow.elim
  | put t =>
    cases c with
    | release other => exact absurd hc (by simp [Call.isOuter])
    | count counter => exact h
    | _ => exact hallow.elim

/-- The holder has made a call; the others stand where they stood. -/
theorem Inv.of_passes {s : Vault} {p : Program α} (hsound : Sound id clientId tokenServer s)
    (hpasses : Passes id s l i stage) (hp : Obeys id clientId tokenServer stage p)
    (hothers : ∀ j, j ≠ i → Obeys id clientId tokenServer .free (w.task j).program) :
    Inv id clientId tokenServer l (w.set i s (.running p)) := by
  have hrest : ∀ j, j ≠ i →
      Obeys id clientId tokenServer .free ((w.set i s (.running p)).task j).program := by
    intro j hj
    rw [World.set_task_of_ne w hj]
    exact hothers j hj
  have hself : Obeys id clientId tokenServer stage ((w.set i s (.running p)).task i).program := by
    rw [World.set_task_self]
    exact hp
  cases hpasses with
  | holds hbusy => exact .busy i stage hsound hbusy hself hrest
  | lets hidle hfree =>
    refine .idle hsound hidle fun j => ?_
    by_cases hj : j = i
    · rw [hj, ← hfree]
      exact hself
    · exact hrest j hj

/-- A task without the tokens has made a call that spares the session. -/
theorem Inv.of_spares {s : Vault} {p : Program α} (h : Inv id clientId tokenServer l w)
    (hi : i ∉ l.holders) (hsound : Sound id clientId tokenServer s)
    (hspares : Vault.Spares id w.state s) (hp : Obeys id clientId tokenServer .free p) :
    Inv id clientId tokenServer l (w.set i s (.running p)) := by
  cases h with
  | idle _ hidle hobeys =>
    exact .of_passes hsound (.lets (hidle.of_spares hspares) rfl) hp fun j _ => hobeys j
  | busy k stage _ hbusy hobeys hothers =>
    -- The holder is another task, and does not notice.
    have hk : k ≠ i := by
      rintro rfl
      exact hi (by rw [hbusy.holders_eq]; exact List.mem_singleton_self k)
    refine .busy k stage hsound (hbusy.of_spares hspares) ?_ fun j hj => ?_
    · rw [World.set_task_of_ne w hk]
      exact hobeys
    · by_cases hji : j = i
      · rw [hji, World.set_task_self]
        exact hp
      · rw [World.set_task_of_ne w hji]
        exact hothers j hj

/-- A task takes the tokens. -/
theorem Inv.acquire {next : Tokens → Program α} {r : Tokens} {s : Vault}
    (h : Inv id clientId tokenServer l w) (ht : w.task i = .running (.ask (.acquire id) next))
    (hr : w.state.step (.acquire id) = .reply r s) :
    Inv id clientId tokenServer (l.note id (i, .inner (.acquire id) r))
      (w.set i s (.running (next r))) := by
  obtain ⟨hidle, rfl, rfl⟩ := h.idle_of_acquire hr
  have hi : i ∉ l.holders := by
    rw [hidle.holders_eq]
    exact List.not_mem_nil
  have hobeys := h.obeys_free hi
  rw [ht] at hobeys
  have hexpected : Expected id clientId tokenServer (.acquire id) (w.state.tokensOf id) := by
    intro _
    rw [hidle.tokens_eq, TokenSet.ofTokens_tokens]
  have hothers : ∀ j, j ≠ i → Obeys id clientId tokenServer .free (w.task j).program :=
    fun j _ => h.obeys_free (by rw [hidle.holders_eq]; exact List.not_mem_nil)
  exact .of_passes ⟨h.sound.registry, h.sound.created⟩ (.holds (hidle.acquire i))
    (hobeys.2 _ fun _ => hexpected) hothers

/-- A call that the vault answers. -/
theorem Inv.inner {c : Call} {next : Reply c → Program α} {r : Reply c} {s : Vault}
    (h : Inv id clientId tokenServer l w) (ht : w.task i = .running (.ask c next))
    (hr : w.state.step c = .reply r s) :
    Inv id clientId tokenServer (l.note id (i, .inner c r)) (w.set i s (.running (next r))) := by
  by_cases hi : i ∈ l.holders
  · obtain ⟨stage, hbusy, hobeys, hothers⟩ := h.busy_of_mem hi
    rw [ht] at hobeys
    obtain ⟨hpasses, hregistry, hcreated⟩ := hbusy.step hobeys.1 hr
    have hsound : Sound id clientId tokenServer s :=
      ⟨hregistry ▸ h.sound.registry, hcreated ▸ h.sound.created⟩
    have hstage : stage ≠ .free := by
      rintro rfl
      exact hbusy.fits
    exact .of_passes hsound hpasses (hobeys.2 r fun hfree => absurd hfree hstage) hothers
  · -- Without the tokens, only taking them touches the session.
    by_cases hc : c = .acquire id
    · subst hc
      exact h.acquire ht hr
    · have hobeys := h.obeys_free hi
      rw [ht] at hobeys
      obtain ⟨hsound, hexpected, hspares, hafter⟩ :=
        Vault.step_of_free h.sound hobeys.1 hc hr
      have hnext := hobeys.2 r fun _ => hexpected
      rw [hafter] at hnext
      rw [Ledger.note_inner_of_free r hobeys.1 hc]
      exact h.of_spares hi hsound hspares hnext

/-- A reply from outside. -/
theorem Inv.answered {c : Call} {next : Reply c → Program α} (r : Reply c)
    (h : Inv id clientId tokenServer l w) (ht : w.task i = .waiting c next)
    (hc : c.isOuter = true) :
    Inv id clientId tokenServer (l.note id (i, .answered c r))
      (w.set i w.state (.running (next r))) := by
  by_cases hi : i ∈ l.holders
  · obtain ⟨stage, hbusy, hobeys, hothers⟩ := h.busy_of_mem hi
    rw [ht] at hobeys
    have hstage : stage ≠ .free := by
      rintro rfl
      exact hbusy.fits
    exact .of_passes h.sound (.holds (hbusy.answered r hobeys.1 hc))
      (hobeys.2 r fun hfree => absurd hfree hstage) hothers
  · have hobeys := h.obeys_free hi
    rw [ht] at hobeys
    obtain ⟨hexpected, hafter⟩ := free_of_outer id clientId tokenServer r hc
    have hnext := hobeys.2 r fun _ => hexpected
    rw [hafter] at hnext
    rw [Ledger.note_answered_of_free r hi]
    exact h.of_spares hi h.sound ⟨rfl, Iff.rfl⟩ hnext

/-- A question that is put outside. -/
theorem Inv.asked {c : Call} {next : Reply c → Program α} (h : Inv id clientId tokenServer l w)
    (ht : w.task i = .running (.ask c next)) :
    Inv id clientId tokenServer (l.note id (i, .asked c))
      (w.set i w.state (.waiting c next)) := by
  have hprogram : ∀ j, ((w.set i w.state (.waiting c next)).task j).program =
      (w.task j).program := by
    intro j
    by_cases hj : j = i
    · subst hj
      rw [World.set_task_self, ht]
      rfl
    · rw [World.set_task_of_ne w hj]
  show Inv id clientId tokenServer l _
  cases h with
  | idle hsound hidle hobeys =>
    exact .idle hsound hidle fun j => (hprogram j).symm ▸ hobeys j
  | busy k stage hsound hbusy hobeys hothers =>
    exact .busy k stage hsound hbusy ((hprogram k).symm ▸ hobeys)
      fun j hj => (hprogram j).symm ▸ hothers j hj

/-- What every trace keeps. -/
theorem inv_of_reaches {w₀ : Tasks ι α} {p : ι → Program α} {t : TokenSet}
    {log : Trace interface ι} (h₀ : Inv id clientId tokenServer ({ tokens := t } : Ledger ι) w₀)
    (hp : ∀ i, w₀.task i = .running (p i)) (h : World.Reaches Vault.step w₀ log w) :
    Inv id clientId tokenServer (Ledger.ofTrace id t log) w := by
  induction h with
  | start => exact h₀
  | @step log w e w' hreach hs ih =>
    rw [Ledger.ofTrace_snoc]
    cases hs with
    | inner ht hr => exact ih.inner ht hr
    | asked ht hr => exact ih.asked ht
    | answered r ht =>
      obtain ⟨v, hv⟩ := hreach.outside_of_waiting hp ht
      exact ih.answered r ht (Vault.step_eq_outside_iff.mp hv)

/-- A session that is over stays so. -/
theorem Inv.ended_note {e : ι × Event interface} {w' : Tasks ι α}
    (h : Inv id clientId tokenServer l w) (hs : World.Step Vault.step w e w')
    (hended : l.tokens.access = "") : (l.note id e).tokens.access = "" := by
  obtain ⟨i, e⟩ := e
  rcases Ledger.note_cases id l i e with ⟨htokens, _⟩ | ⟨o, answer, rfl, hi, _⟩ |
    ⟨clock, htokens, _⟩
  · rw [htokens]
    exact hended
  · cases hs with
    | answered r ht =>
      have hprogram := congrArg Task.program ht
      exact absurd hended (h.request_of_mem hi hprogram).1
  · rw [htokens]
    exact hended

/-- After a refusal the session is over. -/
theorem ended_of_refused {w₀ : Tasks ι α} {p : ι → Program α} {t : TokenSet}
    {log : Trace interface ι} (h₀ : Inv id clientId tokenServer ({ tokens := t } : Ledger ι) w₀)
    (hp : ∀ i, w₀.task i = .running (p i)) (h : World.Reaches Vault.step w₀ log w) {r : Response}
    (hr : Refuses r) (hmem : .ok r ∈ (Ledger.ofTrace id t log).answers) :
    (Ledger.ofTrace id t log).tokens.access = "" := by
  induction h with
  | start => exact absurd hmem List.not_mem_nil
  | @step log w e w' hreach hs ih =>
    have hinv := inv_of_reaches h₀ hp hreach
    rw [Ledger.ofTrace_snoc] at hmem ⊢
    -- The refusal came before, or it is what this step brought.
    by_cases hold : .ok r ∈ (Ledger.ofTrace id t log).answers
    · exact hinv.ended_note hs (ih hold)
    · obtain ⟨i, e⟩ := e
      rcases Ledger.note_cases id (Ledger.ofTrace id t log) i e with ⟨_, hanswers⟩ |
        ⟨o, answer, _, _, hheard⟩ | ⟨clock, _, hanswers⟩
      · rw [hanswers] at hmem
        exact absurd hmem hold
      · rw [hheard] at hmem ⊢
        rw [Ledger.answers_heard, List.mem_append, List.mem_singleton] at hmem
        obtain rfl := hmem.resolve_left hold
        obtain ⟨reason, ho⟩ := rejected_of_refuses hr
        simp only [Ledger.heard, ho]
        rfl
      · rw [hanswers] at hmem
        exact absurd hmem hold

/-- Tasks at their start, one for each operation. -/
def begun (v : Vault) (ops : ι → Operation) : Tasks ι Result where
  state := v
  task i := .running (ops i).program

/-- A session that nobody holds, with these tokens. -/
structure Starts (id : Nat) (clientId tokenServer : String) (t : TokenSet) (v : Vault) : Prop where
  sound : Sound id clientId tokenServer v
  tokens_eq : v.tokensOf id = t.tokens
  not_held : id ∉ v.held

/-- A session that has just been registered. -/
theorem starts_of_create (c : Credentials) {v : Vault} (starts : List String)
    (hregistry : ∀ record ∈ v.registry, record.handle.id ≠ v.created)
    (hfree : v.created ∉ v.held) :
    let created := v.create (.bearer (.ofCredentials c))
    Starts v.created c.clientId c.tokenServer (.ofCredentials c)
      { created.2 with registry := created.2.registry.enrol starts created.1 } where
  sound.registry record hr := by
    rcases Registry.mem_of_mem_enrol hr with heq | hmem
    · rw [heq]
      exact fun _ => rfl
    · exact fun heq => absurd heq (hregistry record hmem)
  sound.created := Nat.lt_succ_self v.created
  tokens_eq := Vault.tokensOf_create_bearer v c
  not_held := hfree

omit [DecidableEq ι] in
theorem inv_begun {t : TokenSet} {ops : ι → Operation}
    (hops : ∀ i, (ops i).Uses id clientId tokenServer)
    (hv : Starts id clientId tokenServer t v) :
    Inv id clientId tokenServer ({ tokens := t } : Ledger ι) (begun v ops) :=
  .idle hv.sound ⟨rfl, hv.tokens_eq, rfl, hv.not_held⟩ fun i => obeys_operation (hops i)

end AccountGate.Auth
