import AccountGate.Proofs.Auth.Turn

/-!
A question for the header as a turn of the machine. Main statements: the runs of a question that
is alone are exactly the turns of the machine, and so are the runs of questions in a row; and
what a session holds after them are the tokens that the server issued last.
-/

namespace AccountGate.Auth

open Program

theorem decision_of_expired {t : Tokens} (h : t.status = .expired) :
    decision t = .done .expired := by
  rw [decision, if_pos h]
  rfl

theorem decision_of_live {t : Tokens} (h : t.status ≠ .expired) :
    decision t = .ask .clock fun clock =>
      .done (if t.isFresh (max 0 clock) then .current else .refresh) := by
  rw [decision, if_neg h]
  rfl

def leave (id : Nat) (a : Authorization) : Program Authorization :=
  .ask (.release id) fun _ => .done a

/-- The end of a refresh: the tokens are put, the outcome is counted, the session is free. -/
def finish (id : Nat) (t : Tokens) (counter : Counter) : Program Authorization :=
  .ask (.update id t) fun _ => .ask (.count counter) fun _ => leave id t.answer

theorem bearerHeader_eq (id : Nat) (clientId tokenServer : String) :
    bearerHeader id clientId tokenServer = .ask (.acquire id) fun t =>
      if t.status = .expired then leave id t.answer
      else .ask .clock fun clock =>
        if t.isFresh (max 0 clock) then leave id t.answer
        else .ask (.update id { t with status := .refreshing }) fun _ =>
          .ask (.send (refreshRequest clientId tokenServer t.refresh.value)) fun a =>
            (settled t (refreshOutcome a)).bind fun t' =>
              finish id t' (counterOf (refreshOutcome a)) := by
  apply congrArg (Flow.ask (I := interface) (Call.acquire id))
  funext t
  show (decision t).bind _ = _
  by_cases h : t.status = .expired
  · rw [decision_of_expired h, if_pos h]
    rfl
  · rw [decision_of_live h, if_neg h]
    apply congrArg (Flow.ask (I := interface) Call.clock)
    funext clock
    beta_reduce
    by_cases hf : t.isFresh (max 0 clock) = true
    · rw [if_pos hf, if_pos hf]
      rfl
    · rw [if_neg hf, if_neg hf]
      rfl

/-- Only the tokens of one session have changed, to the given ones. -/
structure Moved (id : Nat) (t : TokenSet) (v v' : Vault) : Prop where
  tokens_eq : v'.tokensOf id = t.tokens
  others_eq : ∀ other, other ≠ id → v'.tokensOf other = v.tokensOf other
  registry_eq : v'.registry = v.registry
  held_eq : v'.held = v.held
  created_eq : v'.created = v.created

theorem Moved.trans {id : Nat} {t t' : TokenSet} {v v' v'' : Vault} (h : Moved id t v v')
    (h' : Moved id t' v' v'') : Moved id t' v v'' where
  tokens_eq := h'.tokens_eq
  others_eq other hne := (h'.others_eq other hne).trans (h.others_eq other hne)
  registry_eq := h'.registry_eq.trans h.registry_eq
  held_eq := h'.held_eq.trans h.held_eq
  created_eq := h'.created_eq.trans h.created_eq

namespace Vault

variable {v v' : Vault} {id : Nat} {log : Log} {a b : Authorization} {t : TokenSet}
  {clientId tokenServer : String}

def hold (v : Vault) (id : Nat) : Vault := { v with held := id :: v.held }

theorem step_acquire_of_free (h : id ∉ v.held) :
    v.step (.acquire id) = .reply (v.tokensOf id) (v.hold id) := by
  simp [step, h, hold]

theorem step_release_hold (h : id ∉ v.held) : (v.hold id).step (.release id) = .reply () v := by
  have hrest : v.held.filter (· != id) = v.held := by
    apply List.filter_eq_self.mpr
    intro other hm
    have hne : other ≠ id := fun heq => h (heq ▸ hm)
    simpa using hne
  simp [step, hold, hrest]

theorem alone_leave_iff (h : id ∉ v.held) :
    Flow.Alone step (leave id a) (v.hold id) log b v' ↔ log = [] ∧ a = b ∧ v = v' := by
  rw [leave, Flow.alone_ask_of_reply (step_release_hold h), Flow.alone_done_iff]

theorem alone_finish_iff (h : id ∉ v.held) {t : Tokens} {counter : Counter} :
    Flow.Alone step (finish id t counter) (v.hold id) log a v' ↔
      log = [counted counter] ∧ t.answer = a ∧ v.putTokens id t = v' := by
  have hput : (v.hold id).step (.update id t) = .reply () ((v.putTokens id t).hold id) := rfl
  have hcount : ((v.putTokens id t).hold id).step (.count counter) = .outside := rfl
  have hfree : id ∉ (v.putTokens id t).held := h
  rw [finish, Flow.alone_ask_of_reply hput, Flow.alone_ask_of_outside hcount]
  constructor
  · rintro ⟨⟨⟩, rest, rfl, hrest⟩
    obtain ⟨rfl, ha, hv⟩ := (alone_leave_iff hfree).mp hrest
    exact ⟨rfl, ha, hv⟩
  · rintro ⟨rfl, ha, hv⟩
    exact ⟨(), [], rfl, (alone_leave_iff hfree).mpr ⟨rfl, ha, hv⟩⟩

/-- New tokens are stamped by the clock before they are put. -/
theorem alone_renewed_iff (h : id ∉ v.held) {t : Tokens} {response : TokenResponse}
    {counter : Counter} :
    Flow.Alone step ((settled t (.refreshed response)).bind fun t' => finish id t' counter)
        (v.hold id) log a v' ↔
      ∃ later, log = [read later, counted counter] ∧
        (t.renewed response (max 0 later)).answer = a ∧
        v.putTokens id (t.renewed response (max 0 later)) = v' := by
  have hclock : (v.hold id).step .clock = .outside := rfl
  have hbind : (settled t (.refreshed response)).bind (fun t' => finish id t' counter) =
      .ask .clock fun later => finish id (t.renewed response (max 0 later)) counter := rfl
  rw [hbind, Flow.alone_ask_of_outside hclock]
  apply exists_congr
  intro later
  constructor
  · rintro ⟨rest, rfl, hrest⟩
    obtain ⟨rfl, ha, hv⟩ := (alone_finish_iff h).mp hrest
    exact ⟨rfl, ha, hv⟩
  · rintro ⟨rfl, ha, hv⟩
    exact ⟨_, rfl, (alone_finish_iff h).mpr ⟨rfl, ha, hv⟩⟩

/-- A session that is over. -/
theorem alone_bearerHeader_of_ended (hfree : id ∉ v.held) (hv : v.tokensOf id = t.tokens)
    (ht : t.access = "") :
    Flow.Alone step (bearerHeader id clientId tokenServer) v log a v' ↔
      log = [] ∧ .expired = a ∧ v = v' := by
  rw [bearerHeader_eq, Flow.alone_ask_of_reply (step_acquire_of_free hfree), hv,
    if_pos (TokenSet.status_tokens_eq_expired_iff.mpr ht), alone_leave_iff hfree,
    TokenSet.answer_tokens_of_ended ht]

/-- The tokens of a session whose refresh is under way. -/
def refreshing (v : Vault) (id : Nat) (t : TokenSet) : Vault :=
  v.putTokens id { t.tokens with status := .refreshing }

/-- A live session: the clock decides whether a refresh follows. -/
theorem alone_bearerHeader_of_live (hfree : id ∉ v.held) (hv : v.tokensOf id = t.tokens)
    (ht : t.access ≠ "") :
    Flow.Alone step (bearerHeader id clientId tokenServer) v log a v' ↔
      ∃ clock rest, log = read clock :: rest ∧
        (t.Fresh clock ∧ rest = [] ∧ .header "Bearer" t.access = a ∧ v = v' ∨
        ¬ t.Fresh clock ∧ ∃ answer rest',
          rest = posted clientId tokenServer t.refresh answer :: rest' ∧
          Flow.Alone step ((settled t.tokens (refreshOutcome answer)).bind fun t' =>
            finish id t' (counterOf (refreshOutcome answer)))
            ((v.refreshing id t).hold id) rest' a v') := by
  have hclock : (v.hold id).step .clock = .outside := rfl
  have hmark : (v.hold id).step (.update id { t.tokens with status := .refreshing }) =
      .reply () ((v.refreshing id t).hold id) := rfl
  have hsend (o : Outgoing) : ((v.refreshing id t).hold id).step (.send o) = .outside := rfl
  have hlive : t.tokens.status ≠ .expired := fun h =>
    ht (TokenSet.status_tokens_eq_expired_iff.mp h)
  rw [bearerHeader_eq, Flow.alone_ask_of_reply (step_acquire_of_free hfree), hv, if_neg hlive,
    Flow.alone_ask_of_outside hclock]
  apply exists_congr
  intro clock
  apply exists_congr
  intro rest
  apply and_congr_right
  intro _
  by_cases hf : t.Fresh clock
  · rw [if_pos (TokenSet.isFresh_tokens_iff.mpr hf), alone_leave_iff hfree,
      TokenSet.answer_tokens_of_live ht]
    simp [hf]
  · rw [if_neg (mt TokenSet.isFresh_tokens_iff.mp hf), Flow.alone_ask_of_reply hmark,
      Flow.alone_ask_of_outside (hsend _)]
    simp only [hf, false_and, not_false_eq_true, true_and, false_or]
    rfl

theorem moved_self (hv : v.tokensOf id = t.tokens) : Moved id t v v :=
  ⟨hv, fun _ _ => rfl, rfl, rfl, rfl⟩

theorem moved_putTokens (v : Vault) (id : Nat) (t t' : TokenSet) :
    Moved id t' v ((v.refreshing id t).putTokens id t'.tokens) where
  tokens_eq := by rw [tokensOf_putTokens, if_pos rfl]
  others_eq other hne := by
    rw [tokensOf_putTokens, if_neg hne, refreshing, tokensOf_putTokens, if_neg hne]
  registry_eq := rfl
  held_eq := rfl
  created_eq := rfl

/-- Every run of a question for the header is a turn of the machine. -/
theorem turn_of_alone (hfree : id ∉ v.held) (hv : v.tokensOf id = t.tokens)
    (h : Flow.Alone step (bearerHeader id clientId tokenServer) v log a v') :
    ∃ t', Turn clientId tokenServer t log a t' ∧ Moved id t' v v' := by
  by_cases ht : t.access = ""
  · obtain ⟨rfl, rfl, rfl⟩ := (alone_bearerHeader_of_ended hfree hv ht).mp h
    exact ⟨t, .ended ht, moved_self hv⟩
  · obtain ⟨clock, rest, rfl, hcase⟩ := (alone_bearerHeader_of_live hfree hv ht).mp h
    rcases hcase with ⟨hf, rfl, rfl, rfl⟩ | ⟨hf, answer, rest, rfl, hrest⟩
    · exact ⟨t, .current clock ht hf, moved_self hv⟩
    · -- The request has gone out; its answer decides what is put.
      have hfree' : id ∉ (v.refreshing id t).held := hfree
      cases answer with
      | error cause =>
        obtain ⟨rfl, rfl, rfl⟩ := (alone_finish_iff hfree').mp hrest
        rw [TokenSet.kept_tokens ht, TokenSet.answer_tokens_of_live ht]
        exact ⟨t, .unanswered clock cause ht hf, moved_putTokens v id t t⟩
      | ok r =>
        cases ho : refreshOutcome (.ok r) with
        | unreachable cause => exact absurd ho (refreshOutcome_ok_ne_unreachable r cause)
        | rejected reason =>
          rw [ho] at hrest
          obtain ⟨rfl, rfl, rfl⟩ := (alone_finish_iff hfree').mp hrest
          rw [TokenSet.refused_tokens, TokenSet.answer_tokens_of_ended rfl]
          exact ⟨t.refused, .refused clock r ht hf (refuses_of_rejected ho),
            moved_putTokens v id t t.refused⟩
        | refreshed response =>
          rw [ho] at hrest
          obtain ⟨later, rfl, rfl, rfl⟩ := (alone_renewed_iff hfree').mp hrest
          rw [TokenSet.renewed_tokens ht, TokenSet.answer_tokens_of_accepted ht]
          exact ⟨_, .accepted clock later r response ht hf
            (refreshOutcome_eq_refreshed_iff.mp ho), moved_putTokens v id t _⟩

/-- Every turn of the machine is a run of a question for the header. -/
theorem alone_of_turn {t' : TokenSet} (hfree : id ∉ v.held) (hv : v.tokensOf id = t.tokens)
    (h : Turn clientId tokenServer t log a t') :
    ∃ v', Flow.Alone step (bearerHeader id clientId tokenServer) v log a v' ∧
      Moved id t' v v' := by
  have hfree' : id ∉ (v.refreshing id t).held := hfree
  cases h with
  | ended ht =>
    exact ⟨v, (alone_bearerHeader_of_ended hfree hv ht).mpr ⟨rfl, rfl, rfl⟩, moved_self hv⟩
  | current clock ht hf =>
    refine ⟨v, (alone_bearerHeader_of_live hfree hv ht).mpr ?_, moved_self hv⟩
    exact ⟨clock, [], rfl, .inl ⟨hf, rfl, rfl, rfl⟩⟩
  | unanswered clock cause ht hf =>
    refine ⟨_, (alone_bearerHeader_of_live hfree hv ht).mpr ?_, moved_putTokens v id t t⟩
    refine ⟨clock, _, rfl, .inr ⟨hf, .error cause, _, rfl, ?_⟩⟩
    apply (alone_finish_iff hfree').mpr
    rw [TokenSet.kept_tokens ht, TokenSet.answer_tokens_of_live ht]
    exact ⟨rfl, rfl, rfl⟩
  | refused clock r ht hf hr =>
    obtain ⟨reason, ho⟩ := rejected_of_refuses hr
    refine ⟨_, (alone_bearerHeader_of_live hfree hv ht).mpr ?_, moved_putTokens v id t t.refused⟩
    refine ⟨clock, _, rfl, .inr ⟨hf, .ok r, _, rfl, ?_⟩⟩
    rw [ho]
    apply (alone_finish_iff hfree').mpr
    rw [TokenSet.refused_tokens, TokenSet.answer_tokens_of_ended rfl]
    exact ⟨rfl, rfl, rfl⟩
  | accepted clock later r response ht hf hr =>
    have ho := refreshOutcome_eq_refreshed_iff.mpr hr
    refine ⟨_, (alone_bearerHeader_of_live hfree hv ht).mpr ?_, moved_putTokens v id t _⟩
    refine ⟨clock, _, rfl, .inr ⟨hf, .ok r, _, rfl, ?_⟩⟩
    rw [ho]
    apply (alone_renewed_iff hfree').mpr
    refine ⟨later, rfl, ?_⟩
    rw [TokenSet.renewed_tokens ht, TokenSet.answer_tokens_of_accepted ht]
    exact ⟨rfl, rfl⟩

theorem turns_of_inRow {turns : List (Log × Authorization)} (hfree : id ∉ v.held)
    (hv : v.tokensOf id = t.tokens)
    (h : Flow.InRow step (bearerHeader id clientId tokenServer) v turns v') :
    ∃ t', Turns clientId tokenServer t turns t' ∧ Moved id t' v v' := by
  induction h generalizing t with
  | nil v => exact ⟨t, .nil t, moved_self hv⟩
  | cons hrun hrest ih =>
    -- A question leaves the session free, so the next one finds it as a turn needs it.
    obtain ⟨t', hturn, hmoved⟩ := turn_of_alone hfree hv hrun
    have hfree' := hfree
    rw [← hmoved.held_eq] at hfree'
    obtain ⟨u, hturns, hmoved'⟩ := ih hfree' hmoved.tokens_eq
    exact ⟨u, .cons hturn hturns, hmoved.trans hmoved'⟩

theorem inRow_of_turns {turns : List (Log × Authorization)} {t' : TokenSet} (hfree : id ∉ v.held)
    (hv : v.tokensOf id = t.tokens) (h : Turns clientId tokenServer t turns t') :
    ∃ v', Flow.InRow step (bearerHeader id clientId tokenServer) v turns v' ∧
      Moved id t' v v' := by
  induction h generalizing v with
  | nil t => exact ⟨v, .nil v, moved_self hv⟩
  | cons hturn hturns ih =>
    obtain ⟨middle, hrun, hmoved⟩ := alone_of_turn hfree hv hturn
    have hfree' := hfree
    rw [← hmoved.held_eq] at hfree'
    obtain ⟨v', hrest, hmoved'⟩ := ih hfree' hmoved.tokens_eq
    exact ⟨v', .cons hrun hrest, hmoved.trans hmoved'⟩

/-- A session that has just been taken into use holds the tokens of its credentials. -/
theorem tokensOf_create_bearer (v : Vault) (c : Credentials) :
    (v.create (.bearer (.ofCredentials c))).2.tokensOf v.created =
      (TokenSet.ofCredentials c).tokens := by
  show (v.putTokens v.created (Bearer.ofCredentials c).tokens).tokensOf v.created = _
  rw [tokensOf_putTokens, if_pos rfl]
  rfl

end Vault

end AccountGate.Auth
