import AccountGate.Proofs.Auth.Shared

/-!
What a program has done so far, read off the replies that it got. Main statements: who asks for the
header of a session holds its tokens from the reply that brought them until the end, and has then
made a turn of the machine; and whoever tells the token server that a session is over has taken and
released its tokens before.
-/

namespace AccountGate.Auth

open Program AccountGate.Flow

/-- The exchanges with the outside. -/
def outer (xs : List (Exchange interface)) : Log := xs.filter fun x => x.call.isOuter

variable {id : Nat} {clientId tokenServer : String} {α β : Type}
  {P Q : List (Exchange interface) → α → Prop} {xs : List (Exchange interface)} {p q : Program α}

/-- A program that has not released the tokens, and has a call before it. -/
structure Holding (id : Nat) (xs : List (Exchange interface)) (q : Program α) : Prop where
  kept : (⟨.release id, ()⟩ : Exchange interface) ∉ xs
  goes_on : ∃ c next, q = .ask c next

/-- A program that holds the tokens until it is done, with replies and a result as described. -/
def Ends (id : Nat) (P : List (Exchange interface) → α → Prop) (xs : List (Exchange interface))
    (q : Program α) : Prop :=
  Holding id xs q ∨ ∃ a, q = .done a ∧ P xs a

theorem Ends.mono (h : Ends id P xs q) (hPQ : ∀ a, P xs a → Q xs a) : Ends id Q xs q := by
  rcases h with hheld | ⟨a, rfl, ha⟩
  · exact .inl hheld
  · exact .inr ⟨a, rfl, hPQ a ha⟩

theorem ends_ask {c : Call} {next : Reply c → Program α} (hc : c ≠ .release id)
    (h : Path (I := interface) (.ask c next) xs q)
    (hnext : ∀ r rest, Path (next r) rest q → Ends id (fun ys a => P (⟨c, r⟩ :: ys) a) rest q) :
    Ends id P xs q := by
  rcases path_ask_iff.mp h with ⟨rfl, rfl⟩ | ⟨r, rest, rfl, hrest⟩
  · exact .inl ⟨List.not_mem_nil, c, next, rfl⟩
  · rcases hnext r rest hrest with ⟨hkept, hgoes⟩ | hdone
    · refine .inl ⟨?_, hgoes⟩
      rintro (_ | ⟨_, hmem⟩)
      · exact hc rfl
      · exact hkept hmem
    · exact .inr hdone

theorem ends_leave {a : Authorization} {q : Program Authorization} (h : Path (leave id a) xs q) :
    Ends id (fun ys b => outer ys = [] ∧ b = a) xs q := by
  rcases path_ask_iff.mp h with ⟨rfl, rfl⟩ | ⟨⟨⟩, rest, rfl, hrest⟩
  · exact .inl ⟨List.not_mem_nil, _, _, rfl⟩
  · obtain ⟨rfl, rfl⟩ := path_done_iff.mp hrest
    exact .inr ⟨a, rfl, rfl, rfl⟩

theorem ends_finish {t : Tokens} {counter : Counter} {q : Program Authorization}
    (h : Path (finish id t counter) xs q) :
    Ends id (fun ys b => outer ys = [counted counter] ∧ b = t.answer) xs q := by
  refine ends_ask (by simp) h fun _ _ h => ?_
  refine ends_ask (by simp) h fun _ _ h => ?_
  exact (ends_leave h).mono fun a ⟨hys, ha⟩ => ⟨congrArg (List.cons _) hys, ha⟩

/-- What follows the answer to a refresh, as the last part of a turn. -/
theorem ends_settled {t : TokenSet} (ht : t.access ≠ "") {clock : Int} (hf : ¬ t.Fresh clock)
    (answer : Answer) {q : Program Authorization}
    (h : Path ((settled t.tokens (refreshOutcome answer)).bind fun t' =>
      finish id t' (counterOf (refreshOutcome answer))) xs q) :
    Ends id (fun ys a => ∃ t', Turn clientId tokenServer t
      (read clock :: posted clientId tokenServer t.refresh answer :: outer ys) a t') xs q := by
  cases answer with
  | error cause =>
    refine (ends_finish h).mono fun a ⟨hys, ha⟩ => ⟨t, ?_⟩
    rw [TokenSet.kept_tokens ht, TokenSet.answer_tokens_of_live ht] at ha
    rw [hys, ha]
    exact .unanswered clock cause ht hf
  | ok r =>
    cases ho : refreshOutcome (.ok r) with
    | unreachable cause => exact absurd ho (refreshOutcome_ok_ne_unreachable r cause)
    | rejected reason =>
      rw [ho] at h
      refine (ends_finish h).mono fun a ⟨hys, ha⟩ => ⟨t.refused, ?_⟩
      rw [TokenSet.refused_tokens, TokenSet.answer_tokens_of_ended rfl] at ha
      rw [hys, ha]
      exact .refused clock r ht hf (refuses_of_rejected ho)
    | refreshed response =>
      rw [ho] at h
      refine ends_ask (c := .clock) (by simp) h fun later rest h => ?_
      refine (ends_finish h).mono fun a ⟨hys, ha⟩ => ⟨(t.accepted response).stamped later, ?_⟩
      rw [TokenSet.renewed_tokens ht, TokenSet.answer_tokens_of_accepted ht] at ha
      have hclock : outer (⟨.clock, later⟩ :: rest) = read later :: outer rest := rfl
      rw [hclock, hys, ha]
      exact .accepted clock later r response ht hf (refreshOutcome_eq_refreshed_iff.mp ho)

/-- Who has the tokens makes a turn with them. -/
theorem path_bearerHeader {q : Program Authorization}
    (h : Path (bearerHeader id clientId tokenServer) xs q) :
    (xs = [] ∧ ∃ next, q = .ask (.acquire id) next) ∨
    ∃ r rest, xs = ⟨.acquire id, r⟩ :: rest ∧ ∀ t : TokenSet, r = t.tokens →
      Ends id (fun ys a => ∃ t', Turn clientId tokenServer t (outer ys) a t') rest q := by
  rw [bearerHeader_eq] at h
  rcases path_ask_iff.mp h with ⟨rfl, rfl⟩ | ⟨r, rest, rfl, hrest⟩
  · exact .inl ⟨rfl, _, rfl⟩
  · refine .inr ⟨r, rest, rfl, ?_⟩
    rintro t rfl
    by_cases ht : t.access = ""
    · rw [if_pos (TokenSet.status_tokens_eq_expired_iff.mpr ht)] at hrest
      refine (ends_leave hrest).mono fun a ⟨hys, ha⟩ => ⟨t, ?_⟩
      rw [hys, ha, TokenSet.answer_tokens_of_ended ht]
      exact .ended ht
    · rw [if_neg (mt TokenSet.status_tokens_eq_expired_iff.mp ht)] at hrest
      refine ends_ask (by simp) hrest fun clock rest h => ?_
      by_cases hf : t.Fresh clock
      · rw [if_pos (TokenSet.isFresh_tokens_iff.mpr hf)] at h
        refine (ends_leave h).mono fun a ⟨hys, ha⟩ => ⟨t, ?_⟩
        have hclock : outer (⟨.clock, clock⟩ :: rest) = read clock :: outer rest := rfl
        rw [hclock, hys, ha, TokenSet.answer_tokens_of_live ht]
        exact .current clock ht hf
      · rw [if_neg (mt TokenSet.isFresh_tokens_iff.mp hf)] at h
        refine ends_ask (by simp) h fun _ rest h => ?_
        refine ends_ask (by simp) h fun answer rest h => ?_
        exact ends_settled ht hf answer h

/-- Who asks for the header of a session: with its strategy, or at an address that led to it. -/
inductive Asks (handle : Handle) : Operation → List (Exchange interface) → Prop
  | header (xs : List (Exchange interface)) : Asks handle (.header handle) xs
  | resolve {url : String} {xs : List (Exchange interface)} :
      xs.head? = some ⟨.find url, some handle⟩ → Asks handle (.resolve url) xs

/-- Who asks for the header goes on asking. -/
theorem Asks.append {handle : Handle} {op : Operation} {xs : List (Exchange interface)}
    (h : Asks handle op xs) (ys : List (Exchange interface)) : Asks handle op (xs ++ ys) := by
  cases h with
  | header => exact .header _
  | resolve hfound =>
    apply Asks.resolve
    rw [List.head?_append, hfound]
    rfl

/-- What is left of an operation that asks for the header is what is left of the question. -/
theorem path_of_asks {op : Operation} {q : Program Result} (h : Path op.program xs q)
    (ha : Asks (.bearer id clientId tokenServer) op xs) :
    ∃ front rest p, xs = front ++ rest ∧ outer front = [] ∧
      Path (bearerHeader id clientId tokenServer) rest p ∧
      q = p.bind fun a => .done (.authorization a) := by
  cases ha with
  | header =>
    obtain ⟨p, hp, rfl⟩ := Path.of_bind_done h
    exact ⟨[], xs, p, rfl, rfl, hp, rfl⟩
  | @resolve url _ hfound =>
    obtain ⟨p, hp, rfl⟩ := Path.of_bind_done h
    rcases path_ask_iff.mp hp with ⟨rfl, _⟩ | ⟨found, rest, rfl, hrest⟩
    · exact absurd hfound (by simp)
    · have hshared : found = some (.bearer id clientId tokenServer) := by simpa using hfound
      subst hshared
      exact ⟨[⟨.find url, _⟩], rest, p, rfl, rfl, hrest, rfl⟩

/-- The request that ends a session at the token server. -/
def revokeRequest (logoutUrl clientId refreshToken : String) : Outgoing where
  request := .postForm logoutUrl [("client_id", clientId), ("refresh_token", refreshToken)]
  suspended := true

/-- With a logout address, a session that is removed is read, and then revoked. -/
theorem unregister_eq (start logoutUrl : String) :
    unregister start (some logoutUrl) = .ask (.remove start) fun found =>
      match found with
      | some (.bearer id client _) => .ask (.acquire id) fun t => .ask (.release id) fun _ =>
          .ask (.send (revokeRequest logoutUrl client t.refresh.value)) fun _ => .done true
      | some (.basic _ _) => .done true
      | none => .done false := by
  apply congrArg (Flow.ask (I := interface) (Call.remove start))
  funext found
  rcases found with _ | ⟨id, encoded⟩ | ⟨id, client, server⟩ <;> rfl

/-- The request of a removal revokes a token that was read before. -/
theorem path_unregister {start logoutUrl : String} {o : Outgoing} {next : Answer → Program Bool}
    (h : Path (unregister start (some logoutUrl)) xs (.ask (.send o) next)) :
    ∃ other client server r, xs = [⟨.remove start, some (.bearer other client server)⟩,
        ⟨.acquire other, r⟩, ⟨.release other, ()⟩] ∧
      o = revokeRequest logoutUrl client r.refresh.value := by
  rw [unregister_eq] at h
  rcases path_ask_iff.mp h with ⟨_, hq⟩ | ⟨found, rest, rfl, hread⟩
  · exact absurd hq (by simp)
  rcases found with _ | ⟨other, encoded⟩ | ⟨other, client, server⟩
  · exact absurd (path_done_iff.mp hread).2 (by simp)
  · exact absurd (path_done_iff.mp hread).2 (by simp)
  rcases path_ask_iff.mp hread with ⟨_, hq⟩ | ⟨r, rest, rfl, hrelease⟩
  · exact absurd hq (by simp)
  rcases path_ask_iff.mp hrelease with ⟨_, hq⟩ | ⟨⟨⟩, rest, rfl, hsend⟩
  · exact absurd hq (by simp)
  rcases path_ask_iff.mp hsend with ⟨rfl, hq⟩ | ⟨_, rest, rfl, hdone⟩
  · obtain ⟨hcall, _⟩ := Flow.ask.inj hq
    exact ⟨other, client, server, r, rfl, Call.send.inj hcall⟩
  · exact absurd (path_done_iff.mp hdone).2 (by simp)

section Tasks

variable {ι : Type} [DecidableEq ι] {w₀ w : Tasks ι α} {log before after : Trace interface ι}
  {t : TokenSet} {i : ι}

/-- A reply that does not come from outside comes from the vault. -/
theorem inner_of_reply {prog : ι → Program α} (h : World.Reaches Vault.step w₀ log w)
    (hp : ∀ i, w₀.task i = .running (prog i)) {e : Event interface}
    (hlog : log = before ++ (i, e) :: after) {c : Call} {r : Reply c}
    (he : e.reply? = some ⟨c, r⟩) (hc : c.isOuter = false) :
    e = .inner c r ∧ ∃ w₁ s, World.Reaches Vault.step w₀ before w₁ ∧
      w₁.state.step c = .reply r s := by
  subst hlog
  obtain ⟨w₁, w₂, hreach, hs⟩ := h.split
  cases hs with
  | inner ht hr =>
    cases he
    exact ⟨rfl, w₁, _, hreach, hr⟩
  | asked ht hr => exact absurd he (by simp [Event.reply?])
  | answered r' ht =>
    cases he
    obtain ⟨v, hv⟩ := hreach.outside_of_waiting hp ht
    exact absurd (Vault.step_eq_outside_iff.mp hv) (by simp [hc])

/-- Tokens are taken when nobody holds them, and then they are those of the ledger. -/
theorem taken_of_reply {prog : ι → Program α}
    (h₀ : Inv id clientId tokenServer ({ tokens := t } : Ledger ι) w₀)
    (h : World.Reaches Vault.step w₀ log w) (hp : ∀ i, w₀.task i = .running (prog i))
    {e : Event interface} (hlog : log = before ++ (i, e) :: after) {r : Tokens}
    (he : e.reply? = some ⟨.acquire id, r⟩) :
    e = .inner (.acquire id) r ∧ (Ledger.ofTrace id t before).holders = [] ∧
      r = (Ledger.ofTrace id t before).tokens.tokens := by
  obtain ⟨rfl, w₁, s, hreach, hr⟩ := inner_of_reply h hp hlog he rfl
  obtain ⟨hidle, rfl, _⟩ := (inv_of_reaches h₀ hp hreach).idle_of_acquire hr
  exact ⟨rfl, hidle.holders_eq, hidle.tokens_eq⟩

/-- How far a task has come that asks for the header: it has still to take the tokens, or it took
them at some moment, and has since made a part of a turn with them, or all of it. -/
theorem reaches_of_asks {v : Vault} {ops : ι → Operation} {w : Tasks ι Result}
    (h₀ : Inv id clientId tokenServer ({ tokens := t } : Ledger ι) (begun v ops))
    (h : World.Reaches Vault.step (begun v ops) log w)
    (ha : Asks (.bearer id clientId tokenServer) (ops i) (World.repliesTo i log)) :
    (∃ next, (w.task i).program = .ask (.acquire id) next) ∨
    ∃ before r after p, log = before ++ (i, .inner (.acquire id) r) :: after ∧
      outer (World.repliesTo i before) = [] ∧ (Ledger.ofTrace id t before).holders = [] ∧
      r = (Ledger.ofTrace id t before).tokens.tokens ∧
      Ends id (fun ys a => ∃ t', Turn clientId tokenServer (Ledger.ofTrace id t before).tokens
        (outer ys) a t') (World.repliesTo i after) p ∧
      (w.task i).program = p.bind fun a => .done (.authorization a) := by
  have hp : ∀ i, (begun v ops).task i = .running (ops i).program := fun _ => rfl
  obtain ⟨front, rest, p, hreplies, hfront, hpath, hprogram⟩ := path_of_asks (h.path hp i) ha
  rcases path_bearerHeader hpath with ⟨_, next, rfl⟩ | ⟨r, ys, rfl, hends⟩
  · exact .inl ⟨_, hprogram⟩
  · -- The reply that brought the tokens cuts the trace.
    obtain ⟨before, e, after, hlog, he, rfl, rfl⟩ := World.split_of_repliesTo hreplies
    obtain ⟨rfl, hholders, htokens⟩ := taken_of_reply h₀ h hp hlog he
    exact .inr
      ⟨before, r, after, p, hlog, hfront, hholders, htokens, hends _ htokens, hprogram⟩

/-- Who asks for the header and is at a call that need not wait holds the tokens. -/
theorem holds_of_asks {v : Vault} {ops : ι → Operation} {w : Tasks ι Result}
    (h₀ : Inv id clientId tokenServer ({ tokens := t } : Ledger ι) (begun v ops))
    (h : World.Reaches Vault.step (begun v ops) log w)
    (ha : Asks (.bearer id clientId tokenServer) (ops i) (World.repliesTo i log)) {c : Call}
    {next : Reply c → Program Result} (ht : (w.task i).program = .ask c next)
    (hc : c ≠ .acquire id) : i ∈ (Ledger.ofTrace id t log).holders := by
  rcases reaches_of_asks h₀ h ha with ⟨next', ht'⟩ |
    ⟨before, r, after, p, rfl, _, _, _, hends, hprogram⟩
  · obtain ⟨hcall, _⟩ := Flow.ask.inj (ht.symm.trans ht')
    exact absurd hcall hc
  · rcases hends with ⟨hkept, _⟩ | ⟨a, rfl, _⟩
    · have htaken : i ∈ (Ledger.ofTrace id t (before ++ [(i, .inner (.acquire id) r)])).holders := by
        rw [Ledger.ofTrace_snoc]
        simp [Ledger.note]
      have hafter : (i, .inner (.release id) ()) ∉ after := fun hmem =>
        hkept (World.mem_repliesTo hmem rfl)
      have hmem := Ledger.mem_holders_append htaken hafter
      rwa [List.append_assoc] at hmem
    · exact absurd (ht.symm.trans hprogram) (by simp [Flow.bind])

end Tasks

end AccountGate.Auth
