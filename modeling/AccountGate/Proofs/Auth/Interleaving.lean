import AccountGate.Proofs.Auth.Progress

/-!
What callers of one session see of each other. Main statement: in every interleaving at most one
request for new tokens is on its way, and it carries the refresh token issued last; every caller
makes one turn of the machine with the tokens that those before it left, and can always get to its
answer; and a removal revokes a token that it read when no refresh was under way.
-/

namespace AccountGate.Auth

open Program AccountGate.Flow

variable {ι : Type} [DecidableEq ι] {id : Nat} {clientId tokenServer : String} {t : TokenSet}
  {v : Vault} {ops : ι → Operation} {w : Tasks ι Result} {log before after : Trace interface ι}
  {i : ι}

/-- A task whose requests are those of a session: it holds the tokens, or asks for the header. -/
def Serves (id : Nat) (clientId tokenServer : String) (t : TokenSet) (ops : ι → Operation)
    (log : Trace interface ι) (i : ι) : Prop :=
  i ∈ (Ledger.ofTrace id t log).holders ∨
    Asks (.bearer id clientId tokenServer) (ops i) (World.repliesTo i log)

/-- A task that waits for the answer to a request. -/
def InFlight (w : Tasks ι Result) (i : ι) : Prop := ∃ o next, w.task i = .waiting (.send o) next

/-- A task takes the tokens as the server left them, after all who held them have let go. -/
structure Takes (id : Nat) (t : TokenSet) (before : Trace interface ι) (r : Tokens) : Prop where
  tokens_eq : r = (Ledger.ofTrace id t before).tokens.tokens
  released : ∀ front rest j, before = front ++ rest → j ∈ (Ledger.ofTrace id t front).holders →
    (j, .inner (.release id) ()) ∈ rest

/-- What a caller exchanges with the outside and answers, when it took the tokens of a ledger. -/
structure Answers (clientId tokenServer : String) (first : TokenSet) (l : Ledger ι) (log : Log)
    (a : Authorization) : Prop where
  turn : ∃ t', Turn clientId tokenServer l.tokens log a t'
  behind_refusal : ∀ r, Refuses r → .ok r ∈ l.answers → log = [] ∧ a = .expired
  behind_refresh : ∀ clock rest, log = read clock :: rest → l.tokens.Fresh clock → rest = [] ∧
    a = .header "Bearer" (lastIssued first.access (l.accepted.map TokenResponse.accessToken))

/-- Who serves a session and is at a request holds the tokens. -/
theorem holds_of_serves {o : Outgoing} {next : Answer → Program Result}
    (h₀ : Inv id clientId tokenServer ({ tokens := t } : Ledger ι) (begun v ops))
    (h : World.Reaches Vault.step (begun v ops) log w)
    (hi : Serves id clientId tokenServer t ops log i)
    (ht : (w.task i).program = .ask (.send o) next) : i ∈ (Ledger.ofTrace id t log).holders := by
  rcases hi with hheld | hasks
  · exact hheld
  · exact holds_of_asks h₀ h hasks ht (by simp)

theorem eq_of_inFlight {j : ι}
    (h₀ : Inv id clientId tokenServer ({ tokens := t } : Ledger ι) (begun v ops))
    (h : World.Reaches Vault.step (begun v ops) log w)
    (hi : Serves id clientId tokenServer t ops log i) (hi' : InFlight w i)
    (hj : Serves id clientId tokenServer t ops log j) (hj' : InFlight w j) : i = j := by
  obtain ⟨o, next, ht⟩ := hi'
  obtain ⟨o', next', ht'⟩ := hj'
  have hheld := holds_of_serves h₀ h hi (congrArg Task.program ht)
  have hheld' := holds_of_serves h₀ h hj (congrArg Task.program ht')
  obtain ⟨stage, hbusy, _⟩ := (inv_of_reaches h₀ (fun _ => rfl) h).busy_of_mem hheld
  rw [hbusy.holders_eq, List.mem_singleton] at hheld'
  exact hheld'.symm

/-- A request for new tokens carries the refresh token issued last. -/
theorem request_of_asked {o : Outgoing}
    (h₀ : Inv id clientId tokenServer ({ tokens := t } : Ledger ι) (begun v ops))
    (h : World.Reaches Vault.step (begun v ops) log w)
    (hlog : log = before ++ (i, .asked (.send o)) :: after)
    (hi : Serves id clientId tokenServer t ops before i) :
    o = refreshRequest clientId tokenServer (lastIssued t.refresh
      ((Ledger.ofTrace id t before).accepted.map TokenResponse.refreshToken)) := by
  subst hlog
  obtain ⟨w₁, w₂, hreach, hs⟩ := h.split
  cases hs with
  | asked ht hr =>
    have hprogram := congrArg Task.program ht
    have hheld := holds_of_serves h₀ hreach hi hprogram
    rw [← (Ledger.issued_ofTrace id t before).refresh_eq]
    exact ((inv_of_reaches h₀ (fun _ => rfl) hreach).request_of_mem hheld hprogram).2

/-- A caller that is done took the tokens once, and made one turn with them. -/
theorem answers_of_asks {a : Authorization}
    (h₀ : Inv id clientId tokenServer ({ tokens := t } : Ledger ι) (begun v ops))
    (h : World.Reaches Vault.step (begun v ops) log w)
    (ha : Asks (.bearer id clientId tokenServer) (ops i) (World.repliesTo i log))
    (hdone : w.task i = .running (.done (.authorization a))) :
    ∃ before r after, log = before ++ (i, .inner (.acquire id) r) :: after ∧
      outer (World.repliesTo i before) = [] ∧ Takes id t before r ∧
      Answers clientId tokenServer t (Ledger.ofTrace id t before)
        (outer (World.repliesTo i after)) a := by
  have hprogram := congrArg Task.program hdone
  rcases reaches_of_asks h₀ h ha with ⟨next, ht⟩ |
    ⟨before, r, after, p, hlog, hbefore, hholders, htokens, hends, hp⟩
  · exact absurd (hprogram.symm.trans ht) (by simp [Task.program])
  rcases hends with ⟨_, c, next, rfl⟩ | ⟨a', rfl, t', hturn⟩
  · exact absurd (hprogram.symm.trans hp) (by simp [Task.program, Flow.bind])
  obtain rfl : a = a' := Result.authorization.inj (Flow.done.inj (hprogram.symm.trans hp))
  have htakes : Takes id t before r :=
    ⟨htokens, fun _ _ _ => Ledger.released_of_not_held hholders⟩
  refine ⟨before, r, after, hlog, hbefore, htakes, ⟨t', hturn⟩, fun r hr hmem => ?_,
    fun clock rest hrest hf => ?_⟩
  · -- The refusal was heard before the tokens were taken.
    subst hlog
    obtain ⟨w₁, _, hreach, _⟩ := h.split
    exact hturn.of_ended (ended_of_refused h₀ (fun _ => rfl) hreach hr hmem)
  · rw [hrest] at hturn
    obtain ⟨hnil, hanswer, hlive⟩ := hturn.of_fresh hf
    rw [← (Ledger.issued_ofTrace id t before).access_eq hlive]
    exact ⟨hnil, hanswer⟩

/-- A session that is removed is the one that the callers share, or has another number. -/
theorem removed_of_reply {prog : ι → Program Result}
    (h₀ : Inv id clientId tokenServer ({ tokens := t } : Ledger ι) (begun v ops))
    (h : World.Reaches Vault.step (begun v ops) log w)
    (hp : ∀ i, (begun v ops).task i = .running (prog i)) {e : Event interface}
    (hlog : log = before ++ (i, e) :: after) {start : String} {handle : Handle}
    (he : e.reply? = some ⟨.remove start, some handle⟩) :
    e = .inner (.remove start) (some handle) ∧ IsShared id clientId tokenServer handle := by
  obtain ⟨rfl, w₁, s, hreach, hr⟩ := inner_of_reply h hp hlog he rfl
  obtain ⟨hfound, _⟩ := Outcome.reply.inj hr
  obtain ⟨record, hrecord, rfl⟩ :=
    (Registry.mem_of_remove start w₁.state.registry).1 handle hfound
  exact ⟨rfl, (inv_of_reaches h₀ hp hreach).sound.registry record hrecord⟩

/-- What a removal revokes: the token of the session that it removed, read before. -/
def Revokes (id : Nat) (clientId : String) (t : TokenSet) (i : ι) (start logoutUrl : String)
    (before : Trace interface ι) (o : Outgoing) : Prop :=
  ∃ other client server front r back,
    before = front ++ (i, .inner (.acquire other) r) :: back ∧
    (i, .inner (.remove start) (some (.bearer other client server))) ∈ front ∧
    o = revokeRequest logoutUrl client r.refresh.value ∧
    (other = id → client = clientId ∧ Takes id t front r ∧ r.refresh.value = lastIssued t.refresh
      ((Ledger.ofTrace id t front).accepted.map TokenResponse.refreshToken))

theorem revokes_of_asked {o : Outgoing} {start logoutUrl : String}
    (h₀ : Inv id clientId tokenServer ({ tokens := t } : Ledger ι) (begun v ops))
    (h : World.Reaches Vault.step (begun v ops) log w)
    (hlog : log = before ++ (i, .asked (.send o)) :: after)
    (hi : ops i = .unregister start (some logoutUrl)) :
    Revokes id clientId t i start logoutUrl before o := by
  have hp : ∀ i, (begun v ops).task i = .running (ops i).program := fun _ => rfl
  subst hlog
  obtain ⟨w₁, w₂, hreach, hs⟩ := h.split
  cases hs with
  | asked ht hr =>
    have hpath := hreach.path hp i
    rw [hi, ht] at hpath
    obtain ⟨p, hunregister, hq⟩ := Path.of_bind_done hpath
    obtain ⟨next', rfl⟩ : ∃ next', p = .ask (.send o) next' := by
      cases p with
      | done b => exact absurd hq (by simp [Task.program, Flow.bind])
      | ask c next' =>
        obtain ⟨rfl, _⟩ := Flow.ask.inj hq
        exact ⟨next', rfl⟩
    obtain ⟨other, client, server, r, hreplies, rfl⟩ := path_unregister hunregister
    -- The trace is cut where the token was read, and again where the record was removed.
    have hread : World.repliesTo i before = [⟨.remove start, _⟩] ++ ⟨.acquire other, r⟩ :: [_] :=
      hreplies
    obtain ⟨front, e, back, rfl, he, hfront, _⟩ := World.split_of_repliesTo hread
    obtain ⟨rfl, w₃, _, hreach', _⟩ := inner_of_reply hreach hp rfl he rfl
    have hremoved : World.repliesTo i front = [] ++ ⟨.remove start, _⟩ :: [] := hfront
    obtain ⟨front', e', middle, rfl, he', _, _⟩ := World.split_of_repliesTo hremoved
    obtain ⟨rfl, hshared⟩ := removed_of_reply h₀ hreach' hp rfl he'
    refine ⟨other, client, server, _, r, back, rfl, by simp, rfl, ?_⟩
    rintro rfl
    obtain ⟨_, hholders, htokens⟩ := taken_of_reply h₀ hreach hp rfl he
    refine ⟨(Handle.bearer.inj (hshared rfl)).2.1,
      ⟨htokens, fun _ _ _ => Ledger.released_of_not_held hholders⟩, ?_⟩
    rw [← (Ledger.issued_ofTrace other t _).refresh_eq, htokens]
    rfl

/-- Callers of one session, in any number and in every interleaving. At most one request for new
tokens is on its way. Each carries the refresh token issued last. A caller that is done took the
tokens once, when all before it had let go of them, and made one turn with them: it has expired
without a request behind a refusal, and returns the token issued last without a request when that is
fresh. Every caller can get to its answer, whatever the outside replies. A removal revokes the
refresh token issued last before it read it, and it read it when nobody held the tokens. -/
theorem shared_session_is_serial (hops : ∀ i, (ops i).Uses id clientId tokenServer)
    (hv : Starts id clientId tokenServer t v)
    (h : World.Reaches Vault.step (begun v ops) log w) :
    (∀ i j, Serves id clientId tokenServer t ops log i → InFlight w i →
      Serves id clientId tokenServer t ops log j → InFlight w j → i = j) ∧
    (∀ before i o after, log = before ++ (i, .asked (.send o)) :: after →
      Serves id clientId tokenServer t ops before i →
      o = refreshRequest clientId tokenServer (lastIssued t.refresh
        ((Ledger.ofTrace id t before).accepted.map TokenResponse.refreshToken))) ∧
    (∀ i, Asks (.bearer id clientId tokenServer) (ops i) (World.repliesTo i log) →
      (∀ a, w.task i = .running (.done (.authorization a)) →
        ∃ before r after, log = before ++ (i, .inner (.acquire id) r) :: after ∧
          outer (World.repliesTo i before) = [] ∧ Takes id t before r ∧
          Answers clientId tokenServer t (Ledger.ofTrace id t before)
            (outer (World.repliesTo i after)) a) ∧
      ∀ f : (c : Call) → Reply c, ∃ more w' a, World.Reaches Vault.step w more w' ∧
        Replied f more ∧ w'.task i = .running (.done (.authorization a))) ∧
    (∀ before i o after start logoutUrl, log = before ++ (i, .asked (.send o)) :: after →
      ops i = .unregister start (some logoutUrl) →
      Revokes id clientId t i start logoutUrl before o) := by
  have h₀ := inv_begun hops hv
  refine ⟨fun i j hi hi' hj hj' => eq_of_inFlight h₀ h hi hi' hj hj',
    fun before i o after hlog hi => request_of_asked h₀ h hlog hi, fun i ha => ?_,
    fun before i o after start logoutUrl hlog hi => revokes_of_asked h₀ h hlog hi⟩
  exact ⟨fun a hdone => answers_of_asks h₀ h ha hdone, fun f => comes_to_end h₀ f h ha rfl⟩

/-- A refresh is on its way while the session is removed, and it is the only one. -/
theorem refresh_during_removal :
    let c : Credentials :=
      { clientId := "c", tokenServer := "T", accessToken := "A", refreshToken := "R" }
    let created := ({} : Vault).create (.bearer (.ofCredentials c))
    let v := { created.2 with registry := created.2.registry.enrol ["u"] created.1 }
    let ops : Bool → Operation := fun b =>
      if b then .unregister "u" (some "L") else .header created.1
    ∃ before w, World.Reaches Vault.step (begun v ops)
        (before ++ [(false, .asked (.send (refreshRequest "c" "T" "R")))]) w ∧
      (true, .inner (.remove "u") (some created.1)) ∈ before ∧
      ∀ i, Serves 0 "c" "T" (.ofCredentials c) ops
        (before ++ [(false, .asked (.send (refreshRequest "c" "T" "R")))]) i →
        InFlight w i → i = false := by
  intro c created v ops
  have hops : ∀ i, (ops i).Uses 0 "c" "T" := by
    intro i
    cases i with
    | false => exact fun _ => rfl
    | true => trivial
  have hv : Starts 0 "c" "T" (.ofCredentials c) v :=
    starts_of_create (v := {}) c ["u"] (fun _ h => absurd h List.not_mem_nil) List.not_mem_nil
  have htaken : World.Reaches Vault.step (begun v ops) _ _ :=
    .step .start (.inner (i := false) rfl rfl)
  have hclock : World.Reaches Vault.step (begun v ops) _ _ :=
    .step htaken (.asked (i := false) rfl rfl)
  have hread : World.Reaches Vault.step (begun v ops) _ _ :=
    .step hclock (.answered (i := false) (7 : Int) rfl)
  have hmarked : World.Reaches Vault.step (begun v ops) _ _ :=
    .step hread (.inner (i := false) rfl rfl)
  have hremoved : World.Reaches Vault.step (begun v ops) _ _ :=
    .step hmarked (.inner (i := true) rfl rfl)
  have hsent : World.Reaches Vault.step (begun v ops) _ _ :=
    .step hremoved (.asked (i := false) rfl rfl)
  refine ⟨_, _, hsent, List.mem_append_right _ (List.mem_singleton.mpr rfl), fun i hi hi' => ?_⟩
  have hcaller (log : Trace interface Bool) : Serves 0 "c" "T" (.ofCredentials c) ops log false :=
    .inr (.header _)
  exact (shared_session_is_serial hops hv hsent).1 i false hi hi' (hcaller _) ⟨_, _, rfl⟩

end AccountGate.Auth
