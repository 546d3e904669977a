import AccountGate.Proofs.Auth.TokenBodies

/-!
The exchange of a code beside the refresh of a token. Both read the same kind of answer, each with
decisions of its own. Main statement: whatever the server answers, the two judge it alike, and an
exchange succeeds where a refresh does and there is an access token.
-/

namespace AccountGate.Auth

open Program

variable {answer : Answer} {clock : Int} {v : Vault}

/-- The errors of requests that got no answer, or none that helped. -/
def Error.IsHttp : Error → Prop
  | .exchangeUnanswered _ | .revokeUnanswered _ | .revokeRefused _ _ => True
  | _ => False

/-- What an answer may be, and what an exchange and a refresh make of it. -/
inductive Verdict : Answer → Except Error (String × TokenResponse) → RefreshOutcome → Prop
  | unanswered (cause : TransportError) :
      Verdict (.error cause) (.error (.exchangeUnanswered cause)) (.unreachable cause)
  | failed {r : Response} : ¬ (200 ≤ r.status ∧ r.status < 300) →
      Verdict (.ok r) (.error (.exchangeRefused (failureReason r))) (.rejected (failureReason r))
  | undecodable {r : Response} : 200 ≤ r.status ∧ r.status < 300 →
      TokenResponse.parse? r.body = none →
      Verdict (.ok r) (.error .exchangeUndecodable)
        (.rejected "invalid refresh response: invalid response body: ")
  | reported {r : Response} {response : TokenResponse} {reason : String} :
      200 ≤ r.status ∧ r.status < 300 → TokenResponse.parse? r.body = some response →
      response.rejection? = some reason →
      Verdict (.ok r) (.error (.exchangeRefused reason)) (.rejected reason)
  | tokenless {r : Response} {response : TokenResponse} : Accepts r response →
      filled response.accessToken = none →
      Verdict (.ok r) (.error .noAccessToken) (.refreshed response)
  | granted {r : Response} {response : TokenResponse} {access : String} : Accepts r response →
      filled response.accessToken = some access →
      Verdict (.ok r) (.ok (access, response)) (.refreshed response)

theorem verdict (answer : Answer) :
    Verdict answer (exchangeOutcome answer) (refreshOutcome answer) := by
  cases answer with
  | error cause => exact .unanswered cause
  | ok r =>
    unfold exchangeOutcome refreshOutcome
    dsimp only
    by_cases hs : r.isSuccess
    · rw [hs]
      cases hd : TokenResponse.parse? r.body with
      | none => exact .undecodable (isSuccess_iff.mp hs) hd
      | some response =>
        dsimp only
        cases he : response.rejection? with
        | some reason => exact .reported (isSuccess_iff.mp hs) hd he
        | none =>
          have haccepts : Accepts r response :=
            ⟨isSuccess_iff.mp hs, hd, rejection?_eq_none_iff.mp he⟩
          cases ht : filled response.accessToken with
          | none => exact .tokenless haccepts ht
          | some access => exact .granted haccepts ht
    · rw [Bool.not_eq_true] at hs
      rw [hs]
      exact .failed fun h => absurd (isSuccess_iff.mpr h) (by simp [hs])

/-- On this answer to its request, and with the clock at this reading, the program ends so. -/
def Yields {α : Type} (p : Program α) (v : Vault) (answer : Answer) (clock : Int) (a : α) : Prop :=
  ∃ log v', Flow.Alone Vault.step p v log a v' ∧ log.filterMap answerOf = [answer] ∧
    ∀ reading ∈ log.filterMap clockOf, reading = clock

theorem yields_refresh_iff {tokenServer clientId token : String} {outcome : RefreshOutcome} :
    Yields (refresh tokenServer clientId token) v answer clock outcome ↔
      outcome = refreshOutcome answer := by
  constructor
  · rintro ⟨log, v', hrun, hanswer, -⟩
    obtain ⟨answer', rfl, rfl, -⟩ := alone_refresh_iff.mp hrun
    obtain rfl : answer' = answer := by simpa using hanswer
    rfl
  · rintro rfl
    exact ⟨_, v, alone_refresh_iff.mpr ⟨answer, rfl, rfl, rfl⟩, by simp, by simp⟩

/-- What an exchange ends with, its request answered and the clock read. -/
def CodeExchange.result (x : CodeExchange) (answer : Answer) (clock : Int) :
    Except Error Credentials :=
  (exchangeOutcome answer).map fun issued => x.credentials issued.1 issued.2 (max 0 clock)

/-- The exchanges with the outside; the clock is read once there are tokens. -/
def CodeExchange.log (x : CodeExchange) (answer : Answer) (clock : Int) : Log :=
  ⟨.send (exchangeRequest x), answer⟩ ::
    match exchangeOutcome answer with
    | .error _ => []
    | .ok _ => [read clock]

theorem alone_exchange_iff {x : CodeExchange} {log : Log} {result : Except Error Credentials}
    {v' : Vault} : Flow.Alone Vault.step (exchange x) v log result v' ↔
      ∃ answer clock, log = x.log answer clock ∧ result = x.result answer clock ∧ v = v' := by
  have hsend : v.step (.send (exchangeRequest x)) = .outside := rfl
  have hclock : v.step .clock = .outside := rfl
  rw [exchange_eq, Flow.alone_ask_of_outside hsend]
  apply exists_congr
  intro answer
  unfold CodeExchange.log CodeExchange.result
  cases exchangeOutcome answer with
  | error e =>
    simp only [Flow.alone_done_iff]
    constructor
    · rintro ⟨rest, rfl, rfl, rfl, rfl⟩
      exact ⟨0, rfl, rfl, rfl⟩
    · rintro ⟨-, rfl, rfl, rfl⟩
      exact ⟨[], rfl, rfl, rfl, rfl⟩
  | ok issued =>
    constructor
    · rintro ⟨rest, rfl, hrun⟩
      obtain ⟨clock, rest', rfl, hdone⟩ := (Flow.alone_ask_of_outside hclock).mp hrun
      obtain ⟨rfl, rfl, rfl⟩ := Flow.alone_done_iff.mp hdone
      exact ⟨clock, rfl, rfl, rfl⟩
    · rintro ⟨clock, rfl, rfl, rfl⟩
      exact ⟨[read clock], rfl, (Flow.alone_ask_of_outside hclock).mpr ⟨clock, [], rfl, .done _ v⟩⟩

theorem answers_exchange (x : CodeExchange) (answer : Answer) (clock : Int) :
    (x.log answer clock).filterMap answerOf = [answer] := by
  unfold CodeExchange.log
  cases exchangeOutcome answer <;> rfl

theorem clocks_exchange (x : CodeExchange) (answer : Answer) (clock : Int) :
    (x.log answer clock).filterMap clockOf =
      if (exchangeOutcome answer).isOk then [clock] else [] := by
  unfold CodeExchange.log
  cases exchangeOutcome answer <;> rfl

theorem yields_exchange_iff {x : CodeExchange} {result : Except Error Credentials} :
    Yields (exchange x) v answer clock result ↔ result = x.result answer clock := by
  constructor
  · rintro ⟨log, v', hrun, hanswer, hreading⟩
    obtain ⟨answer', reading, rfl, rfl, -⟩ := alone_exchange_iff.mp hrun
    obtain rfl : answer' = answer := by simpa [answers_exchange] using hanswer
    rw [clocks_exchange] at hreading
    unfold CodeExchange.result
    cases houtcome : exchangeOutcome answer' with
    | error e => rfl
    | ok issued =>
      have heq : reading = clock :=
        hreading reading (by simp [houtcome, Except.isOk, Except.toBool])
      rw [heq]
  · rintro rfl
    refine ⟨_, v, alone_exchange_iff.mpr ⟨answer, clock, rfl, rfl, rfl⟩, answers_exchange .., ?_⟩
    rw [clocks_exchange]
    split <;> simp

/-- An exchange and a refresh have judged one answer alike. -/
structure JudgedAlike (x : CodeExchange) (answer : Answer) (clock : Int)
    (result : Except Error Credentials) (outcome : RefreshOutcome) : Prop where
  unanswered : ∀ cause,
    result = .error (.exchangeUnanswered cause) ↔ outcome = .unreachable cause
  http : (∃ e, result = .error e ∧ e.IsHttp) ↔ ∃ cause, outcome = .unreachable cause
  refused : ∀ r, answer = .ok r →
    (¬ (200 ≤ r.status ∧ r.status < 300) ∨ ∃ response error,
      TokenResponse.parse? r.body = some response ∧ response.error = some error ∧ error ≠ "") →
    ∃ reason, result = .error (.exchangeRefused reason) ∧ outcome = .rejected reason
  undecodable : ∀ r, answer = .ok r → 200 ≤ r.status ∧ r.status < 300 →
    TokenResponse.parse? r.body = none →
    result = .error .exchangeUndecodable ∧ ∃ reason, outcome = .rejected reason
  granted : ∀ c, result = .ok c ↔ ∃ response access, outcome = .refreshed response ∧
    response.accessToken = some access ∧ access ≠ "" ∧
    Bearer.ofCredentials c = {
      clientId := x.clientId
      tokenServer := x.tokenServer
      tokens := {
        access := ⟨access⟩
        refresh := ⟨response.refreshToken.getD ""⟩
        expiresIn := response.expiresIn.getD 0
        lastRefresh := max 0 clock
        status := .valid } }

theorem ofCredentials_injective : Function.Injective Bearer.ofCredentials := by
  rintro ⟨⟩ ⟨⟩ h
  simp only [Bearer.ofCredentials, Bearer.mk.injEq, Tokens.mk.injEq, Secret.mk.injEq] at h
  simp [h]

theorem ofCredentials_credentials (x : CodeExchange) {access : String} (response : TokenResponse)
    (clock : Int) (h : access ≠ "") : Bearer.ofCredentials (x.credentials access response clock) = {
      clientId := x.clientId
      tokenServer := x.tokenServer
      tokens := {
        access := ⟨access⟩
        refresh := ⟨response.refreshToken.getD ""⟩
        expiresIn := response.expiresIn.getD 0
        lastRefresh := clock
        status := .valid } } := by
  simp [Bearer.ofCredentials, CodeExchange.credentials, h]

theorem Accepts.not_refuses {r r' : Response} {response : TokenResponse} (h : Accepts r response)
    (heq : (.ok r : Answer) = .ok r') : ¬ Refuses r' := by
  obtain rfl := Except.ok.inj heq
  exact fun hrefuses => refuses_iff.mp hrefuses response h

theorem judgedAlike (x : CodeExchange) (answer : Answer) (clock : Int) :
    JudgedAlike x answer clock (x.result answer clock) (refreshOutcome answer) := by
  unfold CodeExchange.result
  have hverdict := verdict answer
  generalize exchangeOutcome answer = result at hverdict ⊢
  generalize refreshOutcome answer = outcome at hverdict ⊢
  cases hverdict with
  | unanswered cause =>
    exact ⟨by simp [Except.map], by simp [Except.map, Error.IsHttp], by simp, by simp,
      by simp [Except.map]⟩
  | failed hs =>
    refine ⟨by simp [Except.map], by simp [Except.map, Error.IsHttp], fun _ _ _ => ⟨_, rfl, rfl⟩,
      ?_, by simp [Except.map]⟩
    rintro r heq hsuccess
    obtain rfl := Except.ok.inj heq
    exact absurd hsuccess hs
  | undecodable hs hd =>
    refine ⟨by simp [Except.map], by simp [Except.map, Error.IsHttp], ?_,
      fun _ _ _ _ => ⟨rfl, _, rfl⟩, by simp [Except.map]⟩
    rintro r heq (hns | ⟨response, error, hd', -⟩)
    all_goals obtain rfl := Except.ok.inj heq
    · exact absurd hs hns
    · exact absurd (hd.symm.trans hd') (by simp)
  | reported hs hd he =>
    refine ⟨by simp [Except.map], by simp [Except.map, Error.IsHttp], fun _ _ _ => ⟨_, rfl, rfl⟩,
      ?_, by simp [Except.map]⟩
    rintro r heq - hnone
    obtain rfl := Except.ok.inj heq
    exact absurd (hd.symm.trans hnone) (by simp)
  | tokenless ha ht =>
    refine ⟨by simp [Except.map], by simp [Except.map, Error.IsHttp], ?_, ?_, ?_⟩
    · exact fun r heq hrefused => absurd (hrefused.imp_right .inr) (ha.not_refuses heq)
    · exact fun r heq _ hnone => absurd (.inr (.inl hnone)) (ha.not_refuses heq)
    · rintro c
      refine iff_of_false (by simp [Except.map]) ?_
      rintro ⟨response, access, heq, haccess, hne, -⟩
      obtain rfl := RefreshOutcome.refreshed.inj heq
      exact hne (filled_eq_none_iff.mp ht access haccess)
  | @granted r response access ha ht =>
    obtain ⟨haccess, hne⟩ := filled_eq_some_iff.mp ht
    refine ⟨by simp [Except.map], by simp [Except.map], ?_, ?_, fun c => ⟨?_, ?_⟩⟩
    · exact fun r heq hrefused => absurd (hrefused.imp_right .inr) (ha.not_refuses heq)
    · exact fun r heq _ hnone => absurd (.inr (.inl hnone)) (ha.not_refuses heq)
    · intro hc
      obtain rfl := Except.ok.inj hc
      exact ⟨response, access, rfl, haccess, hne, ofCredentials_credentials x response _ hne⟩
    · rintro ⟨response', access', heq, haccess', -, hstrategy⟩
      obtain rfl := RefreshOutcome.refreshed.inj heq
      obtain rfl := Option.some.inj (haccess.symm.trans haccess')
      rw [← ofCredentials_credentials x response _ hne] at hstrategy
      exact congrArg Except.ok (ofCredentials_injective hstrategy).symm

/-- Whatever the server answers to the two requests, an exchange and a refresh end in one way each,
and they judge the answer alike. -/
theorem exchange_judges_as_refresh (x : CodeExchange) (tokenServer clientId token : String)
    (v u : Vault) (answer : Answer) (clock : Int) : ∃ result outcome,
      (∀ result', Yields (exchange x) v answer clock result' ↔ result' = result) ∧
      (∀ outcome', Yields (refresh tokenServer clientId token) u answer clock outcome' ↔
        outcome' = outcome) ∧
      JudgedAlike x answer clock result outcome :=
  ⟨x.result answer clock, refreshOutcome answer, fun _ => yields_exchange_iff,
    fun _ => yields_refresh_iff, judgedAlike x answer clock⟩

end AccountGate.Auth
