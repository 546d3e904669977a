import AccountGate.Proofs.Auth.Exchange
import AccountGate.Proofs.Auth.Freshness

/-!
The first header after an exchange, on a clock that has not moved since. Main statement: the tokens
are used as they were issued when the lifetime is longer than the safety margin, and with any other
lifetime, such as none, the token server is asked again at once.
-/

namespace AccountGate.Auth

open Program

/-- A live session is answered to be over exactly when the server refuses its refresh. -/
theorem Turn.expired_iff {clientId tokenServer : String} {t t' : TokenSet} {log : Log}
    {a : Authorization} (h : Turn clientId tokenServer t log a t') (ht : t.access ≠ "") :
    a = .expired ↔ ∃ r, .ok r ∈ log.filterMap answerOf ∧ Refuses r := by
  constructor
  · intro ha
    cases h with
    | ended hended => exact absurd hended ht
    | current clock _ _ => exact absurd ha (by simp)
    | unanswered clock cause _ _ => exact absurd ha (by simp)
    | refused clock r _ _ hr => exact ⟨r, by simp [List.filterMap_cons], hr⟩
    | accepted clock later r response _ _ _ => exact absurd ha (by simp)
  · intro ⟨r, hmem, hr⟩
    exact (h.of_refused hmem hr).1

/-- Tokens stamped by the clock that is now read again: their age is 0, and only the margin
counts. -/
theorem TokenSet.fresh_credentials_iff (x : CodeExchange) (access : String)
    (response : TokenResponse) (clock : Int) :
    (TokenSet.ofCredentials (x.credentials access response (max 0 clock))).Fresh clock ↔
      5 < response.expiresIn.getD 0 := by
  change max 0 clock - max 0 clock + 5 < response.expiresIn.getD 0 ↔ _
  omega

/-- What a question for the header may come to when all its readings of the clock are the one at
which the tokens were issued. -/
structure FirstHeader (x : CodeExchange) (response : TokenResponse) (access : String) (clock : Int)
    (log : Log) (a : Authorization) : Prop where
  long : 5 < response.expiresIn.getD 0 → log = [read clock] ∧ a = .header "Bearer" access
  short : response.expiresIn.getD 0 ≤ 5 → ∃ answer more, log = read clock ::
    posted x.clientId x.tokenServer (response.refreshToken.getD "") answer :: more
  expired_iff : a = .expired ↔ ∃ r, .ok r ∈ log.filterMap answerOf ∧ Refuses r

/-- A run of an exchange that yields credentials. They are for the tokens that the server issued,
and they bear the time at which it did. Taken into use, they give the first header on the same
clock: the issued token without a request when its lifetime is longer than five seconds, and else
what becomes of a refresh. Whatever is answered to that, the question ends. -/
theorem first_header_of_exchange (x : CodeExchange) {v v' : Vault} {log : Log} {c : Credentials}
    (hfree : v.created ∉ v.held)
    (hrun : Flow.Alone Vault.step (exchange x) v log (.ok c) v') :
    ∃ r response clock, log = [⟨.send (exchangeRequest x), .ok r⟩, read clock] ∧
      Accepts r response ∧ response.accessToken = some c.accessToken ∧ c.accessToken ≠ "" ∧
      c.lastRefresh = max 0 clock ∧
      let started := v'.create (.bearer (.ofCredentials c))
      (∀ log' a u, Flow.Alone Vault.step (header started.1) started.2 log' a u →
        (∀ reading ∈ log'.filterMap clockOf, reading = clock) →
        FirstHeader x response c.accessToken clock log' a) ∧
      ∀ answer, ∃ log' a u, Flow.Alone Vault.step (header started.1) started.2 log' a u ∧
        (∀ reading ∈ log'.filterMap clockOf, reading = clock) ∧
        log'.filterMap answerOf <+: [answer] := by
  obtain ⟨r, access, response, clock, rfl, houtcome, hc⟩ := exists_of_alone_exchange hrun
  obtain ⟨-, -, -, -, rfl⟩ := alone_exchange_iff.mp hrun
  obtain ⟨haccepts, haccess, hlive⟩ := exchangeOutcome_eq_ok_iff.mp houtcome
  subst hc
  refine ⟨r, response, clock, rfl, haccepts, haccess, hlive, rfl, ?_⟩
  intro started
  have hv := Vault.tokensOf_create_bearer v (x.credentials access response (max 0 clock))
  have hstarted : v.created ∉ started.2.held := hfree
  constructor
  · intro log' a u hheader hreadings
    obtain ⟨t', hturn, -⟩ := Vault.turn_of_alone hstarted hv hheader
    obtain ⟨reading, rest, rfl, hcase⟩ := hturn.of_live hlive
    obtain rfl : reading = clock := hreadings reading (by simp)
    rw [TokenSet.fresh_credentials_iff] at hcase
    refine ⟨fun hlong => ?_, fun hshort => ?_, hturn.expired_iff hlive⟩
    · rcases hcase with ⟨-, rfl, ha, -⟩ | ⟨hstale, -⟩
      · exact ⟨rfl, ha⟩
      · exact absurd hlong hstale
    · rcases hcase with ⟨hlong, -⟩ | ⟨-, answer, more, rfl⟩
      · omega
      · exact ⟨answer, more, rfl⟩
  · intro answer
    obtain ⟨log', a, t', hturn, hclocks, hanswers⟩ := exists_turn x.clientId x.tokenServer
      (.ofCredentials (x.credentials access response (max 0 clock))) clock clock answer
    obtain ⟨u, hheader, -⟩ := Vault.alone_of_turn hstarted hv hturn
    refine ⟨log', a, u, hheader, fun reading hmem => ?_, hanswers⟩
    simpa using hclocks.subset hmem

/-- What a server grants is what the exchange yields, on every clock. -/
theorem alone_exchange_of_granted (x : CodeExchange) (v : Vault) {r : Response} {access : String}
    {response : TokenResponse} (h : exchangeOutcome (.ok r) = .ok (access, response))
    (clock : Int) :
    Flow.Alone Vault.step (exchange x) v [⟨.send (exchangeRequest x), .ok r⟩, read clock]
      (.ok (x.credentials access response (max 0 clock))) v := by
  refine alone_exchange_iff.mpr ⟨.ok r, clock, ?_, ?_, rfl⟩
  · rw [CodeExchange.log, h]
  · rw [CodeExchange.result, h]
    rfl

/-- A token for an hour is used as it is. -/
theorem hour_long_token_is_used :
    let x : CodeExchange := ⟨"https://id.test/token", "abc", "xyz", "http://127.0.0.1:65020", none⟩
    let r : Response := { body := Text.bytes "\x7b\"access_token\":\"A1\",\"expires_in\":3600\x7d" }
    let c := x.credentials "A1" { accessToken := some "A1", expiresIn := some 3600 } 1750000000
    let started := ({} : Vault).create (.bearer (.ofCredentials c))
    Flow.Alone Vault.step (exchange x) {} [⟨.send (exchangeRequest x), .ok r⟩, read 1750000000]
      (.ok c) {} ∧
    ∀ log a u, Flow.Alone Vault.step (header started.1) started.2 log a u →
      (∀ reading ∈ log.filterMap clockOf, reading = 1750000000) →
      log = [read 1750000000] ∧ a = .header "Bearer" "A1" := by
  intro x r c started
  have hgranted : exchangeOutcome (.ok r) =
      .ok ("A1", { accessToken := some "A1", expiresIn := some 3600 }) := by decide +kernel
  have hrun := alone_exchange_of_granted x {} hgranted 1750000000
  refine ⟨hrun, fun log a u hheader hreadings => ?_⟩
  obtain ⟨r', response, clock, hlog, haccepts, -, -, -, hfirst, -⟩ :=
    first_header_of_exchange x List.not_mem_nil hrun
  obtain ⟨hsent, hread⟩ := List.cons.inj hlog
  obtain rfl : r = r' := Except.ok.inj (Option.some.inj (congrArg answerOf hsent))
  obtain rfl : 1750000000 = clock :=
    Option.some.inj (congrArg clockOf (List.cons.inj hread).1)
  have hresponse := (exchangeOutcome_eq_ok_iff.mp hgranted).1.decoded
  obtain rfl := Option.some.inj (hresponse.symm.trans haccepts.decoded)
  exact (hfirst log a u hheader hreadings).long (by decide)

/-- A token without a lifetime is not used once: the first header asks for a refresh, and a refusal
ends the session. -/
theorem first_header_can_find_session_over :
    let x : CodeExchange := ⟨"https://id.test/token", "abc", "xyz", "http://127.0.0.1:65020", none⟩
    let r : Response := { body := Text.bytes "\x7b\"access_token\":\"A1\"\x7d" }
    let c := x.credentials "A1" { accessToken := some "A1" } 1750000000
    let started := ({} : Vault).create (.bearer (.ofCredentials c))
    Flow.Alone Vault.step (exchange x) {} [⟨.send (exchangeRequest x), .ok r⟩, read 1750000000]
      (.ok c) {} ∧
    ∃ u, Flow.Alone Vault.step (header started.1) started.2
      [read 1750000000, posted "abc" "https://id.test/token" "" (.ok { status := 400 }),
        counted .refreshRefused] .expired u := by
  intro x r c started
  have hgranted : exchangeOutcome (.ok r) = .ok ("A1", { accessToken := some "A1" }) := by
    decide +kernel
  have hturn : Turn "abc" "https://id.test/token" ⟨"A1", "", 0, 1750000000⟩ _ _ _ :=
    .refused 1750000000 { status := 400 } (by decide) (by unfold TokenSet.Fresh; decide)
      (.inl (by decide))
  obtain ⟨u, hheader, -⟩ := Vault.alone_of_turn (v := started.2) (by decide)
    (Vault.tokensOf_create_bearer {} c) hturn
  exact ⟨alone_exchange_of_granted x {} hgranted 1750000000, u, hheader⟩

end AccountGate.Auth
