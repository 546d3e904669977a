import AccountGate.Account.Access
import AccountGate.Account.Shared
import AccountGate.Proofs.Auth.Requests

/-!
Credentials on the requests of an account. Main statement: the requests that obtain, renew or revoke
credentials and the probe go out without any; every other request of the host carries what came of
one lookup for its address; and withholding credentials ends with the program that asked for it.
-/

namespace AccountGate.Account

open Program AccountGate.Flow

variable {α β : Type}

/-- A request that tries whether an address can be reached. -/
def probeRequest (url : String) : Auth.Outgoing where
  request := .head url
  suspended := true

/-- The programs that work without credentials, each with its request. -/
inductive Unaided : {α : Type} → Program α → Auth.Outgoing → Prop
  | exchange (x : Auth.CodeExchange) :
      Unaided (ofAuth (Auth.Program.exchange x)) (Auth.exchangeRequest x)
  | refresh (clientId tokenServer refreshToken : String) :
      Unaided (ofAuth (Auth.Program.refresh tokenServer clientId refreshToken))
        (Auth.refreshRequest clientId tokenServer refreshToken)
  | revoke (logoutUrl clientId refreshToken : String) :
      Unaided (ofAuth (Auth.Program.revoke logoutUrl clientId refreshToken))
        (Auth.revokeRequest logoutUrl clientId refreshToken)
  | probe (url : String) : Unaided (probe url) (probeRequest url)

theorem Unaided.isBare {p : Program α} {o : Auth.Outgoing} (h : Unaided p o) : o.IsBare := by
  cases h with
  | exchange x => exact (Auth.TokenRequest.exchange x).isBare
  | refresh clientId tokenServer refreshToken =>
    exact (Auth.TokenRequest.refresh clientId tokenServer refreshToken).isBare
  | revoke logoutUrl clientId refreshToken =>
    exact (Auth.TokenRequest.revoke logoutUrl clientId refreshToken).isBare
  | probe url => exact ⟨rfl, rfl, rfl⟩

/-- A program that sends one request first, and none after it. -/
theorem comes_send_iff {o o' : Auth.Outgoing} {next : Answer → Program α}
    (hnext : ∀ answer, Makes (fun c : Call => ∀ o, c ≠ .auth (.send o)) (next answer)) :
    Comes (I := interface) (.ask (.auth (.send o)) next) (.auth (.send o')) ↔ o' = o := by
  rw [comes_ask_iff]
  constructor
  · rintro (heq | ⟨answer, xs, next', hpath⟩)
    · exact Auth.Call.send.inj (Call.auth.inj heq)
    · exact absurd rfl (((hnext answer).path hpath).1.1 o')
  · rintro rfl
    exact .inl rfl

theorem Unaided.comes_iff {p : Program α} {o o' : Auth.Outgoing} (h : Unaided p o) :
    Comes p (.auth (.send o')) ↔ o' = o := by
  cases h with
  | exchange x =>
    refine comes_send_iff fun answer => ?_
    show Makes _ (Flow.expand _ (Flow.bind (.done answer) _))
    rw [Flow.done_bind]
    cases Auth.exchangeOutcome answer with
    | error e => trivial
    | ok issued => exact ⟨by simp, fun _ => trivial⟩
  | refresh clientId tokenServer refreshToken => exact comes_send_iff fun _ => trivial
  | revoke logoutUrl clientId refreshToken => exact comes_send_iff fun _ => trivial
  | probe url => exact comes_send_iff fun _ => ⟨by simp, fun _ => trivial⟩

/-- A call of a program that withholds credentials from its requests. -/
def withheld : (c : Call) → Program (Reply c)
  | .auth c => ofAuth (Auth.Program.withheld c)
  | c => call c

/-- A program that adds no credentials to its requests. -/
def withoutAuth (p : Program α) : Program α := p.expand withheld

/-- Asks before and after a program whether credentials are withheld. -/
def framed (p : Program α) : Program (Bool × α × Bool) :=
  .ask (.auth .suspended) fun before => p.bind fun a =>
    .ask (.auth .suspended) fun after => .done (before, a, after)

theorem withoutAuth_ofAuth (p : Auth.Program α) :
    withoutAuth (ofAuth p) = ofAuth (Auth.Program.withoutAuth p) := by
  induction p with
  | done a => rfl
  | ask c next ih =>
    have hask : withoutAuth (ofAuth (.ask c next)) =
        (ofAuth (Auth.Program.withheld c)).bind fun r => withoutAuth (ofAuth (next r)) := rfl
    have hnext : Auth.Program.withoutAuth (.ask c next) =
        (Auth.Program.withheld c).bind fun r => Auth.Program.withoutAuth (next r) := rfl
    have hback : ofAuth (Flow.bind (Auth.Program.withheld c) fun r =>
        Auth.Program.withoutAuth (next r)) = (ofAuth (Auth.Program.withheld c)).bind fun r =>
          ofAuth (Auth.Program.withoutAuth (next r)) := Flow.expand_bind _ _ _
    rw [hask, hnext, hback]
    exact congrArg _ (funext ih)

/-- Inside such a program credentials are withheld before and after each part. -/
theorem withoutAuth_framed (p : Program α) :
    withoutAuth (framed p) = (withoutAuth p).bind fun a => .done (true, a, true) := by
  have hask : withoutAuth (framed p) = withoutAuth (p.bind fun a =>
      .ask (.auth .suspended) fun after => .done (true, a, after)) := rfl
  rw [hask, withoutAuth, Flow.expand_bind]
  rfl

section Runs

variable {ι : Type} [DecidableEq ι] {s : Shared} {p : ι → Program α}
  {w : World interface Shared ι (Bool × α × Bool)} {log : Trace interface ι} {i : ι}

/-- What a task sees of suspension after a program is what it saw before it. -/
theorem eq_of_framed {before after : Bool} {a : α}
    (h : World.Reaches Shared.step ⟨s, fun i => .running (framed (p i))⟩ log w)
    (hdone : w.task i = .running (.done (before, a, after))) : before = false ∧ after = false := by
  have hp : ∀ i, (World.mk s fun i => .running (framed (p i))).task i =
      .running (framed (p i)) := fun _ => rfl
  have hseen {suspended : Bool} (hx : ⟨.auth .suspended, suspended⟩ ∈ World.repliesTo i log) :
      suspended = false := by
    rcases h.origin hp hx with ⟨s, s', hr⟩ | ⟨s, hr⟩
    · exact (Outcome.reply.inj hr).1.symm
    · exact absurd hr (by simp [Shared.step, Auth.Vault.step])
  have hpath := h.path hp i
  rw [hdone] at hpath
  rcases path_ask_iff.mp hpath with ⟨_, hq⟩ | ⟨before', rest, hreplies, hrest⟩
  · exact absurd hq (by simp [Task.program])
  rcases hrest.of_bind with ⟨c, next, _, hq⟩ | ⟨a', ys, zs, rfl, _, hlast⟩
  · exact absurd hq (by simp [Task.program])
  rcases path_ask_iff.mp hlast with ⟨_, hq⟩ | ⟨after', rest, rfl, hend⟩
  · exact absurd hq (by simp [Task.program])
  obtain ⟨rfl, heq⟩ := path_done_iff.mp hend
  obtain ⟨rfl, _, rfl⟩ : before = before' ∧ a = a' ∧ after = after' := by
    simpa [Task.program] using heq
  rw [hreplies] at hseen
  exact ⟨hseen (by simp), hseen (by simp)⟩

end Runs

/-- Requests and their credentials, for any store and any tasks that share it. The requests to a
token server and the probe are withheld and carry nothing, whatever comes back, and the hook of the
store would add nothing to them. A request with credentials of its own goes out as it is. Any other
request asks the registry once; the strategy that was found there may send one request for new
tokens before; and what then goes out carries exactly the header value of that one question, or
nothing. What a task sees of suspension after any program is what it saw before it. -/
theorem credentials_follow_one_lookup {ι : Type} [DecidableEq ι] {v : Auth.Vault}
    {ops : ι → Auth.Operation} {w : Auth.Tasks ι Auth.Result} {log : Trace Auth.interface ι}
    (h : World.Reaches Auth.Vault.step (Auth.begun v ops) log w) :
    (∀ (α : Type) (p : Program α) o, Unaided p o → o.IsBare ∧
      (∀ policy, Headers.credentials
        (Transport.dispatch policy o.authorization o.request).headers = []) ∧
      ∀ o', Comes p (.auth (.send o')) ↔ o' = o) ∧
    (∀ url fields, Auth.Program.post url fields =
      Auth.Program.withoutAuth (Auth.Program.fetchAuthorized (.postForm url fields))) ∧
    (∀ i, (∀ request, ops i ≠ .fetch request) →
      ∀ o, .send o ∈ Auth.queriesBy i log → Auth.TokenRequest o ∧ o.IsBare) ∧
    (∀ i request, ops i = .fetch request → request.hasAuthorization = true →
      Auth.queriesBy i log <+: [.send { request, suspended := false }]) ∧
    (∀ i request, ops i = .fetch request → request.hasAuthorization = false →
      Auth.Underway request (World.repliesTo i log) (Auth.queriesBy i log) ∧
      ∀ found, ⟨.find request.url, found⟩ ∈ World.repliesTo i log →
        ∃ before after w₁, log = before ++ (i, .inner (.find request.url) found) :: after ∧
          World.Reaches Auth.Vault.step (Auth.begun v ops) before w₁ ∧
          w₁.state.registry.find? request.url = found) ∧
    (∀ (request : Request) a policy, request.hasAuthorization = false → Headers.credentials
      (Transport.dispatch policy (Auth.carrying request a).authorization request).headers =
        a.carried.toList.map fun value => (Headers.authorizationName, value)) ∧
    (∀ (a : Auth.Authorization) value, a.carried = some value ↔ ∃ scheme credential,
      a = .header scheme credential ∧ value = scheme ++ " " ++ credential ∧
        Headers.isLegalValue value = true) ∧
    (∀ a : Auth.Authorization, a.carried ≠ some Auth.Authorization.expired.text) ∧
    (∀ (α : Type) (p : Program α),
      withoutAuth (framed p) = (withoutAuth p).bind fun a => .done (true, a, true)) ∧
    (∀ (κ : Type) [DecidableEq κ] (α : Type) s (p : κ → Program α) log w,
      World.Reaches Shared.step ⟨s, fun i => .running (framed (p i))⟩ log w →
      ∀ i before a after, w.task i = .running (.done (before, a, after)) →
        before = false ∧ after = false) := by
  refine ⟨fun α p o hp => ⟨hp.isBare, hp.isBare.credentials_eq, fun o' => hp.comes_iff⟩,
    fun url fields => rfl, fun i hi o ho => ?_, fun i request => Auth.queries_of_own h,
    fun i request hi hown => ⟨Auth.underway_of_fetch h hi hown, fun found => ?_⟩,
    fun request a policy hown => ?_, fun a value => Auth.Authorization.carried_eq_some_iff,
    Auth.Authorization.carried_ne_text_expired, fun α p => withoutAuth_framed p,
    fun κ _ α s p log w h i before a after => eq_of_framed h⟩
  · have htoken := Auth.tokenRequest_of_send h hi ho
    exact ⟨htoken, htoken.isBare⟩
  · exact Auth.found_of_mem h fun _ => rfl
  · rw [Transport.credentials_dispatch, hown]
    rfl

/-- The address of the token server starts as the record does; the request for new tokens goes there
without credentials all the same, and before the request that it is made for. -/
theorem stale_token_is_renewed_first :
    let c : Auth.Credentials :=
      { clientId := "c", tokenServer := "u/token", accessToken := "A", refreshToken := "R" }
    let created := ({} : Auth.Vault).create (.bearer (.ofCredentials c))
    let v := { created.2 with registry := created.2.registry.enrol ["u"] created.1 }
    let ops : Unit → Auth.Operation := fun _ => .fetch (.get "u/x")
    ∃ log w, World.Reaches Auth.Vault.step (Auth.begun v ops) log w ∧
      Auth.queriesBy () log = [.find "u/x", .send (Auth.refreshRequest "c" "u/token" "R"),
        .send { request := .get "u/x", suspended := false, authorization := some "Bearer A" }] ∧
      Auth.Underway (.get "u/x") (World.repliesTo () log) (Auth.queriesBy () log) := by
  intro c created v ops
  have hserves : v.registry.find? "u/x" = some created.1 := by decide
  have hfind : v.step (.find "u/x") = .reply (some created.1) v :=
    congrArg (Outcome.reply · v) hserves
  have hstart : World.Reaches Auth.Vault.step (Auth.begun v ops) _ _ :=
    .step .start (.inner (i := ()) rfl rfl)
  have hfound : World.Reaches Auth.Vault.step (Auth.begun v ops) _ _ :=
    .step hstart (.inner (i := ()) rfl hfind)
  have htaken : World.Reaches Auth.Vault.step (Auth.begun v ops) _ _ :=
    .step hfound (.inner (i := ()) rfl rfl)
  have hclock : World.Reaches Auth.Vault.step (Auth.begun v ops) _ _ :=
    .step (.step htaken (.asked (i := ()) rfl rfl)) (.answered (i := ()) (7 : Int) rfl)
  have hmarked : World.Reaches Auth.Vault.step (Auth.begun v ops) _ _ :=
    .step hclock (.inner (i := ()) rfl rfl)
  have hsilence : World.Reaches Auth.Vault.step (Auth.begun v ops) _ _ :=
    .step (.step hmarked (.asked (i := ()) rfl rfl))
      (.answered (i := ()) (.error (.timeout "") : Answer) rfl)
  have hput : World.Reaches Auth.Vault.step (Auth.begun v ops) _ _ :=
    .step hsilence (.inner (i := ()) rfl rfl)
  have hcounted : World.Reaches Auth.Vault.step (Auth.begun v ops) _ _ :=
    .step (.step hput (.asked (i := ()) rfl rfl)) (.answered (i := ()) () rfl)
  have hreleased : World.Reaches Auth.Vault.step (Auth.begun v ops) _ _ :=
    .step hcounted (.inner (i := ()) rfl rfl)
  have hsent : World.Reaches Auth.Vault.step (Auth.begun v ops) _ _ :=
    .step hreleased (.asked (i := ()) rfl rfl)
  have hcarried : Auth.carrying (.get "u/x") (.header "Bearer" "A") =
      { request := .get "u/x", suspended := false, authorization := some "Bearer A" } := by
    decide
  refine ⟨_, _, hsent, ?_, ?_⟩
  · rw [← hcarried]
    rfl
  · exact ((credentials_follow_one_lookup hsent).2.2.2.2.1 () _ rfl rfl).1

end AccountGate.Account
