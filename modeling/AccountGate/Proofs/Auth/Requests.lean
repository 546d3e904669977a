import AccountGate.Proofs.Auth.Asking
import AccountGate.Proofs.Flow.Calls
import AccountGate.Proofs.Transport.Headers

/-!
Which requests go out, and with what. A question for the header is part of the request that asks it,
and may send a request of its own. Main statements: those to a token server are withheld from all
credentials; a request of the host asks the registry once, sends at most one request before it goes
out itself, and carries what came of that one question.
-/

namespace AccountGate.Auth

open Program AccountGate.Flow

variable {α β : Type}

def exchangeRequest (x : CodeExchange) : Outgoing where
  request := .postForm x.tokenServer x.fields
  suspended := true

/-- A request to a token server. -/
inductive TokenRequest : Outgoing → Prop
  | exchange (x : CodeExchange) : TokenRequest (exchangeRequest x)
  | refresh (clientId tokenServer refreshToken : String) :
      TokenRequest (refreshRequest clientId tokenServer refreshToken)
  | revoke (logoutUrl clientId refreshToken : String) :
      TokenRequest (revokeRequest logoutUrl clientId refreshToken)

/-- Credentials were withheld, and the request has none of its own. -/
structure Outgoing.IsBare (o : Outgoing) : Prop where
  suspended : o.suspended = true
  authorization_eq : o.authorization = none
  own : o.request.hasAuthorization = false

theorem TokenRequest.isBare {o : Outgoing} (h : TokenRequest o) : o.IsBare := by
  cases h <;> exact ⟨rfl, rfl, rfl⟩

theorem Outgoing.IsBare.credentials_eq {o : Outgoing} (h : o.IsBare) (p : Transport.Policy) :
    Headers.credentials (Transport.dispatch p o.authorization o.request).headers = [] := by
  rw [Transport.credentials_dispatch, h.own, h.authorization_eq]
  rfl

/-- What a request carries of the answer to a question for the header. -/
def Authorization.carried (a : Authorization) : Option String :=
  a.value?.filter Headers.isLegalValue

theorem Authorization.carried_eq_some_iff {a : Authorization} {value : String} :
    a.carried = some value ↔ ∃ scheme credential, a = .header scheme credential ∧
      value = scheme ++ " " ++ credential ∧ Headers.isLegalValue value = true := by
  rw [carried, Option.filter_eq_some_iff]
  cases a with
  | none => simp [value?]
  | expired => simp [value?]
  | header scheme credential =>
    constructor
    · rintro ⟨hvalue, hlegal⟩
      exact ⟨scheme, credential, rfl, (Option.some.inj hvalue).symm, hlegal⟩
    · rintro ⟨scheme', credential', heq, rfl, hlegal⟩
      obtain ⟨rfl, rfl⟩ := Authorization.header.inj heq
      exact ⟨rfl, hlegal⟩

/-- The word for a session that is over is no header value: those have a blank. -/
theorem Authorization.carried_ne_text_expired (a : Authorization) :
    a.carried ≠ some Authorization.expired.text := by
  intro h
  obtain ⟨scheme, credential, _, hvalue, _⟩ := carried_eq_some_iff.mp h
  have hblank : ' ' ∈ Authorization.expired.text.toList := by
    rw [hvalue]
    simp
  exact absurd hblank (by decide)

/-- A request of the host with what came of the question for its header. -/
def carrying (request : Request) (a : Authorization) : Outgoing where
  request := request
  suspended := false
  authorization := a.carried

/-- A call that asks the registry or the network. -/
def Call.isQuery : Call → Bool
  | .send _ => true
  | .find _ => true
  | _ => false

/-- The queries among the calls that were replied to. -/
def queriesIn (xs : List (Exchange interface)) : List Call :=
  (xs.map Exchange.call).filter Call.isQuery

/-- The queries of a run, with the one that the program is at. -/
def queriesUpTo (xs : List (Exchange interface)) (p : Program α) : List Call :=
  queriesIn xs ++ p.head?.toList.filter Call.isQuery

theorem queriesIn_append (xs ys : List (Exchange interface)) :
    queriesIn (xs ++ ys) = queriesIn xs ++ queriesIn ys := by
  simp [queriesIn]

theorem queriesIn_cons (c : Call) (r : Reply c) (xs : List (Exchange interface)) :
    queriesIn (⟨c, r⟩ :: xs) = [c].filter Call.isQuery ++ queriesIn xs :=
  queriesIn_append [⟨c, r⟩] xs

/-- The replies and the queries so far are as `R` says, in every run. -/
def Poses (R : List (Exchange interface) → List Call → Prop) (p : Program α) : Prop :=
  ∀ xs q, Path p xs q → R xs (queriesIn xs) ∧ R xs (queriesUpTo xs q)

section Poses

variable {R S : List (Exchange interface) → List Call → Prop}

theorem Poses.mono {p : Program α} (h : Poses R p) (hRS : ∀ xs cs, R xs cs → S xs cs) :
    Poses S p := fun xs q hpath =>
  ⟨hRS _ _ (h xs q hpath).1, hRS _ _ (h xs q hpath).2⟩

theorem poses_done {a : α} (h : R [] []) : Poses R (.done a) := by
  intro xs q hpath
  obtain ⟨rfl, rfl⟩ := path_done_iff.mp hpath
  exact ⟨h, h⟩

theorem poses_ask {c : Call} {next : Reply c → Program α} (h : R [] [])
    (hc : R [] ([c].filter Call.isQuery))
    (hnext : ∀ r, Poses (fun xs cs => R (⟨c, r⟩ :: xs) ([c].filter Call.isQuery ++ cs)) (next r)) :
    Poses R (.ask c next) := by
  intro xs q hpath
  rcases path_ask_iff.mp hpath with ⟨rfl, rfl⟩ | ⟨r, rest, rfl, hrest⟩
  · exact ⟨h, hc⟩
  · rw [queriesUpTo, queriesIn_cons, List.append_assoc]
    exact hnext r rest q hrest

/-- What comes second knows the run of what came first. -/
theorem Poses.bind {p : Program α} {f : α → Program β} (hp : Poses R p)
    (hf : ∀ a ys, Path p ys (.done a) →
      Poses (fun zs cs => R (ys ++ zs) (queriesIn ys ++ cs)) (f a)) :
    Poses R (Flow.bind p f) := by
  intro xs q hpath
  rcases hpath.of_bind with ⟨c, next, hfirst, rfl⟩ | ⟨a, ys, zs, rfl, hfirst, hsecond⟩
  · exact hp xs _ hfirst
  · rw [queriesUpTo, queriesIn_append, List.append_assoc]
    exact hf a ys hfirst zs q hsecond

/-- A program without queries. -/
theorem poses_of_makes {p : Program α} (hp : Makes (fun c : Call => c.isQuery = false) p)
    (h : ∀ xs, R xs []) : Poses R p := by
  intro xs q hpath
  obtain ⟨hq, hxs⟩ := hp.path hpath
  have hnone : queriesIn xs = [] := by
    rw [queriesIn, List.filter_eq_nil_iff]
    intro c hc
    obtain ⟨x, hx, rfl⟩ := List.mem_map.mp hc
    simp [hxs x hx]
  have hlast : q.head?.toList.filter Call.isQuery = [] := by
    cases q with
    | done a => rfl
    | ask c next => simp [Flow.head?, hq.1]
  rw [queriesUpTo, hnone, hlast]
  exact ⟨h xs, h xs⟩

end Poses

/-- What a question for the header of a strategy may send: one request for new tokens. -/
def Renews (handle : Handle) (cs : List Call) : Prop :=
  cs = [] ∨ ∃ id clientId tokenServer refreshToken, handle = .bearer id clientId tokenServer ∧
    cs = [.send (refreshRequest clientId tokenServer refreshToken)]

theorem makes_leave {P : Call → Prop} {id : Nat} (h : P (.release id)) (a : Authorization) :
    Makes P (leave id a) :=
  ⟨h, fun _ => trivial⟩

theorem makes_settled {P : Call → Prop} {id : Nat} (hclock : P .clock)
    (hupdate : ∀ t, P (.update id t)) (hcount : ∀ counter, P (.count counter))
    (hrelease : P (.release id)) (t : Tokens) (outcome : RefreshOutcome) :
    Makes P ((settled t outcome).bind fun t' => finish id t' (counterOf outcome)) := by
  have hfinish : ∀ t', Makes P (finish id t' (counterOf outcome)) := fun t' =>
    ⟨hupdate t', fun _ => ⟨hcount _, fun _ => makes_leave hrelease _⟩⟩
  cases outcome with
  | refreshed response => exact ⟨hclock, fun _ => hfinish _⟩
  | unreachable cause => exact hfinish _
  | rejected reason => exact hfinish _

theorem poses_header (handle : Handle) : Poses (fun _ => Renews handle) (header handle) := by
  have hnone : Renews handle [] := .inl rfl
  cases handle with
  | basic id encoded => exact poses_done hnone
  | bearer id clientId tokenServer =>
    rw [header, bearerHeader_eq]
    refine poses_ask hnone hnone fun t => ?_
    split
    · exact poses_of_makes (makes_leave (by rfl) _) fun _ => hnone
    · refine poses_ask hnone hnone fun clock => ?_
      split
      · exact poses_of_makes (makes_leave (by rfl) _) fun _ => hnone
      · refine poses_ask hnone hnone fun _ => ?_
        have hsent : Renews (.bearer id clientId tokenServer)
            [.send (refreshRequest clientId tokenServer t.refresh.value)] :=
          .inr ⟨id, clientId, tokenServer, _, rfl, rfl⟩
        refine poses_ask hnone hsent fun answer => ?_
        refine poses_of_makes (makes_settled ?_ (fun _ => ?_) (fun _ => ?_) ?_ _ _) fun _ => hsent
        all_goals rfl

/-- The queries of a lookup: the registry is asked once, and the strategy that was found may send
one request. -/
def Looks (url : String) (xs : List (Exchange interface)) (cs : List Call) : Prop :=
  cs <+: [.find url] ∨ ∃ handle extra, ⟨.find url, some handle⟩ ∈ xs ∧ Renews handle extra ∧
    cs = .find url :: extra

theorem Looks.mono {url : String} {xs ys : List (Exchange interface)} {cs : List Call}
    (h : Looks url xs cs) (hxs : ∀ x ∈ xs, x ∈ ys) : Looks url ys cs := by
  rcases h with hshort | ⟨handle, extra, hfound, hrenews, rfl⟩
  · exact .inl hshort
  · exact .inr ⟨handle, extra, hxs _ hfound, hrenews, rfl⟩

theorem poses_resolve (url : String) : Poses (Looks url) (resolve url) := by
  refine poses_ask (.inl List.nil_prefix) (.inl List.prefix_rfl) fun found => ?_
  cases found with
  | none => exact poses_done (.inl List.prefix_rfl)
  | some handle =>
    refine (poses_header handle).mono fun xs cs hcs => ?_
    exact .inr ⟨handle, cs, List.mem_cons_self, hcs, rfl⟩

/-- How far a request has come that has no credentials of its own: it makes one lookup, and then
goes out with what came of it. -/
def Underway (request : Request) (xs : List (Exchange interface)) (cs : List Call) : Prop :=
  Looks request.url xs cs ∨ ∃ a front ys back before, xs = front ++ ys ++ back ∧
    Path (resolve request.url) ys (.done a) ∧ queriesIn ys = before ∧
    Looks request.url ys before ∧ cs = before ++ [.send (carrying request a)]

theorem fetchAuthorized_eq {request : Request} (h : request.hasAuthorization = false) :
    fetchAuthorized request = .ask .suspended fun suspended =>
      if suspended then .ask (.send { request, suspended }) .done
      else (resolve request.url).bind fun a => .ask (.send (carrying request a)) .done := by
  apply congrArg (Flow.ask (I := interface) Call.suspended)
  funext suspended
  rw [h]
  cases suspended with
  | true => rfl
  | false => exact Flow.bind_assoc _ _ _

theorem fetchAuthorized_eq_of_own {request : Request} (h : request.hasAuthorization = true) :
    fetchAuthorized request =
      .ask .suspended fun suspended => .ask (.send { request, suspended }) .done := by
  apply congrArg (Flow.ask (I := interface) Call.suspended)
  funext suspended
  rw [h]
  cases suspended <;> rfl

/-- Unless credentials are withheld. -/
theorem poses_fetchAuthorized {request : Request} (h : request.hasAuthorization = false) :
    Poses (fun xs cs => ⟨.suspended, true⟩ ∉ xs → Underway request xs cs)
      (fetchAuthorized request) := by
  have hnone : Underway request [] [] := .inl (.inl List.nil_prefix)
  rw [fetchAuthorized_eq h]
  refine poses_ask (fun _ => hnone) (fun _ => hnone) fun suspended => ?_
  cases suspended with
  | true => exact poses_ask (by simp) (by simp) fun _ => poses_done (by simp)
  | false =>
    rw [if_neg (by simp)]
    refine Poses.bind ((poses_resolve request.url).mono fun xs cs hcs _ => ?_) fun a ys hys => ?_
    · exact .inl (hcs.mono fun _ => List.mem_cons_of_mem _)
    · have hlooks := (poses_resolve request.url ys _ hys).1
      have hsent (back : List (Exchange interface)) :
          Underway request (⟨.suspended, false⟩ :: (ys ++ back))
            (queriesIn ys ++ [.send (carrying request a)]) :=
        .inr ⟨a, [⟨.suspended, false⟩], ys, back, _, rfl, hys, rfl, hlooks, rfl⟩
      refine poses_ask (fun _ => ?_) (fun _ => hsent []) fun answer => ?_
      · rw [List.append_nil, List.append_nil]
        exact .inl (hlooks.mono fun _ => List.mem_cons_of_mem _)
      · exact poses_done fun _ => hsent _

theorem exchange_eq (x : CodeExchange) : exchange x = .ask (.send (exchangeRequest x)) fun answer =>
    match exchangeOutcome answer with
    | .error e => .done (.error e)
    | .ok issued => .ask .clock fun clock =>
      .done (.ok (x.credentials issued.1 issued.2 (max 0 clock))) := by
  apply congrArg (Flow.ask (I := interface) (Call.send (exchangeRequest x)))
  funext answer
  change Flow.bind (.done answer) _ = _
  rw [Flow.done_bind]
  cases exchangeOutcome answer <;> rfl

section Calls

variable {Q : Call → Prop}

theorem makes_tokens_of {id : Nat} (hacquire : Q (.acquire id)) (hrelease : Q (.release id)) :
    Makes Q (tokens id) :=
  ⟨hacquire, fun _ => ⟨hrelease, fun _ => trivial⟩⟩

theorem makes_properties_of (htokens : ∀ id, Makes Q (tokens id)) (handle : Handle) :
    Makes Q (properties handle) := by
  cases handle with
  | basic id encoded => trivial
  | bearer id clientId tokenServer => exact (htokens id).bind fun _ => makes_done _

theorem makes_propertiesFor_of {url : String} (hfind : Q (.find url))
    (htokens : ∀ id, Makes Q (tokens id)) : Makes Q (propertiesFor url) := by
  refine ⟨hfind, fun found => ?_⟩
  cases found with
  | none => trivial
  | some handle => exact makes_properties_of htokens handle

theorem makes_status_of {url : String} (hfind : Q (.find url))
    (htokens : ∀ id, Makes Q (tokens id)) : Makes Q (status url) := by
  refine ⟨hfind, fun found => ?_⟩
  rcases found with _ | ⟨id, encoded⟩ | ⟨id, client, server⟩
  · trivial
  · trivial
  · exact (htokens id).bind fun _ => makes_done _

theorem makes_register_of {starts : List String} {strategy : Strategy} (hcreate : Q (.create strategy))
    (henrol : ∀ handle, Q (.enrol starts handle)) : Makes Q (register starts strategy) := by
  unfold register
  cases Registry.fault? starts with
  | some e => trivial
  | none => exact ⟨hcreate, fun handle => ⟨henrol handle, fun _ => trivial⟩⟩

theorem makes_exchange_of {x : CodeExchange} (hsend : Q (.send (exchangeRequest x)))
    (hclock : Q .clock) : Makes Q (exchange x) := by
  rw [exchange_eq]
  refine ⟨hsend, fun answer => ?_⟩
  beta_reduce
  cases exchangeOutcome answer with
  | error e => trivial
  | ok issued => exact ⟨hclock, fun _ => trivial⟩

theorem makes_exchangeAndRegister_of {starts : List String} {x : CodeExchange}
    (hexchange : Makes Q (exchange x)) (hregister : ∀ strategy, Makes Q (register starts strategy)) :
    Makes Q (exchangeAndRegister starts x) := by
  unfold exchangeAndRegister
  split
  · trivial
  · refine hexchange.bind fun result => ?_
    cases result with
    | error e => trivial
    | ok credentials => exact hregister _

theorem makes_unregister_of {start : String} (hremove : Q (.remove start))
    (htokens : ∀ id, Makes Q (tokens id))
    (hrevoke : ∀ url client token, Q (.send (revokeRequest url client token)))
    (logoutUrl : Option String) : Makes Q (unregister start logoutUrl) := by
  refine ⟨hremove, fun found => ?_⟩
  rcases found with _ | ⟨id, encoded⟩ | ⟨id, client, server⟩
  · trivial
  · cases logoutUrl <;> trivial
  · cases logoutUrl with
    | none => trivial
    | some url =>
      refine (htokens id).bind fun t => ?_
      exact ⟨hrevoke url client t.refresh.value, fun _ => trivial⟩

end Calls

/-- Whatever it sends, it sends to a token server. -/
def Call.IsGuarded : Call → Prop
  | .send o => TokenRequest o
  | _ => True

/-- All that a question for a header or for tokens does. -/
def Call.Tends (c : Call) : Prop := c.IsGuarded ∧ c.IsOutward

theorem makes_header (handle : Handle) : Makes Call.Tends (header handle) := by
  have hquiet : True ∧ True := ⟨trivial, trivial⟩
  cases handle with
  | basic id encoded => trivial
  | bearer id clientId tokenServer =>
    rw [header, bearerHeader_eq]
    refine ⟨hquiet, fun t => ?_⟩
    beta_reduce
    split
    · exact makes_leave hquiet _
    · refine ⟨hquiet, fun clock => ?_⟩
      beta_reduce
      split
      · exact makes_leave hquiet _
      · refine ⟨hquiet, fun _ => ⟨⟨.refresh _ _ _, trivial⟩, fun answer => ?_⟩⟩
        exact makes_settled hquiet (fun _ => hquiet) (fun _ => hquiet) hquiet _ _

theorem makes_resolve (url : String) : Makes Call.Tends (resolve url) := by
  refine ⟨⟨trivial, trivial⟩, fun found => ?_⟩
  cases found with
  | none => trivial
  | some handle => exact makes_header handle

theorem makes_tokens (id : Nat) : Makes Call.Tends (tokens id) :=
  makes_tokens_of ⟨trivial, trivial⟩ ⟨trivial, trivial⟩

theorem makes_properties (handle : Handle) : Makes Call.Tends (properties handle) :=
  makes_properties_of makes_tokens handle

theorem makes_propertiesFor (url : String) : Makes Call.Tends (propertiesFor url) :=
  makes_propertiesFor_of ⟨trivial, trivial⟩ makes_tokens

theorem makes_exchange (x : CodeExchange) : Makes Call.Tends (exchange x) :=
  makes_exchange_of ⟨.exchange x, trivial⟩ ⟨trivial, trivial⟩

theorem makes_register (starts : List String) (strategy : Strategy) :
    Makes Call.IsGuarded (register starts strategy) :=
  makes_register_of trivial fun _ => trivial

/-- All operations but the requests of the host itself. -/
theorem makes_operation {op : Operation} (h : ∀ request, op ≠ .fetch request) :
    Makes Call.IsGuarded op.program := by
  have hguarded {α : Type} {p : Program α} (hp : Makes Call.Tends p) : Makes Call.IsGuarded p :=
    hp.mono fun _ => And.left
  cases op with
  | header handle => exact (hguarded (makes_header handle)).bind fun _ => makes_done _
  | properties handle => exact (hguarded (makes_properties handle)).bind fun _ => makes_done _
  | resolve url => exact (hguarded (makes_resolve url)).bind fun _ => makes_done _
  | propertiesFor url => exact (hguarded (makes_propertiesFor url)).bind fun _ => makes_done _
  | status url =>
    exact (makes_status_of trivial fun id => hguarded (makes_tokens id)).bind fun _ => makes_done _
  | register starts strategy => exact (makes_register starts strategy).bind fun _ => makes_done _
  | exchange starts x =>
    have hregister := makes_register starts
    exact (makes_exchangeAndRegister_of (hguarded (makes_exchange x)) hregister).bind
      fun _ => makes_done _
  | unregister start logoutUrl =>
    have htokens (id : Nat) := hguarded (makes_tokens id)
    exact (makes_unregister_of trivial htokens (fun _ _ _ => .revoke _ _ _) logoutUrl).bind
      fun _ => makes_done _
  | fetch request => exact absurd rfl (h request)

/-- A request of the host leaves the registry as it is. -/
theorem makes_fetchAuthorized {request : Request} (h : request.hasAuthorization = false) :
    Makes Call.IsOutward (fetchAuthorized request) := by
  rw [fetchAuthorized_eq h]
  refine ⟨trivial, fun suspended => ?_⟩
  beta_reduce
  split
  · exact ⟨trivial, fun _ => trivial⟩
  · refine ((makes_resolve request.url).mono fun _ => And.right).bind fun a => ?_
    exact ⟨trivial, fun _ => trivial⟩

section Runs

variable {ι : Type} [DecidableEq ι] {w₀ w : Tasks ι α} {log : Trace interface ι}
  {p : ι → Program α} {i : ι}

/-- The queries of one task, the first first. -/
def queriesBy (i : ι) (log : Trace interface ι) : List Call :=
  (World.callsBy i log).filter Call.isQuery

theorem Poses.of_reaches {R : List (Exchange interface) → List Call → Prop} (hi : Poses R (p i))
    (h : World.Reaches Vault.step w₀ log w) (hp : ∀ i, w₀.task i = .running (p i)) :
    R (World.repliesTo i log) (queriesBy i log) := by
  obtain ⟨hdone, hnext⟩ := hi _ _ (h.path hp i)
  rw [queriesBy, h.callsBy_eq hp i, List.filter_append]
  cases ht : w.task i with
  | running q => simpa [Task.call?, queriesIn] using hdone
  | waiting c next =>
    rw [ht] at hnext
    exact hnext

/-- Nobody but the task itself withholds credentials from its requests. -/
theorem suspended_of_mem {suspended : Bool} (h : World.Reaches Vault.step w₀ log w)
    (hp : ∀ i, w₀.task i = .running (p i))
    (hx : ⟨.suspended, suspended⟩ ∈ World.repliesTo i log) : suspended = false := by
  rcases h.origin hp hx with ⟨s, s', hr⟩ | ⟨s, hr⟩
  · exact (Outcome.reply.inj hr).1.symm
  · exact absurd hr (by simp [Vault.step])

/-- What a lookup finds is what the registry had at that moment. -/
theorem found_of_mem {url : String} {found : Option Handle}
    (h : World.Reaches Vault.step w₀ log w) (hp : ∀ i, w₀.task i = .running (p i))
    (hx : ⟨.find url, found⟩ ∈ World.repliesTo i log) :
    ∃ before after w₁, log = before ++ (i, .inner (.find url) found) :: after ∧
      World.Reaches Vault.step w₀ before w₁ ∧ w₁.state.registry.find? url = found := by
  obtain ⟨xs, ys, hsplit⟩ := List.append_of_mem hx
  obtain ⟨before, e, after, hlog, he, _, _⟩ := World.split_of_repliesTo hsplit
  obtain ⟨rfl, w₁, s, hreach, hr⟩ := inner_of_reply h hp hlog he rfl
  exact ⟨before, after, w₁, hlog, hreach, (Outcome.reply.inj hr).1⟩

/-- What a task does whose request has credentials of its own. -/
theorem queries_of_own {v : Vault} {ops : ι → Operation} {w : Tasks ι Result}
    (h : World.Reaches Vault.step (begun v ops) log w) {request : Request}
    (hi : ops i = .fetch request) (hown : request.hasAuthorization = true) :
    queriesBy i log <+: [.send { request, suspended := false }] := by
  have hp : ∀ i, (begun v ops).task i = .running (ops i).program := fun _ => rfl
  have hposes : Poses (fun xs cs => ⟨.suspended, true⟩ ∉ xs →
      cs <+: [.send { request, suspended := false }]) (ops i).program := by
    rw [hi, Operation.program, fetchAuthorized_eq_of_own hown]
    refine poses_ask (fun _ => List.nil_prefix) (fun _ => List.nil_prefix) fun suspended => ?_
    cases suspended with
    | true => exact poses_ask (by simp) (by simp) fun _ => poses_done (by simp)
    | false =>
      refine poses_ask (fun _ => List.nil_prefix) (fun _ => List.prefix_rfl) fun _ => ?_
      exact poses_done fun _ => List.prefix_rfl
  exact hposes.of_reaches (p := fun i => (ops i).program) h hp
    fun hmem => absurd (suspended_of_mem h hp hmem) (by simp)

/-- What a task does whose request has no credentials of its own. -/
theorem underway_of_fetch {v : Vault} {ops : ι → Operation} {w : Tasks ι Result}
    (h : World.Reaches Vault.step (begun v ops) log w) {request : Request}
    (hi : ops i = .fetch request) (hown : request.hasAuthorization = false) :
    Underway request (World.repliesTo i log) (queriesBy i log) := by
  have hp : ∀ i, (begun v ops).task i = .running (ops i).program := fun _ => rfl
  have hposes : Poses (fun xs cs => ⟨.suspended, true⟩ ∉ xs → Underway request xs cs)
      (ops i).program := by
    rw [hi]
    refine (poses_fetchAuthorized hown).bind fun answer ys hys => poses_done ?_
    rw [List.append_nil, List.append_nil]
    exact (poses_fetchAuthorized hown ys _ hys).1
  exact hposes.of_reaches (p := fun i => (ops i).program) h hp
    fun hmem => absurd (suspended_of_mem h hp hmem) (by simp)

/-- What a task does that sends no request of the host. -/
theorem tokenRequest_of_send {v : Vault} {ops : ι → Operation} {w : Tasks ι Result}
    (h : World.Reaches Vault.step (begun v ops) log w) (hi : ∀ request, ops i ≠ .fetch request)
    {o : Outgoing} (ho : .send o ∈ queriesBy i log) : TokenRequest o :=
  h.makes (p := fun i => (ops i).program) (fun _ => rfl) (makes_operation hi) _
    (List.mem_filter.mp ho).1

end Runs

end AccountGate.Auth
