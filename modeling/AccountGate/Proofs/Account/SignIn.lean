import AccountGate.Proofs.Account.Credentials
import AccountGate.Proofs.Auth.Requests
import AccountGate.Proofs.Flow.Conduct

/-!
Signing in, in its parts: credentials are obtained through the browser, and then they are put in
place. Main statements: nothing changes while credentials are being obtained, whatever comes of it;
and putting them in place fails before anything has changed, or when they are stored.
-/

namespace AccountGate.Account

open AccountGate.Flow (Solo Makes)

/-- Whatever it is answered, it changes nothing. -/
def Call.IsInert (c : Call) : Prop := ∀ s r s', Shared.step s c = .reply r s' → s' = s

/-- A call by which a sign-in comes to its code. -/
def Call.IsBrowsing : Call → Prop
  | .isAvailable => True
  | .listen _ => True
  | .random _ => True
  | .openBrowser _ => True
  | .awaitRedirect _ _ => True
  | _ => False

namespace Program

variable {α β : Type} {cfg : Config} {P : (c : Call) → Reply c → Prop} {s t : Shared}

/-- Goes on after a success. -/
def andThen (p : Program (Except Error α)) (f : α → Program (Except Error β)) :
    Program (Except Error β) :=
  p.bind fun result =>
    match result with
    | .ok a => f a
    | .error e => .done (.error e)

theorem run_bind (x : Attempt α) (f : α → Attempt β) :
    (x >>= f).run = andThen x.run fun a => (f a).run := by
  apply congrArg (Flow.bind x.run)
  funext result
  cases result <;> rfl

theorem andThen_lift (p : Program α) (f : α → Program (Except Error β)) :
    andThen (p.bind fun a => .done (.ok a)) f = p.bind f := by
  rw [andThen, Flow.bind_assoc]
  rfl

/-- A run goes through to the end, or ends with the error of its first part. -/
theorem solo_andThen_iff {p : Program (Except Error α)} {f : α → Program (Except Error β)}
    {r : Except Error β} : Solo Shared.step P (andThen p f) s r t ↔
      (∃ a u, Solo Shared.step P p s (.ok a) u ∧ Solo Shared.step P (f a) u r t) ∨
      ∃ e, r = .error e ∧ Solo Shared.step P p s (.error e) t := by
  rw [andThen, Flow.solo_bind_iff]
  constructor
  · rintro ⟨result, u, hfirst, hsecond⟩
    cases result with
    | ok a => exact .inl ⟨a, u, hfirst, hsecond⟩
    | error e =>
      obtain ⟨rfl, rfl⟩ := Flow.solo_done_iff.mp hsecond
      exact .inr ⟨e, rfl, hfirst⟩
  · rintro (⟨a, u, hfirst, hsecond⟩ | ⟨e, rfl, hfirst⟩)
    · exact ⟨.ok a, u, hfirst, hsecond⟩
    · exact ⟨.error e, t, hfirst, .done _ _⟩

/-- The proof of a sign-in, where the service is to have one. -/
def drawPkce (cfg : Config) : Attempt (Option Auth.PkcePair) :=
  if cfg.pkce then do
    return some (Auth.PkcePair.ofRandom (← Attempt.call (.random Auth.verifierSize)))
  else pure none

/-- The question that the browser puts to the service. -/
def question (cfg : Config) (port : Nat) (state : String) (pkce : Option Auth.PkcePair) :
    Auth.AuthorizationRequest where
  endpoint := cfg.authEndpoint
  clientId := cfg.clientId
  redirectUri := redirectUri port
  scope := cfg.scope
  state
  codeChallenge := pkce.map Auth.PkcePair.challenge

/-- The exchange of the code that the browser brings. -/
def exchangeOf (cfg : Config) (port : Nat) (pkce : Option Auth.PkcePair) (code : String) :
    Auth.CodeExchange where
  tokenServer := cfg.tokenEndpoint
  clientId := cfg.clientId
  code
  redirectUri := redirectUri port
  codeVerifier := pkce.map Auth.PkcePair.verifier

/-- Sends the browser to the service and waits until it comes back with a code. -/
def browse (cfg : Config) (port : Nat) (state : String) (pkce : Option Auth.PkcePair) :
    Attempt String := do
  let url ← Attempt.ofExcept .auth (question cfg port state pkce).url
  Attempt.ofExcept .browser (← Attempt.call (.openBrowser url))
  let redirect ← awaitRedirect port cfg.loginTimeout
  Attempt.ofExcept id (redirect.codeFor state)

/-- Credentials for a code that the browser brings to an open port. -/
def authorize (cfg : Config) (port : Nat) : Attempt Auth.Credentials := do
  let state := Auth.stateOf (← Attempt.call (.random Auth.stateSize))
  let pkce ← drawPkce cfg
  let code ← browse cfg port state pkce
  Attempt.ofExcept .auth (← Attempt.ofAuth (Auth.Program.exchange (exchangeOf cfg port pkce code)))

/-- Takes credentials into use, stores them and starts the refreshes. -/
def establish (cfg : Config) (c : Auth.Credentials) : Attempt Refreshes := do
  registerSession cfg c
  Attempt.ofExcept id (← Attempt.of (saveCredentials cfg))
  Attempt.call (.emit .loggedIn)
  Attempt.of refreshAll

theorem signIn_eq (cfg : Config) (port : Nat) : signIn cfg port = authorize cfg port >>= establish cfg := by
  simp only [signIn, authorize, browse, drawPkce, bind_assoc]
  refine bind_congr fun bytes => ?_
  -- With a proof of the sign-in, or without one.
  split
  · simp only [bind_assoc, pure_bind]
    rfl
  · simp only [pure_bind]
    rfl

/-- The port that is given, or one that is opened for the sign-in. -/
def portFor (cfg : Config) : Option Nat → Attempt Nat
  | some port => pure port
  | none => listen cfg.redirectPort

/-- Credentials for a code, if the service is there and a port can be opened. -/
def obtain (cfg : Config) (given : Option Nat) : Attempt Auth.Credentials := do
  requireAvailable cfg
  authorize cfg (← portFor cfg given)

/-- Signs in, on a port that is open already if one is given. -/
def loginBy (cfg : Config) : Option Nat → Program (Except Error Refreshes)
  | none => login cfg
  | some port => loginOn cfg port

theorem loginBy_eq (cfg : Config) (given : Option Nat) :
    loginBy cfg given = counted (obtain cfg given >>= establish cfg) := by
  cases given with
  | none => simp only [loginBy, login, obtain, portFor, signIn_eq, bind_assoc]
  | some port => simp only [loginBy, loginOn, obtain, portFor, signIn_eq, bind_assoc, pure_bind]

theorem counted_eq (attempt : Attempt α) : counted attempt = attempt.run.bind fun result =>
    .ask (.auth (.count (.login result.isOk))) fun _ => .done result := rfl

theorem run_registerSession (cfg : Config) (c : Auth.Credentials) : (registerSession cfg c).run =
    match Auth.Registry.fault? cfg.origins with
    | some e => .done (.error (.auth e))
    | none => .ask (.auth (.create (.bearer (.ofCredentials c)))) fun handle =>
      .ask (.auth (.enrol cfg.origins handle)) fun _ => .done (.ok ()) := by
  rw [registerSession, Attempt.ofAuth, Auth.Program.register]
  cases Auth.Registry.fault? cfg.origins <;> rfl

theorem run_browse (cfg : Config) (port : Nat) (state : String) (pkce : Option Auth.PkcePair) :
    (browse cfg port state pkce).run =
      match (question cfg port state pkce).url with
      | .error e => .done (.error (.auth e))
      | .ok url => .ask (.openBrowser url) fun opened =>
        match opened with
        | .error e => .done (.error (.browser e))
        | .ok () => .ask (.awaitRedirect port cfg.loginTimeout) fun came =>
          match came with
          | none => .done (.error .loginTimeout)
          | some redirect => .done (redirect.codeFor state) := by
  rw [browse]
  cases (question cfg port state pkce).url with
  | error e => rfl
  | ok url =>
    apply congrArg (Flow.ask (I := interface) (Call.openBrowser url))
    funext opened
    cases opened with
    | error e => rfl
    | ok _ =>
      apply congrArg (Flow.ask (I := interface) (Call.awaitRedirect port cfg.loginTimeout))
      funext came
      cases came with
      | none => rfl
      | some redirect =>
        change (Attempt.ofExcept id (redirect.codeFor state)).run = .done (redirect.codeFor state)
        cases redirect.codeFor state <;> rfl

/-- Where credentials could not be stored, the sign-in ends in that error. -/
def announce : Except Error Unit → Program (Except Error Refreshes)
  | .error e => .done (.error e)
  | .ok _ => .ask (.emit .loggedIn) fun _ => .ask (.spawn .refreshUser) fun user =>
    .ask (.spawn .refreshSupport) fun support => .done (.ok ⟨user, support⟩)

theorem run_establish (cfg : Config) (c : Auth.Credentials) : (establish cfg c).run =
    andThen (registerSession cfg c).run fun _ => (saveCredentials cfg).bind announce := by
  rw [establish, run_bind]
  apply congrArg (andThen (registerSession cfg c).run)
  funext _
  rw [run_bind]
  change andThen ((saveCredentials cfg).bind fun saved => .done (.ok saved)) _ = _
  rw [andThen_lift]
  apply congrArg (Flow.bind (saveCredentials cfg))
  funext saved
  cases saved <;> rfl

/-- Once the stored session has been looked for, the refreshes are started if it was found, or if
there is a license. -/
def resume : Bool → Program (Except Error (Option Refreshes))
  | true => refreshAll.bind fun started => .done (.ok (some started))
  | false => .ask .isLicensed fun licensed =>
    if licensed then refreshAll.bind fun started => .done (.ok (some started))
    else .done (.ok none)

theorem run_restore (cfg : Config) :
    (restore cfg).run = andThen (loadSession cfg).run resume := by
  rw [restore, run_bind]
  apply congrArg (andThen (loadSession cfg).run)
  funext found
  cases found with
  | true => rfl
  | false =>
    apply congrArg (Flow.ask (I := interface) Call.isLicensed)
    funext licensed
    cases licensed <;> rfl

section Inert

variable {Q : Call → Prop}

/-- Calls around credentials are made inside an account as they are by themselves. -/
theorem makes_inside {p : Auth.Program α} (h : Makes (fun c : Auth.Call => Q (.auth c)) p) :
    Makes Q (ofAuth p) :=
  h.expand fun _ hc => ⟨hc, fun _ => trivial⟩

theorem makes_credentialProperties_of (hfind : Q (.auth (.find cfg.apiEndpoint)))
    (hacquire : ∀ id, Q (.auth (.acquire id))) (hrelease : ∀ id, Q (.auth (.release id))) :
    Makes Q (credentialProperties cfg) :=
  makes_inside <| Auth.makes_propertiesFor_of hfind fun id =>
    Auth.makes_tokens_of (hacquire id) (hrelease id)

theorem makes_andThen {p : Program (Except Error α)} {f : α → Program (Except Error β)}
    (hp : Makes Q p) (hf : ∀ a, Makes Q (f a)) : Makes Q (andThen p f) :=
  hp.bind fun result => by cases result with
    | ok a => exact hf a
    | error e => trivial

theorem makes_run_bind {x : Attempt α} {f : α → Attempt β} (hx : Makes Q x.run)
    (hf : ∀ a, Makes Q (f a).run) : Makes Q (x >>= f).run := by
  rw [run_bind]
  exact makes_andThen hx hf

theorem makes_run_ofExcept {ε : Type} (f : ε → Error) (result : Except ε α) :
    Makes Q (Attempt.ofExcept f result).run := by
  cases result <;> trivial

theorem makes_run_call {c : Call} (hc : Q c) : Makes Q (Attempt.call c).run := ⟨hc, fun _ => trivial⟩

theorem makes_requireAvailable (cfg : Config) (hQ : Q .isAvailable) :
    Makes Q (requireAvailable cfg).run := by
  refine makes_run_bind (makes_run_call hQ) fun available => ?_
  cases available <;> trivial

theorem makes_portFor (cfg : Config) (given : Option Nat) (hQ : ∀ port, Q (.listen port)) :
    Makes Q (portFor cfg given).run := by
  cases given with
  | some port => trivial
  | none =>
    refine makes_run_bind (makes_run_call (hQ _)) fun opened => ?_
    exact makes_run_ofExcept _ _

theorem makes_drawPkce (cfg : Config) (hQ : ∀ size, Q (.random size)) :
    Makes Q (drawPkce cfg).run := by
  rw [drawPkce]
  split
  · exact ⟨hQ _, fun _ => trivial⟩
  · trivial

theorem makes_browse (cfg : Config) (port : Nat) (state : String) (pkce : Option Auth.PkcePair)
    (hopen : ∀ url, Q (.openBrowser url)) (hback : ∀ port seconds, Q (.awaitRedirect port seconds)) :
    Makes Q (browse cfg port state pkce).run := by
  rw [run_browse]
  split
  · trivial
  · refine ⟨hopen _, fun opened => ?_⟩
    cases opened with
    | error e => trivial
    | ok _ => exact ⟨hback _ _, fun came => by cases came <;> trivial⟩

theorem makes_registerSession_of {c : Auth.Credentials}
    (hcreate : Auth.Registry.fault? cfg.origins = none →
      Q (.auth (.create (.bearer (.ofCredentials c)))))
    (henrol : ∀ handle, Q (.auth (.enrol cfg.origins handle))) :
    Makes Q (registerSession cfg c).run := by
  rw [run_registerSession]
  split
  · trivial
  · next hsound => exact ⟨hcreate hsound, fun handle => ⟨henrol handle, fun _ => trivial⟩⟩

theorem makes_saveCredentials_of (hproperties : Makes Q (credentialProperties cfg))
    (happly : ∀ changes, Q (.apply changes)) : Makes Q (saveCredentials cfg) := by
  rw [saveCredentials_eq]
  refine hproperties.bind fun properties => ?_
  split
  · trivial
  · exact ⟨happly _, fun _ => trivial⟩

theorem makes_announce (hemit : Q (.emit .loggedIn)) (hspawn : ∀ job, Q (.spawn job))
    (saved : Except Error Unit) : Makes Q (announce saved) := by
  cases saved with
  | error e => trivial
  | ok _ => exact ⟨hemit, fun _ => ⟨hspawn _, fun _ => ⟨hspawn _, fun _ => trivial⟩⟩⟩

theorem makes_resume (hlicensed : Q .isLicensed) (hspawn : ∀ job, Q (.spawn job)) (found : Bool) :
    Makes Q (resume found) := by
  have hstart : Makes Q (refreshAll.bind fun started =>
      .done (.ok (some started) : Except Error (Option Refreshes))) :=
    ⟨hspawn _, fun _ => ⟨hspawn _, fun _ => trivial⟩⟩
  cases found with
  | true => exact hstart
  | false =>
    refine ⟨hlicensed, fun licensed => ?_⟩
    cases licensed with
    | true => exact hstart
    | false => trivial

theorem makes_establish_of {c : Auth.Credentials} (hregister : Makes Q (registerSession cfg c).run)
    (hsave : Makes Q (saveCredentials cfg)) (hemit : Q (.emit .loggedIn))
    (hspawn : ∀ job, Q (.spawn job)) : Makes Q (establish cfg c).run := by
  rw [run_establish]
  exact makes_andThen hregister fun _ => hsave.bind (makes_announce hemit hspawn)

end Inert

section Conducts

variable {k : Conduct interface} {s : k.Stage}

/-- What comes second matters only after a success. -/
theorem leads_run_bind {x : Attempt α} {f : α → Attempt β} {S : Except Error α → k.Stage → Prop}
    {R : Except Error β → k.Stage → Prop} (hx : k.Leads S s x.run)
    (hf : ∀ a s, S (.ok a) s → k.Leads R s (f a).run)
    (herror : ∀ e s, S (.error e) s → R (.error e) s) : k.Leads R s (x >>= f).run := by
  rw [run_bind]
  refine hx.bind fun result s hs => ?_
  cases result with
  | ok a => exact hf a s hs
  | error e => exact herror e s hs

/-- What a sign-in obtains comes of the exchange of its code. -/
theorem leads_obtain_of {P : Auth.Credentials → k.Stage → Prop} (given : Option Nat)
    (hbrowse : ∀ {β : Type} {p : Program β} {s}, Makes Call.IsBrowsing p →
      k.Leads (fun _ _ => True) s p)
    (hexchange : ∀ port pkce code s, k.Leads (fun result s => ∀ c, result = .ok c → P c s) s
      (ofAuth (Auth.Program.exchange (exchangeOf cfg port pkce code)))) :
    k.Leads (fun result s => ∀ c, result = .ok c → P c s) s (obtain cfg given).run := by
  have herror : ∀ (e : Error) (s : k.Stage), True → ∀ c,
      (.error e : Except Error Auth.Credentials) = .ok c → P c s :=
    fun e s _ c h => absurd h (by simp)
  refine leads_run_bind (hbrowse (makes_requireAvailable cfg trivial)) (fun _ _ _ => ?_) herror
  refine leads_run_bind (hbrowse (makes_portFor cfg given fun _ => trivial))
    (fun port _ _ => ?_) herror
  refine leads_run_bind (hbrowse (makes_run_call trivial)) (fun bytes _ _ => ?_) herror
  refine leads_run_bind (hbrowse (makes_drawPkce cfg fun _ => trivial)) (fun pkce _ _ => ?_) herror
  refine leads_run_bind (hbrowse (makes_browse cfg port _ pkce (fun _ => trivial)
    fun _ _ => trivial)) (fun code s _ => ?_) herror
  rw [run_bind]
  change k.Leads _ s (andThen ((ofAuth (Auth.Program.exchange
    (exchangeOf cfg port pkce code))).bind fun a => .done (.ok a)) _)
  rw [andThen_lift]
  refine (hexchange port pkce code s).bind fun result s hresult => ?_
  cases result with
  | error e => exact fun c hc => absurd hc (by simp)
  | ok c' => exact fun c hc => hresult c (by rw [← Except.ok.inj hc])

end Conducts

theorem isInert_of_outside {c : Call} (h : ∀ s, Shared.step s c = .outside) : c.IsInert :=
  fun s _ _ hs => absurd ((h s).symm.trans hs) (by simp)

theorem makes_exchange (x : Auth.CodeExchange) :
    Makes Call.IsInert (ofAuth (Auth.Program.exchange x)) := by
  rw [Auth.exchange_eq]
  refine ⟨isInert_of_outside fun _ => rfl, fun answer => ?_⟩
  simp only [Flow.done_bind]
  cases Auth.exchangeOutcome answer with
  | error e => trivial
  | ok issued => exact ⟨isInert_of_outside fun _ => rfl, fun _ => trivial⟩

/-- Nothing changes while credentials are being obtained. -/
theorem makes_obtain (cfg : Config) (given : Option Nat) : Makes Call.IsInert (obtain cfg given).run := by
  have havailable : Call.isAvailable.IsInert := fun _ _ _ hs => (Outcome.reply.inj hs).2.symm
  refine makes_run_bind (makes_requireAvailable cfg havailable) fun _ => ?_
  refine makes_run_bind (makes_portFor cfg given fun _ => isInert_of_outside fun _ => rfl)
    fun port => ?_
  refine makes_run_bind (makes_run_call (isInert_of_outside fun _ => rfl)) fun bytes => ?_
  refine makes_run_bind (makes_drawPkce cfg fun _ => isInert_of_outside fun _ => rfl) fun pkce => ?_
  refine makes_run_bind (makes_browse cfg port _ pkce (fun _ => isInert_of_outside fun _ => rfl)
    fun _ _ => isInert_of_outside fun _ => rfl) fun code => ?_
  refine makes_run_bind ((makes_exchange _).bind fun _ => trivial) fun _ => makes_run_ofExcept _ _

theorem solo_obtain {given : Option Nat} {r : Except Error Auth.Credentials}
    (h : Solo Shared.step P (obtain cfg given).run s r t) : t = s := by
  have hkept : ∀ {u : Shared} {c : Call} {r : Reply c} {u' : Shared}, c.IsInert → P c r → u = s →
      Shared.step u c = .reply r u' → u' = s :=
    fun hc _ hs hreply => (hc _ _ _ hreply).trans hs
  exact h.keeps (makes_obtain cfg given) hkept rfl

end Program

section Register

variable {cfg : Config} {P : (c : Call) → Reply c → Prop} {s t : Shared} {c : Auth.Credentials}

/-- New credentials serve all origins of the account. -/
def Shared.registered (cfg : Config) (c : Auth.Credentials) (s : Shared) : Shared :=
  { s with vault := { s.vault.putTokens s.vault.created (Auth.Bearer.ofCredentials c).tokens with
      registry := s.vault.registry.enrol cfg.origins
        (.bearer s.vault.created c.clientId c.tokenServer)
      created := s.vault.created + 1 } }

/-- Credentials are looked up by the first record that serves the account. Those that are new are
found unless an origin of another start comes first. -/
theorem find?_registered : (s.registered cfg c).vault.registry.find? cfg.apiEndpoint =
    match s.vault.registry.first? cfg.apiEndpoint with
    | some r => some (if r.start ∈ cfg.origins then .bearer s.vault.created c.clientId c.tokenServer
      else r.handle)
    | none => some (.bearer s.vault.created c.clientId c.tokenServer) := by
  have hserved : ∃ start ∈ cfg.origins, Auth.Registry.serves cfg.apiEndpoint start = true :=
    ⟨_, List.mem_cons_self, Auth.Registry.serves_self _⟩
  refine (Auth.Registry.find?_enrol _ _ _ _).trans ?_
  cases s.vault.registry.first? cfg.apiEndpoint with
  | some r => rfl
  | none => exact if_pos hserved

theorem find?_registered_of_own
    (h : ∀ r, s.vault.registry.first? cfg.apiEndpoint = some r → r.start ∈ cfg.origins) :
    (s.registered cfg c).vault.registry.find? cfg.apiEndpoint =
      some (.bearer s.vault.created c.clientId c.tokenServer) := by
  rw [find?_registered]
  split
  · next r hr => rw [if_pos (h r hr)]
  · rfl

theorem tokensOf_registered {id : Nat} : (s.registered cfg c).vault.tokensOf id =
    if id = s.vault.created then (Auth.Bearer.ofCredentials c).tokens else s.vault.tokensOf id :=
  Auth.Vault.tokensOf_putTokens _ _ _ _

/-- New credentials are those of the account, unless the start of another record comes first. -/
theorem credentials_registered
    (h : ∀ r, s.vault.registry.first? cfg.apiEndpoint = some r → r.start ∈ cfg.origins) :
    (s.registered cfg c).credentials cfg = (Auth.Bearer.ofCredentials c).properties := by
  rw [Shared.credentials, find?_registered_of_own h]
  simp only [tokensOf_registered, if_true]
  rfl

/-- Credentials are registered at once, or an origin is no prefix. -/
theorem solo_registerSession {r : Except Error Unit}
    (h : Solo Shared.step P (Program.registerSession cfg c).run s r t) :
    (∃ e, Auth.Registry.fault? cfg.origins = some e ∧ r = .error (.auth e) ∧ t = s) ∨
    (Auth.Registry.fault? cfg.origins = none ∧ r = .ok () ∧ t = s.registered cfg c) := by
  rw [Program.run_registerSession] at h
  split at h
  · next e hfault =>
    obtain ⟨rfl, rfl⟩ := Flow.solo_done_iff.mp h
    exact .inl ⟨e, hfault, rfl, rfl⟩
  · next hfault =>
    obtain ⟨-, h⟩ := (Flow.solo_ask_of_reply rfl).mp h
    obtain ⟨-, h⟩ := (Flow.solo_ask_of_reply rfl).mp h
    obtain ⟨rfl, rfl⟩ := Flow.solo_done_iff.mp h
    exact .inr ⟨hfault, rfl, rfl⟩

theorem credentials_registered_ne_nil : (s.registered cfg c).credentials cfg ≠ [] := by
  have hstart : cfg.apiEndpoint ∈ (s.registered cfg c).vault.registry.starts :=
    Auth.Registry.mem_starts_enrol _ _ (.inl List.mem_cons_self)
  rw [ne_eq, credentials_eq_nil_iff]
  exact Option.isSome_iff_ne_none.mp (Auth.Registry.isSome_find? hstart)

/-- Credentials are put in place if every origin is a prefix and they can be stored. -/
theorem solo_establish {r : Except Error Program.Refreshes}
    (h : Solo Shared.step P (Program.establish cfg c).run s r t) :
    (∃ e, Auth.Registry.fault? cfg.origins = some e ∧ r = .error (.auth e) ∧ t = s) ∨
    (Auth.Registry.fault? cfg.origins = none ∧ ∃ saved u,
      let changes := Program.credentialChanges ((s.registered cfg c).credentials cfg)
      P (.apply changes) saved ∧ (s.registered cfg c).step (.apply changes) = .reply saved u ∧
      ((∃ e, saved = .error e ∧ r = .error e ∧ t = u) ∨
        saved = .ok () ∧ (∃ refreshes, r = .ok refreshes) ∧
          t = { u with events := u.events ++ [.loggedIn] })) := by
  rw [Program.run_establish, Program.solo_andThen_iff] at h
  rcases h with ⟨_, m, hregister, h⟩ | ⟨e, rfl, hregister⟩
  · rcases solo_registerSession hregister with ⟨_, _, habsurd, _⟩ | ⟨hfault, -, rfl⟩
    · exact absurd habsurd (by simp)
    · obtain ⟨saved, u, hsave, h⟩ := Flow.solo_bind_iff.mp h
      rcases solo_saveCredentials hsave with ⟨hempty, -⟩ | ⟨-, hsaved, hs⟩
      · -- What has just been registered is found.
        exact absurd hempty credentials_registered_ne_nil
      · refine .inr ⟨hfault, saved, u, hsaved, hs, ?_⟩
        cases saved with
        | error e =>
          obtain ⟨rfl, rfl⟩ := Flow.solo_done_iff.mp h
          exact .inl ⟨e, rfl, rfl, rfl⟩
        | ok _ =>
          obtain ⟨-, h⟩ := (Flow.solo_ask_of_reply rfl).mp h
          obtain ⟨user, -, h⟩ := (Flow.solo_ask_of_outside rfl).mp h
          obtain ⟨support, -, h⟩ := (Flow.solo_ask_of_outside rfl).mp h
          obtain ⟨rfl, rfl⟩ := Flow.solo_done_iff.mp h
          exact .inr ⟨rfl, ⟨_, rfl⟩, rfl⟩
  · rcases solo_registerSession hregister with ⟨e', hfault, hresult, rfl⟩ | ⟨_, habsurd, _⟩
    · exact .inl ⟨e', hfault, congrArg Except.error (Except.error.inj hresult), rfl⟩
    · exact absurd habsurd (by simp)

/-- A sign-in is counted. It obtains credentials, which changes nothing, and puts them in place. -/
theorem solo_loginBy {given : Option Nat} {r : Except Error Program.Refreshes}
    (h : Solo Shared.step P (Program.loginBy cfg given) s r t) : ∃ u,
    t = { u with counters := u.counters ++ [.login r.isOk] } ∧
      ((∃ e, r = .error e ∧ u = s ∧ Solo Shared.step P (Program.obtain cfg given).run s (.error e) s) ∨
        ∃ c, Solo Shared.step P (Program.obtain cfg given).run s (.ok c) s ∧
          Solo Shared.step P (Program.establish cfg c).run s r u) := by
  rw [Program.loginBy_eq, Program.counted_eq] at h
  obtain ⟨result, u, hattempt, h⟩ := Flow.solo_bind_iff.mp h
  obtain ⟨-, h⟩ := (Flow.solo_ask_of_reply rfl).mp h
  obtain ⟨rfl, rfl⟩ := Flow.solo_done_iff.mp h
  refine ⟨u, rfl, ?_⟩
  rw [Program.run_bind, Program.solo_andThen_iff] at hattempt
  rcases hattempt with ⟨c, m, hobtain, hestablish⟩ | ⟨e, rfl, hobtain⟩
  · obtain rfl := Program.solo_obtain hobtain
    exact .inr ⟨c, hobtain, hestablish⟩
  · obtain rfl := Program.solo_obtain hobtain
    exact .inl ⟨e, rfl, rfl, hobtain⟩

end Register

end AccountGate.Account
