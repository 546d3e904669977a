import AccountGate.Account.Access

/-!
The programs around an account as trees: which call comes first, and what each reply leads to. What
an answer of the service comes to is a function of its own.
-/

namespace AccountGate.Account

open License (Entitlement)

/-- The claim that holds, with a license and settings. -/
def claimUnder (license : Except Error (Option Json)) (stored : Settings) : Entitlement :=
  match license with
  | .ok (some record) => SupportClaim.ofRecord record (stored.value Key.userId)
  | .ok none => SupportClaim.ofSettings stored
  | .error _ => SupportClaim.ofSettings stored

/-- What an answer comes to where JSON is wanted. -/
def jsonOutcome (url : String) : Answer → Except Error Json
  | .error cause => .error (.transport cause)
  | .ok response =>
    if response.isSuccess then
      match response.json? with
      | some value => .ok value
      | none => .error (.transport (.decode ""))
    else .error (.refused url response.status)

theorem jsonOutcome_of_parse {body : Bytes} {record : Json} (h : Json.parse? body = some record)
    (url : String) : jsonOutcome url (.ok { body }) = .ok record := by
  simp [jsonOutcome, Response.isSuccess, Response.json?, h]

/-- What an answer comes to where a key is wanted. -/
def keyOutcome : Answer → Except Error String
  | .error cause => .error (.transport cause)
  | .ok response =>
    if response.isSuccess then .ok response.text else .error (.keyRefused response.status)

/-- The user that the properties of credentials describe by their token. -/
def tokenOutcome (properties : Auth.Properties) : Except Error (Option User) :=
  match Auth.filled (properties.lookup "accessToken") with
  | none => .ok none
  | some token => (claims token).map fun value =>
    if (User.ofClaims value).isEmpty then none else some (User.ofClaims value)

/-- What the jobs ask the service for. -/
def resources : List String := ["user_info", "support_info", "rsa_public_key"]

/-- Access token and refresh token among properties. -/
def pairOf (properties : Auth.Properties) : Program.TokenPair :=
  (properties.lookup "accessToken", properties.lookup "refreshToken")

/-- What the session takes over of settings. -/
def userOf (found : Settings) : Bool × User :=
  let isThere := (found.value? Key.userId).isSome
  (isThere, if isThere then .ofSettings found else {})

namespace Program

theorem discard_bind {α β : Type} (p : Program α) (f : PUnit → Program β) :
    Flow.bind (discard p) f = p.bind fun _ => f ⟨⟩ := by
  show (p.bind _).bind f = _
  rw [Flow.bind_assoc]
  rfl

theorem tokenPair_eq (cfg : Config) : tokenPair cfg =
    (credentialProperties cfg).bind fun properties => .done (pairOf properties) := rfl

theorem saveCredentials_eq (cfg : Config) : saveCredentials cfg =
    (credentialProperties cfg).bind fun properties =>
      if properties.isEmpty then .done (.ok ())
      else .ask (.apply (credentialChanges properties)) .done := by
  apply congrArg (Flow.bind (credentialProperties cfg))
  funext properties
  cases properties <;> rfl

theorem saveIfChanged_eq (cfg : Config) (before : TokenPair) : saveIfChanged cfg before =
    (tokenPair cfg).bind fun pair =>
      if pair = before then .done () else (saveCredentials cfg).bind fun _ => .done () := by
  apply congrArg (Flow.bind (tokenPair cfg))
  funext pair
  show (if pair ≠ before then _ else _) = _
  by_cases h : pair = before
  · rw [if_neg (not_not_intro h), if_pos h]
    rfl
  · rw [if_pos h, if_neg h]
    rfl

theorem run_fetchJson (url : String) : (fetchJson url).run =
    (ofAuth (Auth.Program.fetchAuthorized (.getAny url))).bind fun answer =>
      .done (jsonOutcome url answer) := by
  show ((ofAuth _).bind _).bind _ = _
  rw [Flow.bind_assoc]
  apply congrArg (Flow.bind (ofAuth _))
  funext answer
  cases answer with
  | error cause => rfl
  | ok response =>
    show (ite ((!response.isSuccess) = true) _ _ : Attempt Json).run = .done (ite _ _ _)
    cases response.isSuccess with
    | false => rfl
    | true =>
      show (match response.json? with | some _ => _ | none => _ : Attempt Json).run = _
      cases response.json? with
      | none => rfl
      | some value => rfl

/-- A request for the key that signs claims. -/
def askKey (cfg : Config) : Program Answer :=
  ofAuth (Auth.Program.fetchAuthorized (.getAny (cfg.resource "rsa_public_key")))

theorem run_fetchKey (cfg : Config) : (fetchKey cfg).run = (askKey cfg).bind fun answer =>
    match keyOutcome answer with
    | .error e => .done (.error e)
    | .ok text => .ask (.storeKey text) fun stored => .done (stored.mapError .key) := by
  show ((ofAuth _).bind _).bind _ = _
  rw [Flow.bind_assoc]
  apply congrArg (Flow.bind (ofAuth _))
  funext answer
  cases answer with
  | error cause => rfl
  | ok response =>
    show (ite ((!response.isSuccess) = true) _ _ : Attempt Unit).run = _
    rw [show keyOutcome (.ok response) = ite (response.isSuccess = true) _ _ from rfl]
    cases response.isSuccess with
    | false => rfl
    | true =>
      apply congrArg (Flow.ask (I := interface) (Call.storeKey response.text))
      funext stored
      cases stored <;> rfl

theorem run_userOfToken (cfg : Config) : (userOfToken cfg).run =
    (credentialProperties cfg).bind fun properties => .done (tokenOutcome properties) := by
  show ((credentialProperties cfg).bind _).bind _ = _
  rw [Flow.bind_assoc]
  apply congrArg (Flow.bind (credentialProperties cfg))
  funext properties
  unfold tokenOutcome
  show (match Auth.filled (properties.lookup "accessToken") with
    | none => _ | some _ => _ : Attempt (Option User)).run = _
  cases Auth.filled (properties.lookup "accessToken") with
  | none => rfl
  | some token =>
    show Flow.bind (Attempt.ofExcept id (claims token)).run _ = Flow.done ((claims token).map _)
    cases claims token <;> rfl

theorem run_fetchUser (cfg : Config) : (fetchUser cfg).run = .ask .license fun license =>
    match license with
    | .error e => .done (.error e)
    | .ok (some record) => .done (.ok (some (User.ofRecord record)))
    | .ok none => (fetchJson (cfg.resource "user_info")).run.bind fun body =>
      match body with
      | .ok record => .done (.ok (some (User.ofRecord record)))
      | .error e => if cfg.tokenClaims then (userOfToken cfg).run else .done (.error e) := by
  apply congrArg (Flow.ask (I := interface) Call.license)
  funext license
  cases license with
  | error e => rfl
  | ok record =>
    cases record with
    | some record => rfl
    | none =>
      show ((fetchJson (cfg.resource "user_info")).run.bind _).bind _ = _
      rw [Flow.bind_assoc]
      apply congrArg (Flow.bind (fetchJson (cfg.resource "user_info")).run)
      funext body
      cases body with
      | ok record => rfl
      | error e =>
        show (ite (cfg.tokenClaims = true) _ _ : Attempt (Option User)).run = ite _ _ _
        split <;> rfl

/-- Stores a claim, and the key that signs it. -/
def storeClaim (cfg : Config) (claim : Entitlement) : Program (Except Error Unit) :=
  .ask (.apply (SupportClaim.changes claim)) fun stored =>
    match stored with
    | .error e => .done (.error e)
    | .ok () => if claim.supported then (fetchKey cfg).run else .done (.ok ())

theorem run_fetchClaim (cfg : Config) : (fetchClaim cfg).run = .ask .settings fun found =>
    .ask .license fun license =>
      match license with
      | .error e => .done (.error e)
      | .ok (some record) => storeClaim cfg (SupportClaim.ofRecord record (found.value Key.userId))
      | .ok none => (fetchJson (cfg.resource "support_info")).run.bind fun body =>
        match body with
        | .ok record => storeClaim cfg (SupportClaim.ofRecord record (found.value Key.userId))
        | .error e => .done (.error e) := by
  apply congrArg (Flow.ask (I := interface) Call.settings)
  funext found
  apply congrArg (Flow.ask (I := interface) Call.license)
  funext license
  have hstore (record : Json) : (do
      let claim := SupportClaim.ofRecord record (found.value Key.userId)
      Attempt.ofExcept id (← Attempt.call (.apply (SupportClaim.changes claim)))
      if claim.supported then fetchKey cfg : Attempt Unit).run =
      storeClaim cfg (SupportClaim.ofRecord record (found.value Key.userId)) := by
    apply congrArg (Flow.ask (I := interface) (Call.apply _))
    funext stored
    cases stored with
    | error e => rfl
    | ok _ =>
      show (ite (_ = true) _ _ : Attempt Unit).run = ite _ _ _
      split <;> rfl
  cases license with
  | error e => rfl
  | ok record =>
    cases record with
    | some record => exact hstore record
    | none =>
      apply congrArg (Flow.bind (fetchJson (cfg.resource "support_info")).run)
      funext body
      cases body with
      | ok record => exact hstore record
      | error e => rfl

theorem checkStored_eq : checkStored = .ask .settings fun found => .ask .license fun license =>
    check (claimUnder license found) := by
  apply congrArg (Flow.ask (I := interface) Call.settings)
  funext found
  apply congrArg (Flow.ask (I := interface) Call.license)
  funext license
  cases license with
  | error e => rfl
  | ok record => cases record <;> rfl

/-- Counts a check, where it is counted, and says its outcome. -/
def report (key : Except Disk.Fault String) (claim : Entitlement) (day : Date) :
    Program License.Status :=
  if License.KeyCache.isCounted key claim then
    .ask (.auth (.count (.ofStatus (License.KeyCache.check key claim day)))) fun _ =>
      .done (License.KeyCache.check key claim day)
  else .done (License.KeyCache.check key claim day)

theorem check_eq (claim : Entitlement) : check claim = .ask (.auth .clock) fun clock =>
    if claim.supported then .ask .loadKey fun key => report key claim (Date.ofUnix clock)
    else report (.ok "") claim (Date.ofUnix clock) := by
  apply congrArg (Flow.ask (I := interface) (Call.auth .clock))
  funext clock
  have hreport (key : Except Disk.Fault String) : (do
      if License.KeyCache.isCounted key claim then
        call (.auth (.count (.ofStatus (License.KeyCache.check key claim (Date.ofUnix clock)))))
      return License.KeyCache.check key claim (Date.ofUnix clock) : Program License.Status) =
      report key claim (Date.ofUnix clock) := by
    rw [report]
    split <;> rfl
  cases hsupported : claim.supported with
  | true => exact congrArg (Flow.ask (I := interface) Call.loadKey) (funext hreport)
  | false => exact hreport (.ok "")

theorem updateSupported_eq : updateSupported = .ask .enterCheck fun _ =>
    checkStored.bind fun status =>
      .ask (.setSupported status.isSupported) fun _ => .ask .leaveCheck .done := rfl

/-- How each job ends once support has been checked. -/
def finish (cfg : Config) (before : TokenPair) : Program Unit :=
  .ask (.emit .supportInfoUpdated) fun _ => saveIfChanged cfg before

/-- The session takes over what is stored; another user than the known one is checked. -/
def tell (cfg : Config) (known : String) (before : TokenPair) (found : Settings) : Program Unit :=
  .ask (.setUser (userOf found).1 (userOf found).2) fun _ => .ask (.emit .userInfoUpdated) fun _ =>
    if found.value Key.userId = known then saveIfChanged cfg before
    else updateSupported.bind fun _ => finish cfg before

/-- What the job for the user does once it knows whom it found stored. -/
def seek (cfg : Config) (known : String) (before : TokenPair) : Program Unit :=
  (fetchUser cfg).run.bind fun result =>
    match result with
    | .ok (some user) => .ask (.apply user.changes) fun _ => .ask .settings (tell cfg known before)
    | .ok none => .ask .settings (tell cfg known before)
    | .error _ => .ask .settings (tell cfg known before)

theorem refreshUser_eq (cfg : Config) : refreshUser cfg = (tokenPair cfg).bind fun before =>
    .ask .settings fun first => seek cfg (first.value Key.userId) before := by
  apply congrArg (Flow.bind (tokenPair cfg))
  funext before
  apply congrArg (Flow.ask (I := interface) Call.settings)
  funext first
  apply congrArg (Flow.bind (fetchUser cfg).run)
  funext result
  have hlook : (do
      let stored ← call .settings
      let userId := stored.value? Key.userId
      call (.setUser userId.isSome (if userId.isSome then .ofSettings stored else {}))
      call (.emit .userInfoUpdated)
      if userId.getD "" ≠ first.value Key.userId then
        updateSupported
        call (.emit .supportInfoUpdated)
      saveIfChanged cfg before : Program Unit) =
      .ask .settings (tell cfg (first.value Key.userId) before) := by
    apply congrArg (Flow.ask (I := interface) Call.settings)
    funext found
    apply congrArg (Flow.ask (I := interface) (Call.setUser _ _))
    funext _
    apply congrArg (Flow.ask (I := interface) (Call.emit .userInfoUpdated))
    funext _
    show ite (found.value Key.userId ≠ first.value Key.userId) _ _ = ite _ _ _
    by_cases h : found.value Key.userId = first.value Key.userId
    · rw [if_neg (not_not_intro h), if_pos h]
    · rw [if_pos h, if_neg h]
      rfl
  cases result with
  | error e => exact hlook
  | ok user =>
    cases user with
    | none => exact hlook
    | some user =>
      refine (discard_bind (call (.apply user.changes)) _).trans ?_
      exact congrArg (Flow.ask (I := interface) (Call.apply user.changes)) (funext fun _ => hlook)

/-- How the job for the user begins: the tokens in use, and whom it finds stored. -/
def look (cfg : Config) : Program (String × TokenPair) := (tokenPair cfg).bind fun before =>
  .ask .settings fun first => .done (first.value Key.userId, before)

theorem refreshUser_eq_look (cfg : Config) :
    refreshUser cfg = (look cfg).bind fun found => seek cfg found.1 found.2 := by
  rw [refreshUser_eq, look, Flow.bind_assoc]
  rfl

theorem refreshSupport_eq (cfg : Config) : refreshSupport cfg = (tokenPair cfg).bind fun before =>
    (fetchClaim cfg).run.bind fun _ => updateSupported.bind fun _ => finish cfg before := by
  apply congrArg (Flow.bind (tokenPair cfg))
  funext before
  exact discard_bind (fetchClaim cfg).run _

/-- Drops the credentials for further origins. -/
def dropOrigins : List String → Program Unit
  | [] => .done ()
  | origin :: rest => (ofAuth (Auth.Program.unregister origin none)).bind fun _ => dropOrigins rest

theorem dropCredentials_eq (cfg : Config) : dropCredentials cfg =
    (ofAuth (Auth.Program.unregister cfg.apiEndpoint cfg.logoutEndpoint)).bind fun _ =>
      dropOrigins cfg.extraOrigins := by
  have horigins (origins : List String) :
      (origins.forM fun origin => discard (ofAuth (Auth.Program.unregister origin none)) :
        Program PUnit) = dropOrigins origins := by
    induction origins with
    | nil => rfl
    | cons origin rest ih =>
      refine (discard_bind (ofAuth (Auth.Program.unregister origin none)) _).trans ?_
      rw [dropOrigins, ← ih]
  rw [← horigins]
  exact discard_bind _ _

theorem logout_eq (cfg : Config) : logout cfg = .ask (.apply clearedEntries) fun persisted =>
    (dropCredentials cfg).bind fun _ => .ask (.setSession {}) fun _ =>
      .ask (.emit .userInfoUpdated) fun _ => .ask (.emit .supportInfoUpdated) fun _ =>
        .done persisted := rfl

end Program

end AccountGate.Account
