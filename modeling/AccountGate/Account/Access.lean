import AccountGate.Account.Refresh
import AccountGate.Auth.AuthorizationUrl
import AccountGate.Decimal.Signed

/-!
Restoring an account, signing in and out, and trying whether the service can be reached.
-/

namespace AccountGate.Account.Program

/-- The credentials in the settings. They are renewed before they are first used. -/
def storedCredentials (cfg : Config) (s : Settings) : Option Auth.Credentials :=
  (s.value? Key.accessToken).map fun accessToken => {
    clientId := cfg.clientId
    tokenServer := cfg.tokenEndpoint
    accessToken
    refreshToken := s.value Key.updateToken
    expiresIn := ((s.value? Key.expiresIn).bind Decimal.readInt64?).getD 0
    lastRefresh := 0 }

def registerSession (cfg : Config) (c : Auth.Credentials) : Attempt Unit := do
  let result ← Attempt.ofAuth (Auth.Program.register cfg.origins (.bearer (.ofCredentials c)))
  discard (Attempt.ofExcept .auth result)

/-- Takes the stored account up again without a request; whether there is one. -/
def loadSession (cfg : Config) : Attempt Bool := do
  let stored ← Attempt.call .settings
  if (stored.value? Key.userId).isNone then return false
  match storedCredentials cfg stored with
  | some c => registerSession cfg c
  | none => pure ()
  let status ← Attempt.of (check (SupportClaim.ofSettings stored))
  Attempt.call (.setSession ⟨true, status.isSupported, .ofSettings stored⟩)
  return true

/-- Takes the stored account or the installed license up, and starts the refreshes. -/
def restore (cfg : Config) : Attempt (Option Refreshes) := do
  if ← loadSession cfg then return some (← Attempt.of refreshAll)
  if ← Attempt.call .isLicensed then return some (← Attempt.of refreshAll)
  return none

/-- The address that the browser is sent back to. -/
def redirectUri (port : Nat) : String := "http://127.0.0.1:" ++ toString port

/-- Opens a port for the browser to come back to. -/
def listen (port : Nat) : Attempt Nat := do
  Attempt.ofExcept (.listener port) (← Attempt.call (.listen port))

/-- Waits for the browser to come back. -/
def awaitRedirect (port seconds : Nat) : Attempt Redirect := do
  match ← Attempt.call (.awaitRedirect port seconds) with
  | some redirect => pure redirect
  | none => throw .loginTimeout

/-- Signs in while the port is open for the browser. -/
def signIn (cfg : Config) (port : Nat) : Attempt Refreshes := do
  let state := Auth.stateOf (← Attempt.call (.random Auth.stateSize))
  let pkce ← if cfg.pkce then
      pure (some (Auth.PkcePair.ofRandom (← Attempt.call (.random Auth.verifierSize))))
    else pure none
  let request : Auth.AuthorizationRequest := {
    endpoint := cfg.authEndpoint
    clientId := cfg.clientId
    redirectUri := redirectUri port
    scope := cfg.scope
    state
    codeChallenge := pkce.map Auth.PkcePair.challenge }
  let url ← Attempt.ofExcept .auth request.url
  Attempt.ofExcept .browser (← Attempt.call (.openBrowser url))
  let redirect ← awaitRedirect port cfg.loginTimeout
  let code ← Attempt.ofExcept id (redirect.codeFor state)
  let exchanged ← Attempt.ofAuth (Auth.Program.exchange {
    tokenServer := cfg.tokenEndpoint
    clientId := cfg.clientId
    code
    redirectUri := redirectUri port
    codeVerifier := pkce.map Auth.PkcePair.verifier })
  registerSession cfg (← Attempt.ofExcept .auth exchanged)
  Attempt.ofExcept id (← Attempt.of (saveCredentials cfg))
  Attempt.call (.emit .loggedIn)
  Attempt.of refreshAll

def requireAvailable (cfg : Config) : Attempt Unit := do
  if !(← Attempt.call .isAvailable) then throw (.endpointUnavailable cfg.apiEndpoint)

/-- Counts how a sign-in ended. -/
def counted (attempt : Attempt α) : Program (Except Error α) := do
  let result ← attempt.run
  call (.auth (.count (.login result.isOk)))
  return result

/-- Signs in through the browser. -/
def login (cfg : Config) : Program (Except Error Refreshes) := counted do
  requireAvailable cfg
  signIn cfg (← listen cfg.redirectPort)

/-- Signs in on a port that is open already. -/
def loginOn (cfg : Config) (port : Nat) : Program (Except Error Refreshes) := counted do
  requireAvailable cfg
  signIn cfg port

/-- What signing out leaves of the account in the settings. -/
def clearedEntries : Entries :=
  [Key.userId, Key.firstName, Key.lastName, Key.email, Key.roles, Key.accessToken,
    Key.updateToken, Key.expiresIn].map fun key => (key, "")

/-- Drops the credentials for each origin; the token server is told once. -/
def dropCredentials (cfg : Config) : Program Unit := do
  discard (ofAuth (Auth.Program.unregister cfg.apiEndpoint cfg.logoutEndpoint))
  cfg.extraOrigins.forM fun origin => discard (ofAuth (Auth.Program.unregister origin none))

/-- Signs out. What could not be stored is told at the end. -/
def logout (cfg : Config) : Program (Except Error Unit) := do
  let persisted ← call (.apply clearedEntries)
  dropCredentials cfg
  call (.setSession {})
  call (.emit .userInfoUpdated)
  call (.emit .supportInfoUpdated)
  return persisted

/-- An answer below 500 means that the service is there. -/
def isReachable : Answer → Bool
  | .ok response => response.status < 500
  | .error _ => false

/-- Tries an address without credentials and remembers the outcome. -/
def probe (url : String) : Program Bool := do
  let answer ← ofAuth (Auth.Program.fetchAuthorized (.head url)).withoutAuth
  call (.setAvailable (isReachable answer))
  return isReachable answer

/-- Tries the service again and again, so many times; the time between is not this program's. -/
def watch (cfg : Config) : Nat → Program Unit
  | 0 => pure ()
  | rounds + 1 => do
    let _ ← probe cfg.apiEndpoint
    watch cfg rounds

end AccountGate.Account.Program
