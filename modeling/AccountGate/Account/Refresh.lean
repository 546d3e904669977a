import AccountGate.Account.Claims
import AccountGate.Account.Credentials
import AccountGate.Account.Support

/-!
The two jobs that keep an account fresh. Each ends by storing the tokens, should they have been
renewed on the way.
-/

namespace AccountGate.Account.Program

/-- The user that the claims of the access token describe, if they name one. -/
def userOfToken (cfg : Config) : Attempt (Option User) := do
  let properties ← Attempt.of (credentialProperties cfg)
  match Auth.filled (properties.lookup "accessToken") with
  | none => return none
  | some token =>
    let user := User.ofClaims (← Attempt.ofExcept id (claims token))
    return if user.isEmpty then none else some user

/-- The user of the installed license, else the one that the service knows, else, where that is
wanted, the one of the access token. -/
def fetchUser (cfg : Config) : Attempt (Option User) := do
  match ← Attempt.ofExcept id (← Attempt.call .license) with
  | some license => return some (User.ofRecord license)
  | none =>
    let body ← Attempt.of (fetchJson (cfg.resource "user_info")).run
    match body with
    | .ok record => return some (User.ofRecord record)
    | .error e => if cfg.tokenClaims then userOfToken cfg else throw e

/-- Fetches and stores the user; the session takes over what is stored then. A change of the user
makes another check of support necessary, since the signed claim covers the user. -/
def refreshUser (cfg : Config) : Program Unit := do
  let before ← tokenPair cfg
  let previousId := (← call .settings).value Key.userId
  match ← (fetchUser cfg).run with
  | .ok (some user) => discard (call (.apply user.changes))
  | .ok none => pure ()
  | .error _ => pure ()
  let stored ← call .settings
  let userId := stored.value? Key.userId
  call (.setUser userId.isSome (if userId.isSome then .ofSettings stored else {}))
  call (.emit .userInfoUpdated)
  if userId.getD "" ≠ previousId then
    updateSupported
    call (.emit .supportInfoUpdated)
  saveIfChanged cfg before

/-- Fetches and stores the claim and its key, then checks what is stored. -/
def refreshSupport (cfg : Config) : Program Unit := do
  let before ← tokenPair cfg
  discard (fetchClaim cfg).run
  updateSupported
  call (.emit .supportInfoUpdated)
  saveIfChanged cfg before

/-- The numbers of the two jobs. -/
structure Refreshes where
  user : Nat
  support : Nat
  deriving DecidableEq, Repr

def refreshAll : Program Refreshes := do
  let user ← call (.spawn .refreshUser)
  let support ← call (.spawn .refreshSupport)
  return ⟨user, support⟩

/-- Waits for both jobs. -/
def joinAll (tasks : Refreshes) : Program Unit := do
  call (.join tasks.user)
  call (.join tasks.support)

def ofJob (cfg : Config) : Job → Program Unit
  | .refreshUser => refreshUser cfg
  | .refreshSupport => refreshSupport cfg

end AccountGate.Account.Program
