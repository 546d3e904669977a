import AccountGate.Auth.Call
import AccountGate.Auth.Grant
import AccountGate.Transport.Client

/-!
Sending requests. A request gets credentials unless they are withheld or it has its own; those to
the token server never do. Main statement: a withheld request goes out as it is, whatever would add
credentials.
-/

namespace AccountGate.Auth.Program

/-- Finds the credentials for an address. -/
abbrev Hook := String → Program (Option String)

/-- Sends a request, with the credentials that the hook finds. -/
def fetch (hook : Hook) (request : Request) : Program Answer :=
  request.sendBy (call .suspended) hook fun suspended authorization =>
    call (.send { request, suspended, authorization })

def noHook : Hook := fun _ => pure none

theorem withoutAuth_fetch (hook : Hook) (request : Request) :
    withoutAuth (fetch hook request) = call (.send { request, suspended := true }) := rfl

/-- A form to the token server. -/
def post (url : String) (fields : List (String × String)) : Program Answer :=
  withoutAuth (fetch noHook (.postForm url fields))

/-- Exchanges a code for the credentials of a session that starts now. -/
def exchange (x : CodeExchange) : Program (Except Error Credentials) := do
  let answer ← post x.tokenServer x.fields
  match exchangeOutcome answer with
  | .error e => return .error e
  | .ok (access, token) => return .ok (x.credentials access token (← now))

def refresh (tokenServer clientId refreshToken : String) : Program RefreshOutcome := do
  return refreshOutcome (← post tokenServer (refreshFields clientId refreshToken))

def revoke (logoutUrl clientId refreshToken : String) : Program (Except Error Unit) := do
  return revokeOutcome (← post logoutUrl (revokeFields clientId refreshToken))

end AccountGate.Auth.Program
