import AccountGate.Auth.Session
import AccountGate.Transport.Headers

/-!
The registry at work: strategies come and go, and every request that asks gets the header of the
strategy that serves its address.
-/

namespace AccountGate.Auth.Program

/-- Puts one strategy in charge of all the given starts. -/
def register (starts : List String) (strategy : Strategy) : Program (Except Error Handle) :=
  match Registry.fault? starts with
  | some e => pure (.error e)
  | none => do
    let handle ← call (.create strategy)
    call (.enrol starts handle)
    return .ok handle

/-- Removes a record; with a logout address the token server is told, whatever it answers. -/
def unregister (start : String) (logoutUrl : Option String) : Program Bool := do
  match ← call (.remove start) with
  | none => return false
  | some handle =>
    match logoutUrl, handle with
    | some url, .bearer id clientId _ => do
      let current ← tokens id
      discard (revoke url clientId current.refresh.value)
      return true
    | _, _ => return true

/-- The header for an address. -/
def resolve (url : String) : Program Authorization := do
  match ← call (.find url) with
  | none => return .none
  | some handle => header handle

/-- What a request to an address carries: a header value, if there is one and it is legal. -/
def authorization : Hook := fun url => do
  return (← resolve url).value?.filter Headers.isLegalValue

def propertiesFor (url : String) : Program Properties := do
  match ← call (.find url) with
  | none => return []
  | some handle => properties handle

/-- What serves an address: fixed credentials, or a session in some state. -/
def status (url : String) : Program (Option String) := do
  match ← call (.find url) with
  | none => return none
  | some (.basic ..) => return some "basic"
  | some (.bearer id _ _) => return some (← tokens id).status.name

/-- Exchanges a code and registers the session. -/
def exchangeAndRegister (starts : List String) (x : CodeExchange) :
    Program (Except Error Handle) :=
  if starts.isEmpty then pure (.error .noUrl)
  else do
    match ← exchange x with
    | .error e => return .error e
    | .ok credentials => register starts (.bearer (.ofCredentials credentials))

/-- Sends a request with the credentials that the registry has for it. -/
def fetchAuthorized (request : Request) : Program Answer := fetch authorization request

end AccountGate.Auth.Program
