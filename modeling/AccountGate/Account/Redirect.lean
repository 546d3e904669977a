import AccountGate.Account.Error
import AccountGate.Url.Form

/-!
What the browser brings back from the sign-in, and the code that is taken from it.
-/

namespace AccountGate.Account

/-- What the query of the redirect may hold. -/
structure Redirect where
  code : Option String := none
  state : Option String := none
  error : Option String := none
  errorDescription : Option String := none
  deriving DecidableEq, Repr

namespace Redirect

def isFilled (s : Option String) : Bool := (s.filter fun t => !t.isEmpty).isSome

def isError (r : Redirect) : Bool := isFilled r.error || isFilled r.errorDescription

/-- The authorization code, if the redirect reports no error and echoes the state. -/
def codeFor (r : Redirect) (expectedState : String) : Except Error String :=
  if r.isError then
    let reason := ((r.errorDescription.filter fun d => !d.isEmpty).or r.error).getD ""
    .error (.loginRejected reason)
  else if r.state ≠ some expectedState then .error .stateMismatch
  else match r.code.filter fun c => !c.isEmpty with
    | some code => .ok code
    | none => .error (.loginRejected "redirect carried no authorization code")

/-- Takes one pair in; none may come twice, and other names do not count. -/
def take (r : Redirect) (pair : String × String) : Option Redirect :=
  let (name, value) := pair
  if name = "code" then if r.code.isNone then some { r with code := value } else none
  else if name = "state" then if r.state.isNone then some { r with state := value } else none
  else if name = "error" then if r.error.isNone then some { r with error := value } else none
  else if name = "error_description" then
    if r.errorDescription.isNone then some { r with errorDescription := value } else none
  else some r

def ofQuery? (query : Bytes) : Option Redirect := (Url.Form.decode query).foldlM take {}

end Redirect

end AccountGate.Account
