import AccountGate.Auth.Error
import AccountGate.Auth.Pkce
import AccountGate.Url.Basic

/-!
The address at which the user signs in. Its query ends in the pairs of the request.
-/

namespace AccountGate.Auth

structure AuthorizationRequest where
  endpoint : String
  clientId : String
  redirectUri : String
  scope : String
  state : String
  codeChallenge : Option String := none
  deriving DecidableEq, Repr

namespace AuthorizationRequest

def pairs (r : AuthorizationRequest) : Url.Form.Pairs :=
  [("response_type", "code"), ("client_id", r.clientId), ("redirect_uri", r.redirectUri),
    ("scope", r.scope), ("state", r.state)] ++
  (match r.codeChallenge with
    | some challenge => [("code_challenge", challenge), ("code_challenge_method", "S256")]
    | none => [])

/-- The endpoint with the pairs after those that its query already has. -/
def url (r : AuthorizationRequest) : Except Error String :=
  match Url.parse r.endpoint with
  | .ok url => .ok (url.addPairs r.pairs).render
  | .error cause => .error (.invalidEndpoint r.endpoint cause)

end AuthorizationRequest

end AccountGate.Auth
