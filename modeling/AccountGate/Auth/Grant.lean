import AccountGate.Auth.Error
import AccountGate.Auth.Strategy
import AccountGate.Auth.TokenResponse

/-!
The three requests to the token server, and what their answers mean. A refresh is accepted only by
a success whose body decodes and reports no error, and an exchange in the same cases, when there is
an access token.
-/

namespace AccountGate.Auth

/-- An authorization code and all that goes with it. -/
structure CodeExchange where
  tokenServer : String
  clientId : String
  code : String
  redirectUri : String
  codeVerifier : Option String := none

def CodeExchange.fields (x : CodeExchange) : List (String × String) :=
  [("grant_type", "authorization_code"), ("code", x.code), ("redirect_uri", x.redirectUri),
    ("client_id", x.clientId)] ++ (x.codeVerifier.map fun v => ("code_verifier", v)).toList

def refreshFields (clientId refreshToken : String) : List (String × String) :=
  [("grant_type", "refresh_token"), ("client_id", clientId), ("refresh_token", refreshToken)]

def revokeFields (clientId refreshToken : String) : List (String × String) :=
  [("client_id", clientId), ("refresh_token", refreshToken)]

/-- The reason of a failed response: its own explanation, or its text. -/
def failureReason (r : Response) : String :=
  let detail := ((TokenResponse.parse? r.body).bind TokenResponse.rejection?).getD r.text
  "token endpoint returned " ++ toString r.status ++ ": " ++ detail

/-- What became of a refresh. -/
inductive RefreshOutcome where
  | refreshed (response : TokenResponse)
  | unreachable (cause : TransportError)
  | rejected (reason : String)
  deriving DecidableEq

/-- The form for messages, without the tokens of a response. -/
def RefreshOutcome.shown : RefreshOutcome → String
  | .refreshed response => "Refreshed(" ++ response.shown ++ ")"
  | .unreachable cause => "Unreachable(" ++ cause.shown ++ ")"
  | .rejected reason => "Rejected(" ++ Text.quoted reason ++ ")"

def refreshOutcome : Answer → RefreshOutcome
  | .error cause => .unreachable cause
  | .ok r =>
    if !r.isSuccess then .rejected (failureReason r)
    else match TokenResponse.parse? r.body with
      | none => .rejected ("invalid refresh response: " ++ (TransportError.decode "").message)
      | some token =>
        match token.rejection? with
        | some reason => .rejected reason
        | none => .refreshed token

/-- The tokens that an exchange yields; the access token is not empty. -/
def exchangeOutcome : Answer → Except Error (String × TokenResponse)
  | .error cause => .error (.exchangeUnanswered cause)
  | .ok r =>
    if !r.isSuccess then .error (.exchangeRefused (failureReason r))
    else match TokenResponse.parse? r.body with
      | none => .error .exchangeUndecodable
      | some token =>
        match token.rejection? with
        | some reason => .error (.exchangeRefused reason)
        | none =>
          match filled token.accessToken with
          | some access => .ok (access, token)
          | none => .error .noAccessToken

def revokeOutcome : Answer → Except Error Unit
  | .error cause => .error (.revokeUnanswered cause)
  | .ok r => if r.isSuccess then .ok () else .error (.revokeRefused r.status r.text)

/-- The session that starts with the tokens of an exchange, refreshed just now. -/
def CodeExchange.credentials (x : CodeExchange) (access : String) (token : TokenResponse)
    (now : Int) : Credentials where
  clientId := x.clientId
  tokenServer := x.tokenServer
  accessToken := access
  refreshToken := token.refreshToken.getD ""
  expiresIn := token.expiresIn.getD 0
  lastRefresh := now

end AccountGate.Auth
