import AccountGate.Auth.Authorization
import AccountGate.Auth.Secret
import AccountGate.Codec.Base64
import AccountGate.Text.Quoted

/-!
Credentials: a fixed Basic value, or a pair of tokens of which the first is renewed with the second.
-/

namespace AccountGate.Auth

/-- Where a bearer session stands; `expired` is for good. -/
inductive TokenState where
  | valid
  | refreshing
  | expired
  deriving DecidableEq, Repr

def TokenState.name : TokenState → String
  | .valid => "Valid"
  | .refreshing => "Refreshing"
  | .expired => "Expired"

/-- All that a bearer session starts from. A last refresh of 0 asks for a refresh at once. -/
structure Credentials where
  clientId : String := ""
  tokenServer : String := ""
  accessToken : String := ""
  refreshToken : String := ""
  expiresIn : Int := 0
  lastRefresh : Int := 0
  deriving DecidableEq

/-- The form for messages, without the tokens. -/
def Credentials.shown (c : Credentials) : String :=
  "BearerCredentials \x7b client_id: " ++ Text.quoted c.clientId ++
    ", token_server: " ++ Text.quoted c.tokenServer ++
    ", access_token: " ++ Text.quoted "[REDACTED]" ++
    ", refresh_token: " ++ Text.quoted "[REDACTED]" ++
    ", expires_in: " ++ toString c.expiresIn ++
    ", last_refresh: " ++ toString c.lastRefresh ++ " \x7d"

/-- The part of a bearer session that changes. -/
structure Tokens where
  access : Secret
  refresh : Secret
  expiresIn : Int
  lastRefresh : Int
  status : TokenState
  deriving DecidableEq

structure Bearer where
  clientId : String
  tokenServer : String
  tokens : Tokens
  deriving DecidableEq

inductive Strategy where
  | basic (encoded : Secret)
  | bearer (b : Bearer)
  deriving DecidableEq

/-- Named fields of a strategy, as they are stored. -/
abbrev Properties := List (String × String)

def basicHeader (encoded : Secret) : Authorization := .header "Basic" encoded.value

/-- Basic credentials from their two parts. -/
def encodeBasic (login password : String) : Secret :=
  ⟨Codec.Base64.encode (Text.bytes (login ++ ":" ++ password))⟩

def Tokens.header (t : Tokens) : Authorization := .header "Bearer" t.access.value

def Bearer.ofCredentials (c : Credentials) : Bearer where
  clientId := c.clientId
  tokenServer := c.tokenServer
  tokens := {
    access := ⟨c.accessToken⟩
    refresh := ⟨c.refreshToken⟩
    expiresIn := c.expiresIn
    lastRefresh := c.lastRefresh
    status := if c.accessToken.isEmpty then .expired else .valid }

def Bearer.properties (b : Bearer) : Properties := [
  ("type", "bearer"),
  ("clientId", b.clientId),
  ("accessToken", b.tokens.access.value),
  ("refreshToken", b.tokens.refresh.value),
  ("tokenServer", b.tokenServer),
  ("expiresIn", toString b.tokens.expiresIn)]

def Strategy.properties : Strategy → Properties
  | .basic encoded => [("type", "basic"), ("credentials", encoded.value)]
  | .bearer b => b.properties

def basicShown (encoded : Secret) : String :=
  "BasicAuthStrategy \x7b encoded: " ++ encoded.shown ++ " \x7d"

def Bearer.shown (b : Bearer) : String :=
  "BearerAuthStrategy \x7b client_id: " ++ Text.quoted b.clientId ++
    ", token_server: " ++ Text.quoted b.tokenServer ++ ", .. \x7d"

def Strategy.shown : Strategy → String
  | .basic encoded => "Basic(" ++ basicShown encoded ++ ")"
  | .bearer b => "Bearer(" ++ b.shown ++ ")"

end AccountGate.Auth
