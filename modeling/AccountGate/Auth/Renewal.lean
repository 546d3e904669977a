import AccountGate.Auth.Grant

/-!
The life of a bearer session: when its tokens are fresh, and what becomes of them when the token
server sends new ones or refuses them.
-/

namespace AccountGate.Auth

/-- Seconds off the lifetime of a token, for clocks and requests that are late. -/
def safetyMargin : Int := 5

def Tokens.isFresh (t : Tokens) (now : Int) : Bool :=
  now - t.lastRefresh + safetyMargin < t.expiresIn

/-- What a question for the header calls for. -/
inductive Decision where
  | expired
  | current
  | refresh
  deriving DecidableEq, Repr

/-- New tokens count when they are not empty, a new lifetime when there is one. -/
def Tokens.renewed (t : Tokens) (response : TokenResponse) (now : Int) : Tokens where
  access := ((filled response.accessToken).map t.access.replace).getD t.access
  refresh := ((filled response.refreshToken).map t.refresh.replace).getD t.refresh
  expiresIn := response.expiresIn.getD t.expiresIn
  lastRefresh := now
  status := .valid

/-- A refusal ends the session. -/
def Tokens.refused (t : Tokens) : Tokens := { t with access := t.access.clear, status := .expired }

/-- Silence of the server leaves the session as it was. -/
def Tokens.kept (t : Tokens) : Tokens := { t with status := .valid }

def Tokens.answer (t : Tokens) : Authorization :=
  if t.status = .expired then .expired else t.header

end AccountGate.Auth
