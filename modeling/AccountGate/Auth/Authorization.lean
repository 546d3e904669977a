/-!
What a request may carry to prove who sends it.
-/

namespace AccountGate.Auth

/-- The answer to the question for credentials. -/
inductive Authorization where
  | none
  | header (scheme credential : String)
  | expired
  deriving DecidableEq

namespace Authorization

def headerName : String := "Authorization"

/-- The header value, without the name. -/
def value? : Authorization → Option String
  | .header scheme credential => some (scheme ++ " " ++ credential)
  | _ => Option.none

/-- Nothing, a whole header line, or the word for a session that is over. -/
def text : Authorization → String
  | .none => ""
  | .header scheme credential => headerName ++ ": " ++ scheme ++ " " ++ credential
  | .expired => "expired"

def isExpired : Authorization → Bool
  | .expired => true
  | _ => false

/-- The form for messages, without the credential. -/
def shown : Authorization → String
  | .none => "Authorization::None"
  | .header _ _ => "Authorization::Header([REDACTED])"
  | .expired => "Authorization::Expired"

end Authorization

end AccountGate.Auth
