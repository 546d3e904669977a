import AccountGate.Codec.Base64
import AccountGate.Transport.Message
import AccountGate.Url.Error

/-!
What can go wrong on the way to credentials.
-/

namespace AccountGate.Auth

inductive Error where
  | exchangeUnanswered (cause : TransportError)
  | exchangeRefused (reason : String)
  | exchangeUndecodable
  | noAccessToken
  | revokeUnanswered (cause : TransportError)
  | revokeRefused (status : Nat) (text : String)
  | noPrefix
  | emptyPrefix
  | noUrl
  | invalidEndpoint (endpoint : String) (cause : Url.Error)
  | undecodableSegment (cause : Codec.Base64.Fault)
  deriving DecidableEq

namespace Error

def message : Error → String
  | .exchangeUnanswered cause =>
    "HTTP request failed: token exchange request failed: " ++ cause.message
  | .exchangeRefused reason => "token exchange failed: " ++ reason
  | .exchangeUndecodable =>
    "token exchange failed: invalid token response: " ++ (TransportError.decode "").message
  | .noAccessToken => "token exchange failed: token response has no access_token"
  | .revokeUnanswered cause => "HTTP request failed: " ++ cause.message
  | .revokeRefused status text =>
    "HTTP request failed: revoke returned " ++ toString status ++ ": " ++ text
  | .noPrefix => "invalid argument: no URL prefix given"
  | .emptyPrefix => "invalid argument: empty URL prefix"
  | .noUrl => "invalid argument: no URL to register the token under"
  | .invalidEndpoint endpoint cause =>
    "invalid argument: invalid authorization endpoint " ++ endpoint ++ ": " ++ cause.message
  | .undecodableSegment cause => "decode error: invalid base64url: " ++ cause.message

end Error

end AccountGate.Auth
