import AccountGate.Auth.Error
import AccountGate.Disk.Fault
import AccountGate.License.Verdict

/-!
What can go wrong with an account.
-/

namespace AccountGate.License

/-- Why a public key is not stored. -/
inductive KeyError where
  | unstorable (cause : Disk.Fault)
  | malformed
  deriving DecidableEq

def KeyError.message : KeyError → String
  | .unstorable cause => "IO error: " ++ cause.message
  | .malformed => "malformed public key: " ++ Reason.malformedKey.message

end AccountGate.License

namespace AccountGate.Account

inductive Error where
  | auth (cause : Auth.Error)
  | transport (cause : TransportError)
  | key (cause : License.KeyError)
  | disk (cause : Disk.Fault)
  | settings (detail : String)
  | listener (port : Nat) (cause : Disk.Fault)
  | browser (detail : String)
  | loginRejected (detail : String)
  | stateMismatch
  | loginTimeout
  | endpointUnavailable (endpoint : String)
  | tokenSegments (count : Nat)
  | tokenEncoding (cause : Codec.Base64.Fault)
  | tokenNotJson
  | tokenNotObject
  | licenseNotJson (path : String)
  | refused (url : String) (status : Nat)
  | keyRefused (status : Nat)
  deriving DecidableEq

namespace Error

/-- The settings file holds something else than a map of texts. -/
def settingsNotMap (path : String) : Error := .settings ("parsing " ++ path ++ ": ")

/-- Text that could not be decoded. -/
def decodeMessage (detail : String) : String := "decode error: " ++ detail

def message : Error → String
  | .auth cause => cause.message
  | .transport cause => "transport error: " ++ cause.message
  | .key cause => cause.message
  | .disk cause => "IO error: " ++ cause.message
  | .settings detail => "settings error: " ++ detail
  | .listener port cause =>
    "cannot listen for the sign-in redirect on 127.0.0.1:" ++ toString port ++ ": " ++
      cause.message
  | .browser detail => "cannot open browser: " ++ detail
  | .loginRejected detail => "sign in failed: " ++ detail
  | .stateMismatch => "sign in redirect carried an unexpected state"
  | .loginTimeout => "timed out waiting for sign in"
  | .endpointUnavailable endpoint => "account endpoint " ++ endpoint ++ " is unavailable"
  | .tokenSegments count =>
    decodeMessage ("token has " ++ toString count ++ " segments, expected 3")
  | .tokenEncoding cause => decodeMessage (Auth.Error.undecodableSegment cause).message
  | .tokenNotJson => decodeMessage "token payload is not JSON: "
  | .tokenNotObject => decodeMessage "token payload is not a JSON object"
  | .licenseNotJson path => decodeMessage ("parsing " ++ path ++ ": ")
  | .refused url status => decodeMessage (url ++ " returned " ++ toString status)
  | .keyRefused status =>
    decodeMessage ("public key download returned " ++ toString status)

/-- The message, then those of what caused it. -/
def chain (e : Error) : List String :=
  e.message :: match e with
    | .transport cause => [cause.message]
    | .key (.unstorable cause) => [cause.message]
    | .disk cause => [cause.message]
    | .listener _ cause => [cause.message]
    | _ => []

end Error

end AccountGate.Account
