import AccountGate.Rsa.Signature

/-!
What a check of a signature or of a support claim can say.
-/

namespace AccountGate.License

/-- Why a signature or a claim is not accepted. -/
inductive Reason where
  | emptyMessage
  | emptySignature
  | keyUnavailable (detail : String)
  | malformedKey
  | malformedSignature (detail : String)
  | signatureMismatch
  | malformedDate (detail : String)
  deriving DecidableEq, Repr

def Reason.message : Reason → String
  | .emptyMessage => "signed message is empty"
  | .emptySignature => "signature is empty"
  | .keyUnavailable detail => "public key unavailable: " ++ detail
  | .malformedKey => "public key is malformed: "
  | .malformedSignature detail => "signature is malformed: " ++ detail
  | .signatureMismatch => "signature does not match"
  | .malformedDate detail => "entitlement date is malformed: " ++ detail

/-- The outcome of a check of a support claim. -/
inductive Status where
  | supported
  | unsupported
  | rejected (reason : Reason)
  | expired
  deriving DecidableEq, Repr

def Status.isSupported : Status → Bool
  | .supported => true
  | _ => false

def Status.label : Status → String
  | .supported => "supported"
  | .unsupported => "unsupported"
  | .rejected _ => "rejected"
  | .expired => "expired"

/-- How a report words a status. -/
def Status.describe : Status → String
  | .supported => "active"
  | .unsupported => "none"
  | .expired => "expired"
  | .rejected reason => "invalid (" ++ reason.message ++ ")"

/-- Checks a signature over a message with the key that a text holds; nothing when it is good. -/
def fault? (message signature : Bytes) (keyText : String) : Option Reason :=
  if message.isEmpty then some .emptyMessage
  else if signature.isEmpty then some .emptySignature
  else if (Text.trim keyText).isEmpty then some (.keyUnavailable "public key is empty")
  else match Rsa.PublicKey.parse? keyText with
    | none => some .malformedKey
    | some key => if Rsa.verifies key message signature then none else some .signatureMismatch

end AccountGate.License
