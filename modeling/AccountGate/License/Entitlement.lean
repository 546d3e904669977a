import AccountGate.Calendar.Date
import AccountGate.Json.Record
import AccountGate.License.Verdict
import AccountGate.Text.Quoted

/-!
Support claims: a user, a period with both ends included, and a signature over them.
-/

namespace AccountGate.License

structure Entitlement where
  userId : String := ""
  startDate : String := ""
  endDate : String := ""
  signature : String := ""
  supported : Bool := false
  deriving DecidableEq, Repr

namespace Entitlement

/-- The text that is signed: user, start and end without separators, and the word `true`. -/
def message (e : Entitlement) : String := e.userId ++ e.startDate ++ e.endDate ++ "true"

def date (text : String) : Except Reason Date :=
  match Date.parse text with
  | .ok d => .ok d
  | .error f => .error (.malformedDate (Text.quoted text ++ ": " ++ f.message))

/-- Checks a claim: the signature first, then the dates, then the period. -/
def check (e : Entitlement) (keyText : String) (today : Date) : Status :=
  if !e.supported then .unsupported
  else match Codec.Base64.decode e.signature with
    | .error f => .rejected (.malformedSignature ("decode error: invalid base64: " ++ f.message))
    | .ok signature =>
      match fault? (Text.bytes e.message) signature keyText with
      | some reason => .rejected reason
      | none =>
        match date e.startDate, date e.endDate with
        | .error reason, _ => .rejected reason
        | .ok _, .error reason => .rejected reason
        | .ok first, .ok last =>
          if first ≤ today ∧ today ≤ last then .supported else .expired

/-- Reads a record of which every field is there and of its type. -/
def parse? (bs : Bytes) : Option Entitlement :=
  match Json.Record.read? ["user_id", "start_date", "end_date", "signature", "supported"] bs with
  | some [some (.text userId), some (.text startDate), some (.text endDate),
      some (.text signature), some (.bool supported)] =>
    some { userId, startDate, endDate, signature, supported }
  | _ => none

end Entitlement

end AccountGate.License
