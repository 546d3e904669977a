import AccountGate.Account.User
import AccountGate.License.Entitlement
import AccountGate.Text.Ascii

/-!
Support claims as the account service reports them and as the settings keep them.
-/

namespace AccountGate.Account.SupportClaim

open License (Entitlement)

/-- Yes is `true`, a number other than zero, or one of the texts `true` and `1`. -/
def saysYes : Option Json → Bool
  | some (.bool b) => b
  | some (.text s) =>
    let word := (Text.trimChars s.toList).map Text.lower
    word == ['t', 'r', 'u', 'e'] || word == ['1']
  | some (.number n) => !n.isZero
  | _ => false

/-- The claim in a record; a record without a user speaks of the given one. -/
def ofRecord (value : Json) (userId : String) : Entitlement where
  userId := (textField? value ["nextgis_guid", "user_id"]).getD userId
  startDate := textField value ["start_date"]
  endDate := textField value ["end_date"]
  signature := textField value ["sign"]
  supported := saysYes (value.get? "supported")

def ofSettings (s : Settings) : Entitlement where
  userId := s.value Key.userId
  startDate := s.value Key.startDate
  endDate := s.value Key.endDate
  signature := s.value Key.sign
  supported := s.value? Key.supported == some "true"

/-- What is stored of a claim: signature and dates only when it claims support. -/
def changes (e : Entitlement) : Entries :=
  if e.supported then [
    (Key.supported, "true"),
    (Key.sign, e.signature),
    (Key.startDate, e.startDate),
    (Key.endDate, e.endDate)]
  else [(Key.supported, "false")]

end AccountGate.Account.SupportClaim
