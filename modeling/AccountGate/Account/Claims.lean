import AccountGate.Account.Error
import AccountGate.Text.Blank

/-!
The claims that an access token carries, read without a check of its signature.
-/

namespace AccountGate.Account

/-- The middle one of exactly three segments, an object in Base64. -/
def claims (token : String) : Except Error Json :=
  match Text.split '.' token with
  | [_, payload, _] =>
    match Codec.Base64.decodeUrl payload with
    | .error fault => .error (.tokenEncoding fault)
    | .ok bs =>
      match Json.parse? bs with
      | none => .error .tokenNotJson
      | some value => if value.isObject then .ok value else .error .tokenNotObject
  | segments => .error (.tokenSegments segments.length)

end AccountGate.Account
