import AccountGate.License.Verdict

/-!
What is counted.
-/

namespace AccountGate

inductive Counter where
  | tokenRefreshed
  | refreshUnanswered
  | refreshRefused
  | verification (label : String)
  | login (success : Bool)
  deriving DecidableEq, Repr

namespace Counter

/-- The counter of a check with the given outcome. -/
def ofStatus (s : License.Status) : Counter := .verification s.label

def labelled (name label value : String) : String :=
  name ++ "\x7b" ++ label ++ "=" ++ value ++ "\x7d"

/-- The name under which a count is reported. -/
def name : Counter → String
  | .tokenRefreshed => labelled "auth_token_refresh_total" "outcome" "refreshed"
  | .refreshUnanswered => labelled "auth_token_refresh_total" "outcome" "transient"
  | .refreshRefused => labelled "auth_token_refresh_total" "outcome" "expired"
  | .verification label => labelled "license_verifications_total" "result" label
  | .login success =>
    labelled "account_logins_total" "outcome" (if success then "success" else "failure")

end Counter

end AccountGate
