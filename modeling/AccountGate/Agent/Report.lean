import AccountGate.Account.User
import AccountGate.License.Verdict

/-!
What the agent tells about the account.
-/

namespace AccountGate.Agent

structure Report where
  authorized : Bool
  user : Account.User
  support : License.Status
  enterprise : Bool
  deriving DecidableEq, Repr

namespace Report

/-- The full name, or the id of a user without one, then the address and the id if not yet said. -/
def person (u : Account.User) : String :=
  let name := Text.trim (u.firstName ++ " " ++ u.lastName)
  let address := if u.email.isEmpty then "" else " <" ++ u.email ++ ">"
  if name.isEmpty then u.userId ++ address
  else name ++ address ++ " (" ++ u.userId ++ ")"

/-- The lines of a report. -/
def lines (r : Report) : List String :=
  ["account: " ++ (if r.authorized then person r.user else "not signed in"),
    "support: " ++ r.support.describe] ++
  (if r.enterprise then ["license: enterprise"] else [])

def render (r : Report) : String := String.intercalate "\n" r.lines

end Report

end AccountGate.Agent
