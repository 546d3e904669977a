import AccountGate.Account.Settings
import AccountGate.Text.Blank

/-!
Who is signed in: from a record of the account service, from the claims of a token, and from the
settings that keep it.
-/

namespace AccountGate.Account

structure User where
  userId : String := ""
  firstName : String := ""
  lastName : String := ""
  email : String := ""
  roles : List String := []
  deriving DecidableEq, Repr

/-- The first text among the named members, if it says something. -/
def textField? (value : Json) (names : List String) : Option String :=
  (names.findSome? fun name => (value.get? name).bind Json.asText?).filter fun s => !s.isEmpty

def textField (value : Json) (names : List String) : String := (textField? value names).getD ""

/-- The roles of a comma-separated list, without blanks around them and without empty ones. -/
def splitRoles (list : String) : List String :=
  ((Text.split ',' list).map Text.trim).filter fun role => !role.isEmpty

/-- Roles are an array, of which the texts count, or a comma-separated list. -/
def rolesOf : Option Json → List String
  | some (.array items) => items.filterMap Json.asText?
  | some (.text list) => splitRoles list
  | _ => []

namespace User

/-- The user that a record of the account service or a license describes. -/
def ofRecord (value : Json) : User where
  userId := textField value ["nextgis_guid", "user_id"]
  firstName := textField value ["first_name"]
  lastName := textField value ["last_name"]
  email := textField value ["email"]
  roles := rolesOf (value.get? "roles")

/-- The user that the claims of an access token describe. -/
def ofClaims (claims : Json) : User where
  userId := textField claims ["sub"]
  firstName := textField claims ["given_name", "first_name"]
  lastName := textField claims ["family_name", "last_name"]
  email := textField claims ["email"]
  roles := match claims.get? "roles" with
    | some list => rolesOf (some list)
    | none => rolesOf ((claims.get? "realm_access").bind (Json.get? "roles"))

def ofSettings (s : Settings) : User where
  userId := s.value Key.userId
  firstName := s.value Key.firstName
  lastName := s.value Key.lastName
  email := s.value Key.email
  roles := ((s.value? Key.roles).map splitRoles).getD []

def joinRoles (roles : List String) : String := String.intercalate "," roles

/-- What is stored of a user. -/
def changes (u : User) : Entries := [
  (Key.userId, u.userId),
  (Key.firstName, u.firstName),
  (Key.lastName, u.lastName),
  (Key.email, u.email),
  (Key.roles, joinRoles u.roles)]

def isEmpty (u : User) : Bool := u.userId.isEmpty

end User

end AccountGate.Account
