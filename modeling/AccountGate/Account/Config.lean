import AccountGate.Digest.Sha256
import AccountGate.Disk.Path
import AccountGate.Text.Blank
import AccountGate.Text.Quoted

/-!
What an account needs to know about its service and its places on the disk.
-/

namespace AccountGate.Account

/-- The directory of one client, named for the digest of its id. -/
def clientDir (base clientId : String) : String :=
  Disk.join base (Digest.Sha256.hex (Text.bytes clientId))

/-- The port that the browser is sent back to. -/
def redirectPort : Nat := 65020

structure Config where
  clientId : String
  apiEndpoint : String
  scope : String := "user_info.read"
  tokenEndpoint : String := apiEndpoint ++ "/oauth2/token/"
  authEndpoint : String := apiEndpoint ++ "/oauth2/authorize/"
  logoutEndpoint : Option String := none
  extraOrigins : List String := []
  pkce : Bool := true
  tokenClaims : Bool := false
  configDir : String := "."
  licenseDir : String := "/usr/share/license"
  redirectPort : Nat := Account.redirectPort
  loginTimeout : Nat := 300
  deriving DecidableEq, Repr

namespace Config

def clientDir (c : Config) : String := Account.clientDir c.configDir c.clientId

/-- The address of a resource of the account service. -/
def resource (c : Config) (name : String) : String :=
  Text.trimEndOf '/' c.apiEndpoint ++ "/" ++ name ++ "/"

/-- Where requests carry the credentials of the account. -/
def origins (c : Config) : List String := c.apiEndpoint :: c.extraOrigins

/-- The form of an account with this configuration for messages. -/
def shown (c : Config) : String :=
  "AccessController \x7b client_id: " ++ Text.quoted c.clientId ++
    ", api_endpoint: " ++ Text.quoted c.apiEndpoint ++ ", .. \x7d"

end Config

end AccountGate.Account
