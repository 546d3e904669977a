import AccountGate.Account.Call

/-!
The tokens of the account between the registry and the settings.
-/

namespace AccountGate.Account.Program

def credentialProperties (cfg : Config) : Program Auth.Properties :=
  ofAuth (Auth.Program.propertiesFor cfg.apiEndpoint)

/-- What is stored of the credentials for the service. -/
def credentialChanges (properties : Auth.Properties) : Entries :=
  let field (name : String) : String := (properties.lookup name).getD ""
  [(Key.accessToken, field "accessToken"), (Key.updateToken, field "refreshToken"),
    (Key.expiresIn, field "expiresIn")]

/-- Stores the credentials that are in use, if there are any. -/
def saveCredentials (cfg : Config) : Program (Except Error Unit) := do
  let properties ← credentialProperties cfg
  if properties.isEmpty then return .ok ()
  call (.apply (credentialChanges properties))

/-- Access token and refresh token at a moment. -/
abbrev TokenPair := Option String × Option String

def tokenPair (cfg : Config) : Program TokenPair := do
  let properties ← credentialProperties cfg
  return (properties.lookup "accessToken", properties.lookup "refreshToken")

/-- Stores the credentials if they are no longer what they were. -/
def saveIfChanged (cfg : Config) (before : TokenPair) : Program Unit := do
  if (← tokenPair cfg) ≠ before then discard (saveCredentials cfg)

end AccountGate.Account.Program
