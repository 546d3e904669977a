import AccountGate.Account.Config
import AccountGate.Disk.Fault
import AccountGate.Toml.Document
import AccountGate.Transport.Policy

/-!
The configuration of the agent: read from a text, overlaid by the environment, then checked.
-/

namespace AccountGate.Agent

inductive LogFormat where
  | json
  | text
  deriving DecidableEq, Repr

/-- The account and the service that keeps it. -/
structure Service where
  clientId : String
  apiEndpoint : String
  scope : String := "user_info.read"
  tokenEndpoint : Option String := none
  authEndpoint : Option String := none
  logoutEndpoint : Option String := none
  extraOrigins : List String := []
  pkce : Bool := true
  tokenClaims : Bool := false
  deriving DecidableEq, Repr

structure Places where
  configDir : String := ".account-agent"
  licenseDir : String := "/usr/share/license"
  deriving DecidableEq, Repr

/-- Times in seconds, counts and ports. -/
structure Network where
  connectTimeout : Nat := 15
  timeout : Nat := 20
  maxRetry : Nat := 3
  retryDelay : Nat := 5
  probeInterval : Nat := 60
  refreshInterval : Nat := 3600
  loginTimeout : Nat := 300
  redirectPort : Nat := Account.redirectPort
  deriving DecidableEq, Repr

structure Config where
  service : Service
  places : Places := {}
  network : Network := {}
  logFormat : LogFormat := .text
  headers : Headers := []
  deriving DecidableEq, Repr

namespace Config

/-- Why there is no configuration. -/
inductive Fault where
  | unreadable (cause : Disk.Fault)
  | malformed
  | rejected (detail : String)
  deriving DecidableEq, Repr

def Fault.message : Fault → String
  | .unreadable cause => "I/O error: " ++ cause.message
  | .malformed => "TOML parse error"
  | .rejected detail => "Configuration error: " ++ detail

/-- The message, then those of what caused it. -/
def Fault.chain (e : Fault) : List String :=
  e.message :: match e with
    | .unreadable cause => [cause.message]
    | .malformed => [Fault.malformed.message]
    | .rejected _ => []

/-- The fields of a record: a table by their names, an array by their places; all else but a moment
in time is no record. -/
def fields? (names : List String) : Toml.Value → Option (List (Option Toml.Value))
  | .table _ entries => some (names.map fun name => entries.lookup name)
  | .array _ items => some (names.mapIdx fun i _ => items[i]?)
  | .moment => some (names.map fun _ => none)
  | _ => none

/-- A field that may be missing. -/
def field (read : Toml.Value → Option α) (default : α) : Option Toml.Value → Option α
  | none => some default
  | some value => read value

def text? : Toml.Value → Option String
  | .text s => some s
  | _ => none

def flag? : Toml.Value → Option Bool
  | .boolean b => some b
  | _ => none

def list? (read : Toml.Value → Option α) : Toml.Value → Option (List α)
  | .array _ items => items.mapM read
  | _ => none

/-- A number of so many bits without a sign. -/
def word? (bits : Nat) : Toml.Value → Option Nat
  | .integer n => if 0 ≤ n ∧ n < Nat.pow 2 bits then some n.toNat else none
  | _ => none

def logFormatNamed? (name : String) : Option LogFormat :=
  if name = "json" then some .json else if name = "text" then some .text else none

/-- A name, or a table with the name alone over nothing. -/
def logFormat? : Toml.Value → Option LogFormat
  | .text name => logFormatNamed? name
  | .table _ [(name, .table _ [])] => logFormatNamed? name
  | .table _ [(name, .array _ [])] => logFormatNamed? name
  | _ => none

def service? (value : Toml.Value) : Option Service := do
  let fs ← fields? ["client_id", "api_endpoint", "scope", "token_endpoint", "auth_endpoint",
    "logout_endpoint", "extra_origins", "pkce", "jwt_user_info"] value
  let at' (i : Nat) : Option Toml.Value := fs.getD i none
  let optional := fun v => (text? v).map some
  return {
    clientId := ← at' 0 >>= text?
    apiEndpoint := ← at' 1 >>= text?
    scope := ← field text? "user_info.read" (at' 2)
    tokenEndpoint := ← field optional none (at' 3)
    authEndpoint := ← field optional none (at' 4)
    logoutEndpoint := ← field optional none (at' 5)
    extraOrigins := ← field (list? text?) [] (at' 6)
    pkce := ← field flag? true (at' 7)
    tokenClaims := ← field flag? false (at' 8) }

def places? (value : Toml.Value) : Option Places := do
  let fs ← fields? ["config_dir", "license_dir"] value
  let default : Places := {}
  return {
    configDir := ← field text? default.configDir (fs.getD 0 none)
    licenseDir := ← field text? default.licenseDir (fs.getD 1 none) }

def network? (value : Toml.Value) : Option Network := do
  let fs ← fields? ["connect_timeout_secs", "timeout_secs", "max_retry", "retry_delay_secs",
    "probe_interval_secs", "refresh_interval_secs", "login_timeout_secs", "redirect_port"] value
  let default : Network := {}
  let number (bits i n : Nat) : Option Nat := field (word? bits) n (fs.getD i none)
  return {
    connectTimeout := ← number 64 0 default.connectTimeout
    timeout := ← number 64 1 default.timeout
    maxRetry := ← number 32 2 default.maxRetry
    retryDelay := ← number 64 3 default.retryDelay
    probeInterval := ← number 64 4 default.probeInterval
    refreshInterval := ← number 64 5 default.refreshInterval
    loginTimeout := ← number 64 6 default.loginTimeout
    redirectPort := ← number 16 7 default.redirectPort }

def header? (value : Toml.Value) : Option (String × String) := do
  match ← fields? ["name", "value"] value with
  | [some name, some value] => return (← text? name, ← text? value)
  | _ => none

def ofEntries? (entries : Toml.Entries) : Option Config := do
  return {
    service := ← entries.lookup "account" >>= service?
    places := ← field places? {} (entries.lookup "paths")
    network := ← field network? {} (entries.lookup "network")
    logFormat := ← field logFormat? .text (entries.lookup "log_format")
    headers := ← field (list? header?) [] (entries.lookup "headers") }

def isWebAddress (url : String) : Bool :=
  "http://".toList.isPrefixOf url.toList || "https://".toList.isPrefixOf url.toList

/-- The fault of an address that names no web server. -/
def addressFault? (entry : String × String) : Option String :=
  let (name, url) := entry
  if isWebAddress url then none
  else some (name ++ " must start with http:// or https://, got: " ++ url)

def zeroFault? (entry : String × Nat) : Option String :=
  if entry.2 = 0 then some (entry.1 ++ " must be greater than 0") else none

/-- All addresses, in the order in which they are checked. -/
def addresses (s : Service) : List (String × String) :=
  ("api_endpoint", s.apiEndpoint) ::
    ([("token_endpoint", s.tokenEndpoint), ("auth_endpoint", s.authEndpoint),
      ("logout_endpoint", s.logoutEndpoint)].filterMap fun (name, url) => url.map fun u => (name, u)) ++
    s.extraOrigins.map fun url => ("extra_origins", url)

/-- All times that must not be zero, in the order in which they are checked. -/
def waits (n : Network) : List (String × Nat) := [
  ("connect_timeout_secs", n.connectTimeout), ("timeout_secs", n.timeout),
  ("probe_interval_secs", n.probeInterval), ("refresh_interval_secs", n.refreshInterval),
  ("login_timeout_secs", n.loginTimeout)]

/-- The first fault of a configuration. -/
def fault? (c : Config) : Option String :=
  if (Text.trim c.service.clientId).isEmpty then some "client_id must not be empty"
  else ((addresses c.service).findSome? addressFault?).or ((waits c.network).findSome? zeroFault?)

def clientIdVariable : String := "ACCOUNT_CLIENT_ID"
def pathVariable : String := "CONFIG_PATH"
def defaultPath : String := "account-agent.toml"

/-- The path from the command line, else from the environment, else the usual one. -/
def path (given : Option String) (environment : String → Option String) : String :=
  (given.or (environment pathVariable)).getD defaultPath

/-- Reads a configuration; the environment may name another client. -/
def load (contents : Except Disk.Fault String) (environment : String → Option String) :
    Except Fault Config :=
  match contents with
  | .error cause => .error (.unreadable cause)
  | .ok text =>
    match Toml.parse? text >>= ofEntries? with
    | none => .error .malformed
    | some c =>
      let clientId := (environment clientIdVariable).getD c.service.clientId
      let c := { c with service := { c.service with clientId } }
      match c.fault? with
      | some detail => .error (.rejected detail)
      | none => .ok c

/-- What the account needs to know. -/
def account (c : Config) : Account.Config :=
  let apiEndpoint := Text.trimEndOf '/' c.service.apiEndpoint
  let default : Account.Config := { clientId := c.service.clientId, apiEndpoint }
  { default with
    scope := c.service.scope
    tokenEndpoint := c.service.tokenEndpoint.getD default.tokenEndpoint
    authEndpoint := c.service.authEndpoint.getD default.authEndpoint
    logoutEndpoint := c.service.logoutEndpoint
    extraOrigins := c.service.extraOrigins
    pkce := c.service.pkce
    tokenClaims := c.service.tokenClaims
    configDir := c.places.configDir
    licenseDir := c.places.licenseDir
    redirectPort := c.network.redirectPort
    loginTimeout := c.network.loginTimeout }

/-- What the transport needs to know. -/
def transport (c : Config) : Transport.Policy where
  connectTimeout := c.network.connectTimeout
  timeout := c.network.timeout
  maxRetry := c.network.maxRetry
  retryDelay := c.network.retryDelay
  headers := c.headers

end Config

end AccountGate.Agent
