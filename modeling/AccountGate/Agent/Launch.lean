import AccountGate.Account.SettingsFile
import AccountGate.Agent.Config
import AccountGate.Agent.Run

/-!
The beginning and the end of a run of the agent: reading what its command needs, and how the outcome
is told.
-/

namespace AccountGate.Agent

/-- A run ends with what it prints, or in a failure. -/
abbrev Ending := Except Failure String

namespace Ending

def exitCode : Ending → Nat
  | .ok _ => 0
  | .error _ => 1

def output : Ending → String
  | .ok printed => printed
  | .error _ => ""

def errors : Ending → String
  | .ok _ => ""
  | .error failure => failure.render

end Ending

/-- What a command needs to run. -/
structure Launch where
  command : Command
  config : Config
  settings : Account.SettingsFile

/-- The two ways in which a run reads: texts by their paths, and the settings in a directory. -/
structure Reader where
  text : String → Except Disk.Fault String
  settings : String → Except Account.Error Account.SettingsFile

def readArgs (words : List String) : Except Failure Args :=
  (Args.parse words).mapError fun e => [e.message]

def readConfig (contents : Except Disk.Fault String) (environment : String → Option String)
    (path : String) : Except Failure Config :=
  (Config.load contents environment).mapError fun e =>
    ("failed to load config from " ++ path) :: e.chain

/-- Reads the command line, then the configuration, then the settings. -/
def prepare (r : Reader) (environment : String → Option String) (words : List String) :
    Except Failure Launch := do
  let args ← readArgs words
  let path := Config.path args.configPath environment
  let config ← readConfig (r.text path) environment path
  let settings ← (r.settings config.account.clientDir).mapError fun e =>
    "failed to load account settings" :: e.chain
  return ⟨args.command, config, settings⟩

end AccountGate.Agent
