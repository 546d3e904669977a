import AccountGate.Text.Quoted

/-!
The words on the command line: at most one command, and any number of `--config` with a path.
-/

namespace AccountGate.Agent

inductive Command where
  | login
  | logout
  | status
  | verify
  | watch
  deriving DecidableEq, Repr

namespace Command

def name : Command → String
  | .login => "login"
  | .logout => "logout"
  | .status => "status"
  | .verify => "verify"
  | .watch => "watch"

def all : List Command := [.login, .logout, .status, .verify, .watch]

def named? (word : String) : Option Command := all.find? fun c => c.name == word

end Command

structure Args where
  command : Command
  configPath : Option String
  deriving DecidableEq, Repr

/-- Why the words are not accepted. -/
inductive Args.Fault where
  | noPath
  | unknownCommand (word : String)
  | unexpected (word : String)
  deriving DecidableEq, Repr

namespace Args

def Fault.message : Fault → String
  | .noPath => "--config needs a path"
  | .unknownCommand word =>
    "unknown command " ++ Text.quoted word ++
      ", expected one of: login, logout, status, verify, watch"
  | .unexpected word => "unexpected argument " ++ Text.quoted word

def configOption : String := "--config"

/-- Reads the words from the left. -/
def read (command : Option Command) (path : Option String) : List String → Except Fault Args
  | [] => .ok ⟨command.getD .status, path⟩
  | word :: rest =>
    if word = configOption then
      match rest with
      | [] => .error .noPath
      | path :: rest => read command (some path) rest
    else if command.isNone then
      match Command.named? word with
      | some command => read (some command) path rest
      | none => .error (.unknownCommand word)
    else .error (.unexpected word)

/-- Reads all words; the first is the name of the program. -/
def parse (words : List String) : Except Fault Args := read none none (words.drop 1)

end Args

end AccountGate.Agent
