import AccountGate.Account.Access
import AccountGate.Agent.Args
import AccountGate.Agent.Report

/-!
The commands of the agent. Each ends in what it prints, or in a failure and its causes.
-/

namespace AccountGate.Agent

open Account (Program Attempt)

/-- A message and what caused it, the nearest cause first. -/
abbrev Failure := List String

namespace Failure

def joined (f : Failure) : String := String.intercalate ": " f

/-- Further lines of a cause stand below its first. -/
def indented (margin text : String) : String := text.replace "\n" ("\n" ++ margin)

/-- How a failure is told at the end of the program. -/
def render : Failure → String
  | [] => ""
  | [message] => "Error: " ++ message ++ "\n"
  | [message, cause] =>
    "Error: " ++ message ++ "\n\nCaused by:\n    " ++ indented "    " cause ++ "\n"
  | message :: causes =>
    "Error: " ++ message ++ "\n\nCaused by:\n" ++ String.join
      (causes.mapIdx fun i cause => "    " ++ toString i ++ ": " ++ indented "       " cause ++ "\n")

end Failure

/-- A command on its way to what it prints. -/
abbrev Step := ExceptT Failure Program

namespace Step

def of (p : Program α) : Step α := ExceptT.lift p

/-- Goes on, or ends in the error, under a headline if there is one. -/
def orFail (headline : Option String) (p : Program (Except Account.Error α)) : Step α := do
  match ← of p with
  | .ok a => pure a
  | .error e => throw (headline.toList ++ e.chain)

end Step

def report : Program Report := do
  let session ← Program.call .session
  let support ← Program.checkStored
  let enterprise ← Program.call .isLicensed
  return ⟨session.authorized, session.user, support, enterprise⟩

def loadSession (cfg : Account.Config) : Step Unit :=
  discard (Step.orFail none (Program.loadSession cfg).run)

def login (cfg : Account.Config) : Step String := do
  discard (Step.of (Program.probe cfg.apiEndpoint))
  let tasks ← Step.orFail "sign in failed" (Program.login cfg)
  Step.of (Program.joinAll tasks)
  return (← Step.of report).render

def logout (cfg : Account.Config) : Step String := do
  loadSession cfg
  Step.orFail "sign out failed" (Program.logout cfg)
  return "signed out"

def status (cfg : Account.Config) : Step String := do
  loadSession cfg
  return (← Step.of report).render

def verify (cfg : Account.Config) : Step String := do
  loadSession cfg
  match ← Step.of Program.checkStored with
  | .supported => return "support: active"
  | other => throw ["support is not active: " ++ other.describe]

/-- The beginning of a watch: a first probe, and the account as it was. -/
def startWatch (cfg : Account.Config) : Step Unit := do
  discard (Step.of (Program.probe cfg.apiEndpoint))
  discard (Step.orFail none (Program.restore cfg).run)

/-- What a watch does from time to time. -/
def keepWatch : Program Unit := do
  if (← Program.call .session).authorized || (← Program.call .isLicensed) then
    discard Program.refreshAll

/-- Runs a command; a watch goes on beyond this and prints nothing. -/
def run (cfg : Account.Config) : Command → Step String
  | .login => (· ++ "\n") <$> login cfg
  | .logout => (· ++ "\n") <$> logout cfg
  | .status => (· ++ "\n") <$> status cfg
  | .verify => (· ++ "\n") <$> verify cfg
  | .watch => do
    startWatch cfg
    return ""

end AccountGate.Agent
