import AccountGate.Account.Opener
import AccountGate.Agent.Launch
import AccountGate.Rehearsal.Offline
import AccountGate.Rehearsal.Play

/-!
A machine without a network on which the agent runs from its command line.
-/

namespace AccountGate.Rehearsal

structure Machine where
  disk : Disk
  environment : String → Option String := fun _ => none
  clock : Int
  browser : Except Account.OpenerFault Unit := .ok ()

namespace Machine

def prepare (m : Machine) (words : List String) : Except Agent.Failure Agent.Launch :=
  Agent.prepare ⟨m.disk.readText, Account.SettingsFile.load m.disk⟩ m.environment words

def stage (m : Machine) (l : Agent.Launch) : Stage :=
  let stage := Stage.ofConfig l.config.account m.disk (.file l.settings) m.clock
  { stage with
    otherwise := Offline.answer l.config.transport
    browser := m.browser.mapError Account.OpenerFault.message }

/-- Runs the agent; also the disk afterwards. -/
def run (m : Machine) (words : List String) : Agent.Ending × Disk :=
  match m.prepare words with
  | .error failure => (.error failure, m.disk)
  | .ok l =>
    let cfg := l.config.account
    let (result, s) := play cfg (m.stage l) (Agent.run cfg l.command).run
    ((result.map (·.1)).getD (.ok ""), s.shared.disk)

end Machine

end AccountGate.Rehearsal
