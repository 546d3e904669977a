import AccountGate.Rehearsal.Machine

/-!
The agent on the command line. It works on the files of this machine and makes no connections, so
that a command which needs the service ends as it does where the service cannot be reached.
-/

open AccountGate

/-- Brings what stands at a path into a disk. -/
def copyIn (d : Disk) (path : String) : IO Disk := do
  try
    let data ← IO.FS.readBinFile path
    return d.lay path data.toList
  catch
    | .inappropriateType .. => return d.after (d.makeDirs path)
    | _ => return d

/-- Writes the files that have changed. -/
def copyOut (before after : Disk) : IO Unit := do
  for (place, node) in after.nodes do
    if before.nodes.lookup place != some node then
      if let .file data := node then
        IO.FS.createDirAll ("/" ++ String.intercalate "/" place.dropLast)
        IO.FS.writeBinFile ("/" ++ String.intercalate "/" place) ⟨data.toArray⟩

/-- Seconds from the start of 1970, told by a file made now. -/
def wallClock : IO Int := do
  let (_, path) ← IO.FS.createTempFile
  let time := (← path.metadata).modified.sec
  IO.FS.removeFile path
  return time

/-- The machine with the files that a run may touch. -/
def machine (words : List String) : IO Rehearsal.Machine := do
  let home := toString (← IO.currentDir)
  let names := [Agent.Config.pathVariable, Agent.Config.clientIdVariable]
  let values ← names.mapM fun name => return (name, ← IO.getEnv name)
  let environment (name : String) : Option String := (values.lookup name).join
  let m : Rehearsal.Machine :=
    { disk := .startingFrom home, environment, clock := ← wallClock }
  match Agent.readArgs words with
  | .error _ => return m
  | .ok args =>
    let m := { m with disk := ← copyIn m.disk (Agent.Config.path args.configPath environment) }
    match m.prepare words with
    | .error _ => return m
    | .ok l =>
      let cfg := l.config.account
      let paths := [(cfg.clientDir, Account.SettingsFile.fileName),
        (cfg.clientDir, License.KeyCache.fileName), (cfg.licenseDir, Account.LicenseFile.fileName)]
      let disk ← paths.foldlM (fun d p => copyIn d (Disk.join p.1 p.2)) m.disk
      return { m with disk }

/-- Runs a command once and tells how it ended. -/
def runOnce (words : List String) : IO UInt32 := do
  let m ← machine words
  let (ending, disk) := m.run words
  copyOut m.disk disk
  IO.print ending.output
  IO.eprint ending.errors
  return UInt32.ofNat ending.exitCode

/-- Between two runs of a watch, in milliseconds; none for the other commands. -/
def interval? (words : List String) : IO (Option Nat) := do
  match (← machine words).prepare words with
  | .ok ⟨.watch, config, _⟩ => return some (config.network.refreshInterval * 1000)
  | _ => return none

/-- Runs a command; a watch is taken up again from time to time. -/
partial def runWords (words : List String) : IO UInt32 := do
  let code ← runOnce words
  match ← interval? words with
  | some pause =>
    if code != 0 then return code
    IO.sleep (UInt32.ofNat pause)
    runWords words
  | none => return code

def main (words : List String) : IO UInt32 := runWords ("account-agent" :: words)
