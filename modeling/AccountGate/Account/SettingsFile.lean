import AccountGate.Account.Error
import AccountGate.Account.Settings
import AccountGate.Disk.Tree

/-!
Settings kept in a file. The file is written beside the old one and then moved over it; what is in
memory changes even when that fails.
-/

namespace AccountGate.Account

/-- The settings in memory, and the directory of the file. -/
structure SettingsFile where
  dir : String
  memory : Settings

namespace SettingsFile

def fileName : String := "settings.json"

/-- Beginning of the names under which settings are written before they are moved. -/
def scratchName : String := ".settings.tmp"

def path (dir : String) : String := Disk.join dir fileName

def scratchPath (dir : String) : String := Disk.join dir scratchName

/-- Reads the settings of a directory; where no file is to be seen there are none. -/
def load (d : Disk) (dir : String) : Except Error SettingsFile :=
  if d.exists? (path dir) then
    match d.readText (path dir) with
    | .error e => .error (.disk e)
    | .ok text =>
      match Settings.parse? (Text.bytes text) with
      | some memory => .ok ⟨dir, memory⟩
      | none => .error (.settingsNotMap (path dir))
  else .ok ⟨dir, .empty⟩

/-- Writes the settings; when a step fails, what the steps before it did stays. -/
def write (d : Disk) (dir : String) (s : Settings) : Except Error Unit × Disk :=
  match d.makeDirs dir with
  | .error e => (.error (.disk e), d)
  | .ok d =>
    match d.write (scratchPath dir) (Text.bytes s.render) with
    | .error e => (.error (.disk e), d)
    | .ok d =>
      match d.rename (scratchPath dir) (path dir) with
      | .error e => (.error (.disk e), d)
      | .ok d => (.ok (), d)

def apply (f : SettingsFile) (d : Disk) (changes : Entries) :
    Except Error Unit × SettingsFile × Disk :=
  let memory := f.memory.merge changes
  let (result, d) := write d f.dir memory
  (result, { f with memory }, d)

end SettingsFile

end AccountGate.Account
