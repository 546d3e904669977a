import AccountGate.Account.Error
import AccountGate.Disk.Tree

/-!
The license that an enterprise installs beside the program.
-/

namespace AccountGate.Account.LicenseFile

def fileName : String := "license.json"

def path (dir : String) : String := Disk.join dir fileName

def isInstalled (d : Disk) (dir : String) : Bool := d.isFile (path dir)

/-- The license, if one is installed. -/
def read (d : Disk) (dir : String) : Except Error (Option Json) :=
  if isInstalled d dir then
    match d.readText (path dir) with
    | .error e => .error (.disk e)
    | .ok text =>
      match Json.parse? (Text.bytes text) with
      | some value => .ok (some value)
      | none => .error (.licenseNotJson (path dir))
  else .ok none

end AccountGate.Account.LicenseFile
