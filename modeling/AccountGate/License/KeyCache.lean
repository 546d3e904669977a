import AccountGate.Account.Error
import AccountGate.Disk.Tree
import AccountGate.License.Entitlement

/-!
The public key as it is kept on the disk. A new key is first written beside the old one and then
moved over it, so that no reader meets half a key.
-/

namespace AccountGate.License.KeyCache

def fileName : String := "public.key"

def path (dir : String) : String := Disk.join dir fileName

/-- Beginning of the names under which keys are written before they are moved. -/
def scratchStart : String := ".public.key.tmp"

/-- Each writer has a number of its own. -/
def scratchPath (dir : String) (serial : Nat) : String :=
  Disk.join dir (scratchStart ++ "." ++ toString serial)

def load (d : Disk) (dir : String) : Except Disk.Fault String := d.readText (path dir)

/-- Stores a text that holds a key. When a step fails, what the steps before it did stays. -/
def store (d : Disk) (dir : String) (serial : Nat) (text : String) :
    Except KeyError Unit × Disk :=
  if (Rsa.PublicKey.parse? text).isNone then (.error .malformed, d)
  else match d.makeDirs dir with
    | .error e => (.error (.unstorable e), d)
    | .ok d =>
      match d.write (scratchPath dir serial) (Text.bytes text) with
      | .error e => (.error (.unstorable e), d)
      | .ok d =>
        match d.rename (scratchPath dir serial) (path dir) with
        | .error e => (.error (.unstorable e), d)
        | .ok d => (.ok (), d)

/-- Checks a claim with a key that may not be there. -/
def check (key : Except Disk.Fault String) (e : Entitlement) (today : Date) : Status :=
  if !e.supported then e.check "" today
  else match key with
    | .ok text => e.check text today
    | .error cause => .rejected (.keyUnavailable (KeyError.unstorable cause).message)

/-- A check is counted when there is a key to check with, or nothing to check. -/
def isCounted (key : Except Disk.Fault String) (e : Entitlement) : Bool :=
  !e.supported || key.isOk

end AccountGate.License.KeyCache
