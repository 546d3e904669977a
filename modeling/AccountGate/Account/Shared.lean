import AccountGate.Account.Call
import AccountGate.Account.LicenseFile
import AccountGate.Account.SettingsFile
import AccountGate.Auth.Vault
import AccountGate.License.KeyCache

/-!
Everything that the programs around one account share: registry and tokens, settings, session, the
disk. Each call that needs nothing else is one step.
-/

namespace AccountGate.Account

/-- Where settings are kept. -/
inductive SettingsStore where
  /-- In memory; with a fault, changes are refused. -/
  | memory (settings : Settings) (fault : Option String)
  | file (onDisk : SettingsFile)

def SettingsStore.settings : SettingsStore → Settings
  | .memory settings _ => settings
  | .file onDisk => onDisk.memory

/-- Merges changes into the settings and stores them. -/
def SettingsStore.apply (store : SettingsStore) (disk : Disk) (changes : Entries) :
    Except Error Unit × SettingsStore × Disk :=
  match store with
  | .memory settings none => (.ok (), .memory (settings.merge changes) none, disk)
  | .memory settings (some fault) => (.error (.settings fault), .memory settings (some fault), disk)
  | .file onDisk =>
    let (result, onDisk, disk) := onDisk.apply disk changes
    (result, .file onDisk, disk)

structure Shared where
  vault : Auth.Vault := {}
  store : SettingsStore
  disk : Disk := {}
  keyDir : String
  licenseDir : String
  /-- How many keys have been written. -/
  serial : Nat := 0
  session : Session := {}
  available : Bool := true
  /-- A check of support is running. -/
  checking : Bool := false
  events : List Event := []
  counters : List Counter := []

namespace Shared

def step (s : Shared) : (c : Call) → Outcome Shared (Reply c)
  | .auth (.count counter) => .reply () { s with counters := s.counters ++ [counter] }
  | .auth c => match s.vault.step c with
    | .reply r vault => .reply r { s with vault }
    | .wait => .wait
    | .outside => .outside
  | .settings => .reply s.store.settings s
  | .apply changes =>
    let (result, store, disk) := s.store.apply s.disk changes
    .reply result { s with store, disk }
  | .license => .reply (LicenseFile.read s.disk s.licenseDir) s
  | .isLicensed => .reply (LicenseFile.isInstalled s.disk s.licenseDir) s
  | .loadKey => .reply (License.KeyCache.load s.disk s.keyDir) s
  | .storeKey text =>
    let (result, disk) := License.KeyCache.store s.disk s.keyDir s.serial text
    .reply result { s with disk, serial := s.serial + 1 }
  | .session => .reply s.session s
  | .setSession session => .reply () { s with session }
  | .setUser authorized user => .reply () { s with session := { s.session with authorized, user } }
  | .setSupported supported => .reply () { s with session := { s.session with supported } }
  | .isAvailable => .reply s.available s
  | .setAvailable available => .reply () { s with available }
  | .emit event => .reply () { s with events := s.events ++ [event] }
  | .enterCheck => if s.checking then .wait else .reply () { s with checking := true }
  | .leaveCheck => .reply () { s with checking := false }
  | .random _ => .outside
  | .listen _ => .outside
  | .awaitRedirect _ _ => .outside
  | .openBrowser _ => .outside
  | .spawn _ => .outside
  | .join _ => .outside

end Shared

end AccountGate.Account
