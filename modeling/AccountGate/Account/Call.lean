import AccountGate.Account.Config
import AccountGate.Account.Error
import AccountGate.Account.Redirect
import AccountGate.Account.User
import AccountGate.Auth.Store
import AccountGate.Calendar.Date

/-!
What programs around an account ask of their surroundings.
-/

namespace AccountGate.Account

/-- What is known of the user in this run of the program. -/
structure Session where
  authorized : Bool := false
  supported : Bool := false
  user : User := {}
  deriving DecidableEq

/-- What observers are told. -/
inductive Event where
  | loggedIn
  | userInfoUpdated
  | supportInfoUpdated
  deriving DecidableEq, Repr

/-- What runs beside everything else. -/
inductive Job where
  | refreshUser
  | refreshSupport
  deriving DecidableEq, Repr

inductive Call where
  | auth (c : Auth.Call)
  /-- The stored settings. -/
  | settings
  | apply (changes : Entries)
  | license
  | isLicensed
  | loadKey
  | storeKey (text : String)
  | session
  | setSession (s : Session)
  | setUser (authorized : Bool) (user : User)
  | setSupported (supported : Bool)
  /-- Whether the service could be reached when it was last tried. -/
  | isAvailable
  | setAvailable (available : Bool)
  | emit (event : Event)
  /-- Waits until no other check of support runs. -/
  | enterCheck
  | leaveCheck
  | random (size : Nat)
  /-- Listens for the browser; port 0 takes any that is free. -/
  | listen (port : Nat)
  /-- Waits for the browser, at most so many seconds. -/
  | awaitRedirect (port seconds : Nat)
  | openBrowser (url : String)
  | spawn (job : Job)
  | join (task : Nat)

abbrev Reply : Call → Type
  | .auth c => Auth.Reply c
  | .settings => Settings
  | .apply _ => Except Error Unit
  | .license => Except Error (Option Json)
  | .isLicensed => Bool
  | .loadKey => Except Disk.Fault String
  | .storeKey _ => Except License.KeyError Unit
  | .session => Session
  | .setSession _ => Unit
  | .setUser _ _ => Unit
  | .setSupported _ => Unit
  | .isAvailable => Bool
  | .setAvailable _ => Unit
  | .emit _ => Unit
  | .enterCheck => Unit
  | .leaveCheck => Unit
  | .random _ => Bytes
  | .listen _ => Except Disk.Fault Nat
  | .awaitRedirect _ _ => Option Redirect
  | .openBrowser _ => Except String Unit
  | .spawn _ => Nat
  | .join _ => Unit

abbrev interface : Interface := ⟨Call, Reply⟩

abbrev Program := Flow interface

/-- A program that may end in an error. -/
abbrev Attempt := ExceptT Error Program

namespace Program

def call (c : Call) : Program (Reply c) := Flow.call (I := interface) c

/-- A program around credentials as part of one around an account. -/
def ofAuth (p : Auth.Program α) : Program α := p.expand fun c => call (.auth c)

def today : Program Date := do
  return Date.ofUnix (← call (.auth .clock))

end Program

namespace Attempt

/-- A program that ends in no error. -/
def of (p : Program α) : Attempt α := ExceptT.lift p

def call (c : Call) : Attempt (Reply c) := of (Program.call c)

def ofAuth (p : Auth.Program α) : Attempt α := of (Program.ofAuth p)

/-- Goes on with a value, or ends with the error. -/
def ofExcept (f : ε → Error) : Except ε α → Attempt α
  | .ok a => pure a
  | .error e => throw (f e)

end Attempt

end AccountGate.Account
