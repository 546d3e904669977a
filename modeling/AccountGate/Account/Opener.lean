import AccountGate.Disk.Fault

/-!
The program that opens an address in the browser.
-/

namespace AccountGate.Account

/-- Why the opener did not do its work. -/
inductive OpenerFault where
  | unusable
  | unstartable (cause : Disk.Fault)
  | exited (status : Nat)
  deriving DecidableEq, Repr

def OpenerFault.message : OpenerFault → String
  | .unusable => "nul byte found in provided data"
  | .unstartable cause => cause.message
  | .exited status => "opener exited with exit status: " ++ toString status

/-- What opening a text comes to when the opener ends with a number, or is not there; of the number
the lowest byte is the exit status. -/
def opened (text : String) (number : Option Int) : Except OpenerFault Unit :=
  if text.toList.contains '\x00' then .error .unusable
  else match number with
    | none => .error (.unstartable .notFound)
    | some number =>
      let status := (number % 256).toNat
      if status = 0 then .ok () else .error (.exited status)

end AccountGate.Account
