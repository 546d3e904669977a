/-!
Why an operation on a file or on a port fails.
-/

namespace AccountGate.Disk

inductive Fault where
  | notFound
  | exists
  | notDirectory
  | isDirectory
  | addressInUse
  | denied
  | nameTooLong
  | nulInPath
  | notText
  deriving DecidableEq, Repr

def Fault.message : Fault → String
  | .notFound => "No such file or directory (os error 2)"
  | .exists => "File exists (os error 17)"
  | .notDirectory => "Not a directory (os error 20)"
  | .isDirectory => "Is a directory (os error 21)"
  | .addressInUse => "Address already in use (os error 98)"
  | .denied => "Permission denied (os error 13)"
  | .nameTooLong => "File name too long (os error 36)"
  | .nulInPath => "file name contained an unexpected NUL byte"
  | .notText => "stream did not contain valid UTF-8"

end AccountGate.Disk
