import AccountGate.Disk.Fault
import AccountGate.Text.Blank

/-!
Paths: texts that lead through directories by names with slashes between them. A blank name and one
dot stay in a directory, two dots leave it for the one that it is in.
-/

namespace AccountGate.Disk

/-- How many bytes a path may have. -/
def longestPath : Nat := 4095

/-- How many bytes a name may have. -/
def longestName : Nat := 255

/-- One path after another; a blank first one adds nothing, and nothing stands before the root. -/
def join (base name : String) : String :=
  if base.isEmpty || name.startsWith "/" then name
  else if base.endsWith "/" then base ++ name
  else base ++ "/" ++ name

/-- The names of a path from the root on. A path that starts neither with a slash nor with `home`
is meant from there. -/
def pathNames (home path : String) : Except Fault (List String) :=
  if path.toList.contains '\x00' then .error .nulInPath
  else if path.isEmpty then .error .notFound
  else if longestPath < path.utf8ByteSize then .error .nameTooLong
  else if path.startsWith "/" || path.startsWith home then .ok (Text.split '/' path)
  else .ok (Text.split '/' (join home path))

def staysHere (name : String) : Bool := name.isEmpty || name == "."

/-- Names without those at the end that stay where they are. -/
def trimNames (names : List String) : List String := (names.reverse.dropWhile staysHere).reverse

/-- The directories on the way to where some names lead, the nearest first. -/
def above (names : List String) : List (List String) := walk names.reverse
where
  walk : List String → List (List String)
    | [] => []
    | name :: rest =>
      if staysHere name then walk rest else (rest.dropWhile staysHere).reverse :: walk rest

end AccountGate.Disk
