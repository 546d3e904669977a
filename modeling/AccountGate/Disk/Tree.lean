import AccountGate.Assoc
import AccountGate.Disk.Path
import AccountGate.Text.Utf8

/-!
Files and directories, and the operations on them with their ways to fail. Main statements: what is
put at a place is found there, and no other place changes; a file that is put where no directory is
changes no way.
-/

namespace AccountGate

namespace Disk

/-- The names from the root to a file or directory, each of them in the one before it. -/
abbrev Place := List String

inductive Node where
  | file (data : Bytes)
  | directory
  deriving DecidableEq, Repr

end Disk

/-- All places but the root, which is a directory. -/
structure Disk where
  /-- The directory from which paths without a slash in front are meant. -/
  home : String := "/"
  nodes : List (Disk.Place × Disk.Node) := []
  deriving DecidableEq, Repr

namespace Disk

def get? (d : Disk) (place : Place) : Option Node :=
  if place.isEmpty then some .directory else d.nodes.lookup place

def put (d : Disk) (place : Place) (node : Node) : Disk :=
  { d with nodes := d.nodes.filter (fun n => n.1 != place) ++ [(place, node)] }

def erase (d : Disk) (place : Place) : Disk :=
  { d with nodes := d.nodes.filter fun n => n.1 != place }

/-- What is put at a place is found there, and no other place changes. -/
theorem get?_put (d : Disk) {place : Place} (h : place ≠ []) (node : Node) (other : Place) :
    (d.put place node).get? other = if other = place then some node else d.get? other := by
  by_cases he : other = place
  · subst he
    simp [get?, put, h, List.lookup_append, Assoc.lookup_filter_self]
  · simp only [he, if_false]
    by_cases ho : other = []
    · simp [get?, ho]
    · have hb : [(place, node)].lookup other = none := by simp [List.lookup_cons, beq_false_of_ne he]
      simp [get?, put, ho, List.lookup_append, Assoc.lookup_filter_ne he, hb]

/-- Where a name leads from a directory. -/
def enter (here : Place) (name : String) : Place :=
  if staysHere name then here else if name == ".." then here.dropLast else here ++ [name]

/-- Where names lead from a place; what each of them starts from must be a directory. -/
def follow (d : Disk) (here : Place) : List String → Except Fault Place
  | [] => .ok here
  | name :: rest => match d.get? here with
    | none => .error .notFound
    | some (.file _) => .error .notDirectory
    | some .directory =>
      if longestName < name.utf8ByteSize then .error .nameTooLong
      else follow d (enter here name) rest

/-- A file that is put where no directory is changes no way. -/
theorem follow_put {d : Disk} {place : Place} (h : place ≠ []) (hd : d.get? place ≠ some .directory)
    (data : Bytes) {here last : Place} {names : List String}
    (hf : d.follow here names = .ok last) :
    (d.put place (.file data)).follow here names = .ok last := by
  induction names generalizing here with
  | nil => exact hf
  | cons name rest ih =>
    rw [follow] at hf ⊢
    rw [get?_put d h]
    by_cases he : here = place
    · subst he
      split at hf <;> simp_all
    · simp only [he, if_false]
      split at hf <;> simp_all
      split at hf <;> simp_all

/-- Where a path leads; the last name may be of nothing that is there. -/
def locate (d : Disk) (path : String) : Except Fault Place := do
  d.follow [] (← pathNames d.home path)

def look (d : Disk) (path : String) : Except Fault Node :=
  match d.locate path with
  | .error e => .error e
  | .ok place => match d.get? place with
    | some node => .ok node
    | none => .error .notFound

def isFile (d : Disk) (path : String) : Bool :=
  match d.look path with
  | .ok (.file _) => true
  | _ => false

def exists? (d : Disk) (path : String) : Bool := (d.look path).isOk

def readBytes (d : Disk) (path : String) : Except Fault Bytes :=
  match d.look path with
  | .ok (.file data) => .ok data
  | .ok .directory => .error .isDirectory
  | .error e => .error e

def readText (d : Disk) (path : String) : Except Fault String :=
  match d.readBytes path with
  | .error e => .error e
  | .ok data => match Text.decode? data with
    | some text => .ok text
    | none => .error .notText

/-- Makes the directory that names lead to. -/
def makeDir (d : Disk) (names : List String) : Except Fault Disk :=
  match d.follow [] names with
  | .error e => .error e
  | .ok place => match d.get? place with
    | some _ => .error .exists
    | none => .ok (d.put place .directory)

/-- Makes a directory if it is not there yet. -/
def makeMissing (d : Disk) (names : List String) : Except Fault Disk :=
  match d.makeDir names with
  | .error .exists =>
    match d.follow [] (names ++ ["."]) with
    | .ok _ => .ok d
    | .error _ => .error .exists
  | result => result

/-- Makes the first of some directories, the others before it when it lacks a way. -/
def makeFirst (d : Disk) : List (List String) → Except Fault Disk
  | [] => .ok d
  | names :: others => match d.makeMissing names with
    | .error .notFound => match makeFirst d others with
      | .ok d => d.makeMissing names
      | .error e => .error e
    | result => result

/-- Makes a directory and those on the way to it that are missing. -/
def makeDirs (d : Disk) (path : String) : Except Fault Disk :=
  if path.isEmpty then .ok d
  else match pathNames d.home path with
    | .error e => .error e
    | .ok names => d.makeFirst (trimNames names :: above names)

/-- Writes a whole file in a directory that is there. -/
def write (d : Disk) (path : String) (data : Bytes) : Except Fault Disk :=
  match d.locate path with
  | .error e => .error e
  | .ok place => match d.get? place with
    | some .directory => .error .isDirectory
    | _ => .ok (d.put place (.file data))

/-- Moves a file over what is at the other path, unless that is a directory. -/
def rename (d : Disk) (source target : String) : Except Fault Disk :=
  match d.locate source, d.readBytes source, d.locate target with
  | .ok start, .ok data, .ok place => match d.get? place with
    | some .directory => .error .isDirectory
    | _ => .ok ((d.erase start).put place (.file data))
  | .error e, _, _ => .error e
  | _, .error e, _ => .error e
  | _, _, .error e => .error e

def remove (d : Disk) (path : String) : Except Fault Disk :=
  match d.locate path, d.look path with
  | .ok place, .ok (.file _) => .ok (d.erase place)
  | .ok _, .ok .directory => .error .isDirectory
  | .error e, _ => .error e
  | _, .error e => .error e

/-- Takes away what is at a path with all below it. -/
def removeTree (d : Disk) (path : String) : Disk :=
  match d.locate path with
  | .error _ => d
  | .ok place => { d with nodes := d.nodes.filter fun n => !place.isPrefixOf n.1 }

/-- The disk after an operation; one that fails leaves it as it was. -/
def after (d : Disk) (result : Except Fault Disk) : Disk := result.toOption.getD d

/-- A disk with nothing on it but one directory, from which paths are meant. -/
def startingFrom (home : String) : Disk :=
  let d : Disk := { home }
  d.after (d.makeDirs home)

/-- Puts a file where it belongs, with the directories around it. -/
def lay (d : Disk) (path : String) (data : Bytes) : Disk :=
  let around := ((pathNames d.home path).toOption.map above).getD []
  let d := d.after (d.makeFirst around)
  d.after (d.write path data)

/-- The names in a directory, in ascending order. -/
def names (d : Disk) (path : String) : List String :=
  match d.locate path with
  | .error _ => []
  | .ok place =>
    (d.nodes.filterMap fun n =>
      if n.1.length = place.length + 1 ∧ place.isPrefixOf n.1 then n.1.getLast? else none).mergeSort
      fun a b => decide (a ≤ b)

end Disk

end AccountGate
