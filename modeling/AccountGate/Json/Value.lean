/-!
JSON values. The members of an object are kept in ascending order of their names, each name once.
-/

namespace AccountGate

/-- Whole numbers within 64 bits are exact; all others are binary floats. -/
inductive Number where
  | int (n : Int)
  | real (x : Float)

def Number.isZero : Number → Bool
  | .int n => n == 0
  | .real x => x == 0

inductive Json where
  | null
  | bool (b : Bool)
  | number (n : Number)
  | text (s : String)
  | array (items : List Json)
  | object (members : List (String × Json))

namespace Json

instance : Inhabited Json := ⟨.null⟩

/-- Puts a member where its name belongs, in place of one of the same name. -/
def insertMember (name : String) (value : Json) : List (String × Json) → List (String × Json)
  | [] => [(name, value)]
  | (k, v) :: rest =>
    if name = k then (name, value) :: rest
    else if name < k then (name, value) :: (k, v) :: rest
    else (k, v) :: insertMember name value rest

/-- The object with the given members; of members with one name the last counts. -/
def ofMembers (members : List (String × Json)) : Json :=
  .object (members.foldl (fun ms m => insertMember m.1 m.2 ms) [])

def get? (name : String) : Json → Option Json
  | .object members => members.lookup name
  | _ => none

def asText? : Json → Option String
  | .text s => some s
  | _ => none

def isObject : Json → Bool
  | .object _ => true
  | _ => false

end Json

end AccountGate
