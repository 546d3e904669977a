import AccountGate.Json.Reader

/-!
Records with named fields. A record is written as an object, where other names are stepped over and
no field may come twice, or as an array of its fields in order, of which the last may be missing.
-/

namespace AccountGate.Json.Record

/-- The fields that have been met so far, by position. -/
abbrev Fields := List (Option Json)

/-- Members up to the closing brace. -/
def readMembers (names : List String) : Nat → Fields → Bytes → Option (Fields × Bytes)
  | 0, _, _ => none
  | fuel + 1, fields, bs => do
    let (name, rest) ← readString (← expect 34 bs)
    let rest ← expect 58 rest
    let (fields, rest) ← match names.idxOf? name with
      | some i => do
        guard (fields.getD i none).isNone
        let (value, rest) ← readValue (fuelFor rest) (maxDepth - 1) rest
        some (fields.set i (some value), rest)
      | none => do
        some (fields, ← skipValue (fuelFor rest) rest)
    match expect 44 rest with
    | some rest => readMembers names fuel fields rest
    | none => return (fields, ← expect 125 rest)

/-- At most as many items as there are fields, up to the closing bracket. -/
def readItems : Nat → Bytes → Option (Fields × Bytes)
  | 0, _ => none
  | left + 1, bs => do
    let (value, rest) ← readValue (fuelFor bs) (maxDepth - 1) bs
    match expect 44 rest with
    | some rest =>
      let (fields, rest) ← readItems left rest
      return (some value :: fields, rest)
    | none => return (some value :: List.replicate left none, ← expect 93 rest)

/-- The fields of a record by position; nothing for one that is not there. -/
def read? (names : List String) (bs : Bytes) : Option Fields := do
  let none' : Fields := List.replicate names.length none
  let (fields, rest) ← match expect 123 bs with
    | some rest =>
      match expect 125 rest with
      | some rest => some (none', rest)
      | none => readMembers names (fuelFor bs) none' rest
    | none => do
      let rest ← expect 91 bs
      match expect 93 rest with
      | some rest => some (none', rest)
      | none => readItems names.length rest
  guard (skipSpace rest).isEmpty
  return fields

end AccountGate.Json.Record
