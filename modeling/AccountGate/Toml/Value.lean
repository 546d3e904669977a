/-!
Values of a configuration text. Tables and arrays remember how they were written, since that
decides what may still be added to them.
-/

namespace AccountGate.Toml

/-- How a table came to be. -/
inductive TableKind where
  /-- Named by a header of its own. -/
  | headed
  /-- On the way to the table of a header. -/
  | implied
  /-- On the way of a dotted key. -/
  | dotted
  /-- Written in braces. -/
  | inline
  deriving DecidableEq, Repr

/-- Whether an array is a sequence of headed tables. -/
inductive ArrayKind where
  | tables
  | listed
  deriving DecidableEq, Repr

inductive Value where
  | text (s : String)
  | integer (n : Int)
  | float
  | boolean (b : Bool)
  | moment
  | array (kind : ArrayKind) (items : List Value)
  | table (kind : TableKind) (entries : List (String × Value))

abbrev Entries := List (String × Value)

end AccountGate.Toml
