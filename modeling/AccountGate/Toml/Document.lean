import AccountGate.Toml.Scalar

/-!
Whole configuration texts: lines that name a table or give a key its value, put together into one
table. No key is given a value twice.
-/

namespace AccountGate.Toml

/-- Blanks, line ends and comments at the front. -/
def skipTrivia (inComment : Bool) : List Char → Option (List Char)
  | [] => some []
  | '\n' :: rest => skipTrivia false rest
  | '\r' :: '\n' :: rest => skipTrivia false rest
  | c :: rest =>
    if inComment then if isTextChar c then skipTrivia true rest else none
    else if isWs c then skipTrivia false rest
    else if c == '#' then skipTrivia true rest
    else some (c :: rest)

/-- The rest of a line on which only a comment may stand. -/
def endLine (inComment : Bool) : List Char → Option (List Char)
  | [] => some []
  | '\n' :: rest => some rest
  | '\r' :: '\n' :: rest => some rest
  | c :: rest =>
    if inComment then if isTextChar c then endLine true rest else none
    else if isWs c then endLine false rest
    else if c == '#' then endLine true rest
    else none

def isKeyChar (c : Char) : Bool := isBareChar c && c != '+' && c != '.' && c != ':'

def readSimpleKey (cs : List Char) : Option (String × List Char) :=
  match cs with
  | '"' :: _ => readLineString cs
  | '\'' :: _ => readLineString cs
  | _ =>
    let word := cs.takeWhile isKeyChar
    if word.isEmpty then none else some (String.ofList word, cs.dropWhile isKeyChar)

/-- Keys joined by points, with blanks around each. -/
def readKey : Nat → List Char → Option (List String × List Char)
  | 0, _ => none
  | fuel + 1, cs => do
    let (key, rest) ← readSimpleKey (cs.dropWhile isWs)
    match rest.dropWhile isWs with
    | '.' :: rest => do
      let (keys, rest) ← readKey fuel rest
      return (key :: keys, rest)
    | rest => return ([key], rest)

/-- How deep a key may reach, and how deep values may lie within each other. -/
def maxDepth : Nat := 80

def readKeys (cs : List Char) : Option (List String × List Char) := do
  let (path, rest) ← readKey (cs.length + 1) cs
  guard (path.length ≤ maxDepth)
  return (path, rest)

/-- Replaces the value of a key that is there. -/
def setEntry (key : String) (value : Value) (es : Entries) : Entries :=
  es.map fun e => if e.1 == key then (key, value) else e

/-- Changes the last of the tables of an array. -/
def updateLast (f : Entries → Option Entries) : List Value → Option (List Value)
  | [] => none
  | [.table kind es] => (f es).map fun es => [.table kind es]
  | [_] => none
  | item :: rest => (updateLast f rest).map (item :: ·)

/-- A dotted key passes through tables that no header names and through the last table of an array;
a table that no header names is what it adds to, and no header can open that one any more. -/
def assign (value : Value) : List String → Entries → Option Entries
  | [], _ => none
  | [key], es => if (es.lookup key).isNone then some (es ++ [(key, value)]) else none
  | key :: path, es =>
    match es.lookup key with
    | none => (assign value path []).map fun inner => es ++ [(key, .table .dotted inner)]
    | some (.table kind inner) =>
      if kind == .dotted || kind == .implied then
        let kind := if path.length = 1 then .dotted else kind
        (assign value path inner).map fun inner => setEntry key (.table kind inner) es
      else none
    | some (.array .tables items) =>
      if path.length = 1 then none
      else (updateLast (assign value path) items).map fun items =>
        setEntry key (.array .tables items) es
    | some _ => none

mutual

/-- The values of an array and the entries of an inline table, by depth; both may go over
several lines, and a comma may stand before their end. -/
def readValue : Nat → Nat → List Char → Option (Value × List Char)
  | 0, _, _ => none
  | fuel + 1, depth, cs =>
    match cs with
    | '"' :: _ => (readString cs).map fun r => (.text r.1, r.2)
    | '\'' :: _ => (readString cs).map fun r => (.text r.1, r.2)
    | '[' :: rest =>
      match depth with
      | 0 => none
      | depth + 1 => do
        let (items, rest) ← readItems fuel depth (← skipTrivia false rest)
        return (.array .listed items, rest)
    | '\x7b' :: rest =>
      match depth with
      | 0 => none
      | depth + 1 => do
        let (entries, rest) ← readEntries fuel depth [] (← skipTrivia false rest)
        return (.table .inline entries, rest)
    | _ => readBare cs

/-- Items up to the closing bracket. -/
def readItems : Nat → Nat → List Char → Option (List Value × List Char)
  | 0, _, _ => none
  | fuel + 1, depth, cs =>
    match cs with
    | ']' :: rest => some ([], rest)
    | _ => do
      let (item, rest) ← readValue fuel depth cs
      match ← skipTrivia false rest with
      | ',' :: rest => do
        let (items, rest) ← readItems fuel depth (← skipTrivia false rest)
        return (item :: items, rest)
      | ']' :: rest => return ([item], rest)
      | _ => none

/-- Entries up to the closing brace. -/
def readEntries : Nat → Nat → Entries → List Char → Option (Entries × List Char)
  | 0, _, _, _ => none
  | fuel + 1, depth, entries, cs =>
    match cs with
    | '\x7d' :: rest => some (entries, rest)
    | _ => do
      let (path, rest) ← readKeys cs
      let rest ← skipTrivia false (← char? '=' (← skipTrivia false rest))
      let (value, rest) ← readValue fuel depth rest
      let entries ← assign value path entries
      match ← skipTrivia false rest with
      | ',' :: rest => readEntries fuel depth entries (← skipTrivia false rest)
      | '\x7d' :: rest => return (entries, rest)
      | _ => none

end

/-- What one line says. -/
inductive Line where
  | header (path : List String)
  | arrayHeader (path : List String)
  | entry (path : List String) (value : Value)

def readLine (cs : List Char) : Option (Line × List Char) :=
  match cs with
  | '[' :: '[' :: rest => do
    let (path, rest) ← readKeys rest
    return (.arrayHeader path, ← endLine false (← char? ']' (← char? ']' rest)))
  | '[' :: rest => do
    let (path, rest) ← readKeys rest
    return (.header path, ← endLine false (← char? ']' rest))
  | _ => do
    let (path, rest) ← readKeys cs
    let rest := (← char? '=' rest).dropWhile isWs
    let (value, rest) ← readValue (2 * rest.length + 2) maxDepth rest
    return (.entry path value, ← endLine false rest)

def readLines : Nat → List Char → Option (List Line)
  | 0, _ => none
  | fuel + 1, cs => do
    match ← skipTrivia false cs with
    | [] => return []
    | cs => do
      let (line, rest) ← readLine cs
      return line :: (← readLines fuel rest)

/-- Changes the table at the end of the path of a header; tables on the way are made. -/
def descend (f : Entries → Option Entries) : List String → Entries → Option Entries
  | [], es => f es
  | key :: path, es =>
    match es.lookup key with
    | none => (descend f path []).map fun inner => es ++ [(key, .table .implied inner)]
    | some (.table .inline _) => none
    | some (.table kind inner) =>
      (descend f path inner).map fun inner => setEntry key (.table kind inner) es
    | some (.array .tables items) =>
      (updateLast (descend f path) items).map fun items => setEntry key (.array .tables items) es
    | some _ => none

/-- Opens the table of a header: a new one, or one that was only on the way to others. -/
def openTable (key : String) (es : Entries) : Option Entries :=
  match es.lookup key with
  | none => some (es ++ [(key, .table .headed [])])
  | some (.table .implied inner) => some (setEntry key (.table .headed inner) es)
  | some _ => none

/-- Starts the next table of an array. -/
def openItem (key : String) (es : Entries) : Option Entries :=
  match es.lookup key with
  | none => some (es ++ [(key, .array .tables [.table .headed []])])
  | some (.array .tables items) =>
    some (setEntry key (.array .tables (items ++ [.table .headed []])) es)
  | some _ => none

/-- The table so far, and the path of the header above. -/
def addLine (state : Entries × List String) (line : Line) : Option (Entries × List String) :=
  let (es, here) := state
  match line with
  | .header path => do
    let key ← path.getLast?
    return (← descend (openTable key) path.dropLast es, path)
  | .arrayHeader path => do
    let key ← path.getLast?
    return (← descend (openItem key) path.dropLast es, path)
  | .entry path value => do
    return (← descend (assign value path) here es, here)

/-- The table that a text describes; a byte order mark before it does not count. -/
def parse? (text : String) : Option Entries := do
  let cs := match text.toList with
    | '\uFEFF' :: rest => rest
    | cs => cs
  let lines ← readLines (cs.length + 1) cs
  return (← lines.foldlM addLine ([], [])).1

end AccountGate.Toml
