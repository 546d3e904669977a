import AccountGate.Url.Form
import AccountGate.Url.Host

/-!
Absolute URLs: reading, writing, and pairs added to the query.
-/

namespace AccountGate

/-- The part between the scheme and the path. -/
structure Url.Authority where
  username : List Char := []
  password : List Char := []
  host : Option Url.Host := none
  port : Option Nat := none
  deriving DecidableEq, Repr

/-- A path in one piece, or its segments; no segments and no slash are the empty path. -/
inductive Url.Path where
  | opaqueText (text : List Char)
  | segments (list : List (List Char))
  deriving DecidableEq, Repr

structure Url where
  scheme : List Char
  authority : Option Url.Authority := none
  path : Url.Path
  query : Option (List Char) := none
  fragment : Option (List Char) := none
  deriving DecidableEq, Repr

namespace Url

def Authority.render (a : Authority) : List Char :=
  (if a.username.isEmpty && a.password.isEmpty then []
    else a.username ++ (if a.password.isEmpty then [] else ':' :: a.password) ++ ['@']) ++
  (a.host.map Host.render).getD [] ++
  (match a.port with
    | some port => ':' :: Nat.toDigits 10 port
    | none => [])

def Path.render : Path → List Char
  | .opaqueText text => text
  | .segments list => list.flatMap fun segment => '/' :: segment

/-- A path that would look like an authority gets a dot in front. -/
def guardPath (u : Url) : List Char :=
  match u.authority, u.path with
  | none, .segments ([] :: _ :: _) => ['/', '.']
  | _, _ => []

def render (u : Url) : String := String.ofList <|
  u.scheme ++ [':'] ++
  (match u.authority with
    | some a => '/' :: '/' :: a.render
    | none => []) ++
  u.guardPath ++ u.path.render ++
  (match u.query with
    | some query => '?' :: query
    | none => []) ++
  (match u.fragment with
    | some fragment => '#' :: fragment
    | none => [])

/-- Adds pairs to the end of the query. -/
def addPairs (u : Url) (pairs : Form.Pairs) : Url :=
  { u with query := some (Form.append (u.query.getD []) pairs) }

inductive Kind where
  | special
  | file
  | other
  deriving DecidableEq, Repr

def kindOf (scheme : List Char) : Kind :=
  if scheme == "file".toList then .file
  else if ["http".toList, "https".toList, "ws".toList, "wss".toList, "ftp".toList].contains scheme
    then .special
  else .other

def defaultPort? (scheme : List Char) : Option Nat :=
  if scheme == "http".toList || scheme == "ws".toList then some 80
  else if scheme == "https".toList || scheme == "wss".toList then some 443
  else if scheme == "ftp".toList then some 21
  else none

def Kind.isSpecial : Kind → Bool
  | .other => false
  | _ => true

/-- A slash, or where it counts as one a backslash. -/
def Kind.isSlash (k : Kind) (c : Char) : Bool := c == '/' || (k.isSpecial && c == '\\')

def isLetter (c : Char) : Bool := ('a' ≤ c && c ≤ 'z') || ('A' ≤ c && c ≤ 'Z')

def isSchemeChar (c : Char) : Bool :=
  isLetter c || ('0' ≤ c && c ≤ '9') || c == '+' || c == '-' || c == '.'

/-- The scheme before the first colon, and what follows. -/
def readScheme (cs : List Char) : Option (List Char × List Char) :=
  match cs with
  | c :: _ =>
    if isLetter c then
      match cs.dropWhile isSchemeChar with
      | ':' :: rest => some ((cs.takeWhile isSchemeChar).map Text.lower, rest)
      | _ => none
    else none
  | [] => none

/-- Name and password before the last at sign of an authority. -/
def readUserInfo (k : Kind) (cs : List Char) : Except Error (Authority × List Char) :=
  let inside := cs.takeWhile fun c => !(k.isSlash c || c == '?' || c == '#')
  if inside.contains '@' then
    let afterLast := (inside.reverse.takeWhile (· != '@')).length
    let info := inside.take (inside.length - afterLast - 1)
    let rest := cs.drop (inside.length - afterLast)
    match info, rest with
    | [], [] => .ok ({}, rest)
    | [], c :: _ => if k.isSlash c || c == '?' || c == '#' then .error .emptyHost else .ok ({}, rest)
    | _, _ =>
      let name := info.takeWhile (· != ':')
      let password := (info.dropWhile (· != ':')).drop 1
      .ok ({ username := encode inUserInfo name, password := encode inUserInfo password }, rest)
  else .ok ({}, cs)

/-- How far a host goes: a colon ends it, unless brackets are open. -/
def hostLength (k : Kind) (inBrackets : Bool) : List Char → Nat
  | [] => 0
  | c :: rest =>
    if (c == ':' && !inBrackets) || k.isSlash c || c == '?' || c == '#' then 0
    else hostLength k (c == '[' || (inBrackets && c != ']')) rest + 1

def readPort (scheme : List Char) (cs : List Char) : Except Error (Option Nat × List Char) :=
  let digits := cs.takeWhile fun c => '0' ≤ c && c ≤ '9'
  let rest := cs.dropWhile fun c => '0' ≤ c && c ≤ '9'
  let port := digits.foldl (fun n c => n * 10 + (c.toNat - 48)) 0
  if 65535 < port then .error .port
  else if rest.isEmpty || ['/', '\\', '?', '#'].contains (rest.headD '/') then
    .ok (if digits.isEmpty || defaultPort? scheme == some port then none else some port, rest)
  else .error .port

/-- An authority, without the slashes before it. -/
def readAuthority (k : Kind) (scheme cs : List Char) : Except Error (Authority × List Char) := do
  let (user, cs) ← readUserInfo k cs
  let size := hostLength k false cs
  let hostText := cs.take size
  let rest := cs.drop size
  if hostText.isEmpty then
    if k.isSpecial || rest.head? == some ':' || user.username.length + user.password.length > 0
    then .error .emptyHost
    else .ok (user, rest)
  else do
    let host ← if k.isSpecial then Host.ofSpecial hostText else Host.ofOpaque hostText
    match rest with
    | ':' :: rest => do
      let (port, rest) ← readPort scheme rest
      .ok ({ user with host := some host, port := port }, rest)
    | _ => .ok ({ user with host := some host }, rest)

def isDriveLetter (segment : List Char) : Bool :=
  match segment with
  | [c, mark] => isLetter c && (mark == ':' || mark == '|')
  | _ => false

def isSingleDot (segment : List Char) : Bool :=
  ([".", "%2e", "%2E"].map String.toList).contains segment

def isDoubleDot (segment : List Char) : Bool :=
  (["..", "%2e%2e", "%2e%2E", "%2E%2e", "%2E%2E", "%2e.", "%2E.", ".%2e", ".%2E"].map
    String.toList).contains segment

/-- The letter of a drive, up to the end of a segment or a backslash in it. -/
def startsWithDrive (segment : List Char) : Bool :=
  isDriveLetter (segment.take 2) && (segment.drop 2).headD '\\' == '\\'

/-- A path without its last segment; the letter of a drive stays. -/
def shorten (path : List (List Char)) : List (List Char) :=
  if path.getLast?.any startsWithDrive then path else path.dropLast

/-- Adds one segment; dots move within the path, and leave an empty segment when they end it. -/
def addSegment (k : Kind) (path : List (List Char)) (segment : List Char) (isLast : Bool) :
    List (List Char) :=
  let tail := if isLast then [[]] else []
  if isDoubleDot segment then shorten path ++ tail
  else if isSingleDot segment then path ++ tail
  else if k == .file && path.isEmpty && isDriveLetter segment then
    [[segment.headD 'c', ':']]
  else path ++ [segment]

def splitSegments (k : Kind) : List Char → List (List Char)
  | [] => [[]]
  | c :: rest =>
    if k.isSlash c then [] :: splitSegments k rest
    else match splitSegments k rest with
      | [] => [[c]]
      | first :: others => (c :: first) :: others

def addSegments (k : Kind) (path : List (List Char)) : List (List Char) → List (List Char)
  | [] => path
  | [segment] => addSegment k path (encode inPath segment) true
  | segment :: rest => addSegments k (addSegment k path (encode inPath segment) false) rest

/-- The segments of a path text without its first slash. -/
def readSegments (k : Kind) (cs : List Char) : List (List Char) :=
  addSegments k [] (splitSegments k cs)

/-- A path without the empty segments in front. -/
def trimSegments (path : List (List Char)) : List (List Char) :=
  match path.dropWhile (·.isEmpty) with
  | [] => [[]]
  | path => path

/-- The query before a number sign, the fragment after it. -/
def readSuffix (k : Kind) (u : Url) (cs : List Char) : Url :=
  let readFragment (u : Url) (cs : List Char) : Url :=
    match cs with
    | '#' :: rest => { u with fragment := some (encode inFragment rest) }
    | _ => u
  match cs with
  | '?' :: rest =>
    let set := if k.isSpecial then inSpecialQuery else inQuery
    readFragment { u with query := some (encode set (rest.takeWhile (· != '#'))) }
      (rest.dropWhile (· != '#'))
  | _ => readFragment u cs

def isPathEnd (c : Char) : Bool := c == '?' || c == '#'

/-- Path, query and fragment after an authority. -/
def readPath (k : Kind) (u : Url) (cs : List Char) : Url :=
  let text := cs.takeWhile fun c => !isPathEnd c
  let rest := cs.dropWhile fun c => !isPathEnd c
  let path := match text with
    | [] => if k.isSpecial then [[]] else []
    | c :: more => readSegments k (if k.isSlash c then more else text)
  readSuffix k { u with path := .segments path } rest

/-- The host of a file; this machine has no name. -/
def readFileHost (cs : List Char) : Except Error (Option Host) := do
  if cs.isEmpty then .ok none
  else
    let host ← Host.ofSpecial cs
    .ok (if host == .domain "localhost".toList then none else some host)

/-- The file on a host; a path that starts with a drive is on this machine. -/
def readFilePath (u : Url) (host : Option Host) (cs : List Char) : Url :=
  let text := cs.takeWhile fun c => !isPathEnd c
  let rest := cs.dropWhile fun c => !isPathEnd c
  let path := readSegments .file text
  let host := if path.head?.any isDriveLetter then none else host
  readSuffix .file { u with authority := some { host }, path := .segments (trimSegments path) } rest

/-- Characters without a slash in front. -/
def dropSlash (cs : List Char) : List Char :=
  match cs with
  | c :: rest => if Kind.file.isSlash c then rest else cs
  | [] => []

/-- A URL of the file scheme after its colon. Where two slashes are followed by no host, the slash
of the path makes an empty segment before it, which is gone when the path has been read. -/
def readFile (scheme cs : List Char) : Except Error Url :=
  let bare : Url := { scheme, path := .segments [] }
  if (cs.take 2).all Kind.file.isSlash && 2 ≤ cs.length then do
    let rest := cs.drop 2
    let hostText := rest.takeWhile fun c => !(Kind.file.isSlash c || isPathEnd c)
    if isDriveLetter hostText then .ok (readFilePath bare none rest)
    else
      let rest := rest.drop hostText.length
      match ← readFileHost hostText with
      | none => .ok (readFilePath bare none rest)
      | some host => .ok (readFilePath bare (some host) (dropSlash rest))
  else .ok (readFilePath bare none (dropSlash cs))

def isTrimmed (c : Char) : Bool := c.toNat ≤ 32

def isDropped (c : Char) : Bool := c == '\t' || c == '\n' || c == '\r'

/-- Reads an absolute URL; controls and blanks around it, tabs and line ends in it do not count. -/
def parse (text : String) : Except Error Url :=
  let cs := ((text.toList.dropWhile isTrimmed).reverse.dropWhile isTrimmed).reverse
  match readScheme (cs.filter fun c => !isDropped c) with
  | none => .error .relativeWithoutBase
  | some (scheme, rest) =>
    match kindOf scheme with
    | .file => readFile scheme rest
    | .special => do
      let (authority, rest) ← readAuthority .special scheme (rest.dropWhile Kind.special.isSlash)
      .ok (readPath .special { scheme, authority := some authority, path := .segments [] } rest)
    | .other =>
      match rest with
      | '/' :: '/' :: rest => do
        let (authority, rest) ← readAuthority .other scheme rest
        .ok (readPath .other { scheme, authority := some authority, path := .segments [] } rest)
      | '/' :: _ => .ok (readPath .other { scheme, path := .segments [] } rest)
      | _ =>
        let text := rest.takeWhile fun c => !isPathEnd c
        .ok (readSuffix .other { scheme, path := .opaqueText (encode controls text) }
          (rest.dropWhile fun c => !isPathEnd c))

end Url

end AccountGate
