import AccountGate.Text.Ascii
import AccountGate.Transport.Message

/-!
Which headers go out: those of the sender, over them the configured ones, and the credentials.
-/

namespace AccountGate.Headers

def authorizationName : String := "authorization"

/-- Characters of a header name. -/
def isNameChar (c : Char) : Bool :=
  ('0' ≤ c && c ≤ '9') || ('a' ≤ c && c ≤ 'z') || ('A' ≤ c && c ≤ 'Z') ||
    ['!', '#', '$', '%', '&', '\'', '*', '+', '-', '.', '^', '_', '\x60', '|', '~'].contains c

/-- The longest header name. -/
def maxNameSize : Nat := 65535

/-- The name in lower case, if it is legal. -/
def legalName? (name : String) : Option String :=
  let cs := name.toList
  if !cs.isEmpty && cs.all isNameChar && cs.length ≤ maxNameSize then
    some (String.ofList (cs.map Text.lower))
  else none

/-- A value holds no controls but tabs. -/
def isLegalValue (value : String) : Bool :=
  value.toList.all fun c => (32 ≤ c.toNat && c.toNat ≠ 127) || c == '\t'

def find? (name : String) (hs : Headers) : Option String := List.lookup name hs

/-- Puts a header in place of those of its name. -/
def put (name value : String) (hs : Headers) : Headers :=
  hs.filter (fun h => h.1 != name) ++ [(name, value)]

/-- Adds one configured header; an illegal one, and one with credentials, is passed over. -/
def putConfigured (hs : Headers) (entry : String × String) : Headers :=
  match legalName? entry.1 with
  | some name =>
    if name ≠ authorizationName ∧ isLegalValue entry.2 then put name entry.2 hs else hs
  | none => hs

/-- The headers of a request on its way; `credentials` never take the place of the sender's. -/
def outgoing (configured sender : Headers) (credentials : Option String) : Headers :=
  let merged := configured.foldl putConfigured sender
  match credentials with
  | some value =>
    if (find? authorizationName merged).isSome then merged else put authorizationName value merged
  | none => merged

end AccountGate.Headers
