import AccountGate.Transport.Delivery

/-!
The client that requests go through: it finds the credentials of a request, puts its headers
together and delivers it. How a request fares is decided by its setting, in which it can be played.
-/

namespace AccountGate

variable {I : Interface} {α : Type}

/-- Sends a request with the credentials that are found for its address, unless they are withheld or
it has its own. -/
def Request.sendBy (withheld : Flow I Bool) (find : String → Flow I (Option String))
    (send : Bool → Option String → Flow I Answer) (r : Request) : Flow I Answer := do
  let suspended ← withheld
  if suspended || r.hasAuthorization then send suspended none
  else send suspended (← find r.url)

namespace Transport.Client

inductive Call where
  /-- Whether credentials are withheld from the requests of this program. -/
  | suspended
  /-- The hook that is installed, unless it is gone. -/
  | hook
  /-- The credentials that a hook finds for an address. -/
  | consult (hook : Nat) (url : String)
  | delivery (c : Delivery.Call)
  deriving DecidableEq

abbrev Reply : Call → Type
  | .suspended => Bool
  | .hook => Option Nat
  | .consult _ _ => Option String
  | .delivery c => Delivery.Reply c

abbrev interface : Interface := ⟨Call, Reply⟩

abbrev Program := Flow interface

def call (c : Call) : Program (Reply c) := Flow.call (I := interface) c

/-- What the hook finds, if there is one. -/
def find (url : String) : Program (Option String) := do
  match ← call .hook with
  | some hook => call (.consult hook url)
  | none => return none

def ofDelivery (p : Delivery.Program α) : Program α := p.expand fun c => call (.delivery c)

/-- Sends a request, again and again if need be. -/
def send (p : Policy) (r : Request) : Program Answer :=
  r.sendBy (call .suspended) find fun _ found => ofDelivery (deliver p (dispatch p found r))

/-- What goes out by a call. -/
def Call.sent? : Call → Option Dispatch
  | .delivery (.attempt d) => some d
  | _ => none

/-- All that decides how a request fares. -/
structure Setting where
  /-- Credentials are withheld. -/
  suspended : Bool := false
  /-- The hook that was installed last. -/
  installed : Option Nat := none
  /-- Whether a hook is still there. -/
  isThere : Nat → Bool := fun _ => true
  /-- The credentials that a hook finds for an address. -/
  credentials : Nat → String → Option String := fun _ _ => none
  /-- What comes of an attempt after so many others. -/
  attempted : Nat → Dispatch → Attempted
  /-- The body of the answer, if one begins. -/
  body : Except String Bytes := .ok []

namespace Setting

/-- The hook that can be consulted. -/
def hook? (s : Setting) : Option Nat := s.installed.filter s.isThere

def reply (s : Setting) (earlier : Nat) : (c : Call) → Reply c
  | .suspended => s.suspended
  | .hook => s.hook?
  | .consult hook url => s.credentials hook url
  | .delivery (.attempt d) => s.attempted earlier d
  | .delivery .readBody => s.body
  | .delivery (.pause _) => ()

/-- Plays a program after so many attempts; also its calls in their order. -/
def play (s : Setting) (earlier : Nat) : Program α → α × List Call
  | .done a => (a, [])
  | .ask c next =>
    let later := if c.sent?.isSome then earlier + 1 else earlier
    let (a, calls) := s.play later (next (s.reply earlier c))
    (a, c :: calls)

end Setting

end Transport.Client

end AccountGate
