import AccountGate.Account.Loopback
import AccountGate.Account.Refresh
import AccountGate.Account.Shared

/-!
Surroundings that follow a script, to run programs in: a network that answers by rules, a clock that
moves when a rule says so, a browser that opens or does not, and what reaches the listener after it.
Everything that is sent is written down.
-/

namespace AccountGate.Rehearsal

/-- Answers requests of a method to an address, where these are given, so many times. -/
structure Rule where
  method : Option String := none
  url : Option String := none
  uses : Option Nat := none
  /-- The clock is set before the answer. -/
  clock : Option Int := none
  /-- How often the other programs go first. -/
  turns : Nat := 0
  answer : Answer

def Rule.matches (r : Rule) (request : Request) : Bool :=
  r.uses != some 0 && (r.method.getD request.method == request.method) &&
    (r.url.getD request.url == request.url)

def Rule.used (r : Rule) : Rule := { r with uses := r.uses.map (· - 1) }

/-- The first rule that applies, and the rules with one use less of it. -/
def takeRule (request : Request) : List Rule → Option Rule × List Rule
  | [] => (none, [])
  | r :: rest =>
    if r.matches request then (some r, r.used :: rest)
    else
      let (found, others) := takeRule request rest
      (found, r :: others)

structure Stage where
  shared : Account.Shared
  clock : Int
  rules : List Rule := []
  /-- The answer where no rule applies. -/
  otherwise : Auth.Outgoing → Answer := fun _ => .ok { status := 404 }
  /-- All that has been sent, the first first. -/
  sent : List Auth.Outgoing := []
  /-- What opening the browser comes to. -/
  browser : Except String Unit := .ok ()
  /-- The address that the browser was given. -/
  opened : Option String := none
  /-- The requests that reach the listener while it waits. -/
  visits : List Account.Visit := []
  /-- Ports that are taken. -/
  bound : List Nat := []
  /-- All random bytes that have been drawn. -/
  drawn : List Bytes := []
  spawned : List (Nat × Account.Job) := []
  tasks : Nat := 0
  finished : List Nat := []

/-- A reply with the number of turns after which it comes. -/
inductive Turn (ρ : Type) where
  | reply (r : ρ) (after : Nat) (s : Stage)
  | wait

namespace Stage

/-- The port that the listener gets when any will do. -/
def freePort : Nat := 40000

def send (s : Stage) (o : Auth.Outgoing) : Turn Answer :=
  let s := { s with sent := s.sent ++ [o] }
  match takeRule o.request s.rules with
  | (some r, rules) =>
    .reply r.answer r.turns { s with rules, clock := r.clock.getD s.clock }
  | (none, _) => .reply (s.otherwise o) 0 s

/-- As many bytes as are wanted, other ones each time. -/
def draw (s : Stage) (size : Nat) : Bytes × Stage :=
  let bytes := (Digest.Sha256.digest (Text.bytes (toString s.drawn.length))).take size
  (bytes, { s with drawn := s.drawn ++ [bytes] })

/-- A stage for an account. -/
def ofConfig (cfg : Account.Config) (disk : Disk) (store : Account.SettingsStore) (clock : Int) :
    Stage where
  shared := { store, disk, keyDir := cfg.clientDir, licenseDir := cfg.licenseDir }
  clock

/-- A new start of the program over the same disk and settings. -/
def restarted (s : Stage) (cfg : Account.Config) : Stage :=
  let start := ofConfig cfg s.shared.disk s.shared.store s.clock
  { s with shared := { start.shared with serial := s.shared.serial } }

/-- Takes a port. -/
def listen (s : Stage) (port : Nat) : Except Disk.Fault Nat × Stage :=
  if s.bound.contains port then (.error .addressInUse, s)
  else
    let port := if port = 0 then freePort + s.bound.length else port
    (.ok port, { s with bound := port :: s.bound })

/-- Calls that go beyond what the programs share. -/
def outside (s : Stage) : (c : Account.Call) → Turn (Account.Reply c)
  | .auth .clock => .reply s.clock 0 s
  | .auth (.send o) => s.send o
  | .random size => let (bytes, s) := s.draw size; .reply bytes 0 s
  | .listen port => let (result, s) := s.listen port; .reply result 0 s
  | .awaitRedirect _ _ =>
    .reply (Account.Loopback.serveAll none s.visits).2 0 { s with visits := [] }
  | .openBrowser url => .reply s.browser 0 { s with opened := some url }
  | .spawn job =>
    .reply s.tasks 0 { s with tasks := s.tasks + 1, spawned := s.spawned ++ [(s.tasks, job)] }
  | .join task => if s.finished.contains task then .reply () 0 s else .wait
  | _ => .wait

def perform (s : Stage) (c : Account.Call) : Turn (Account.Reply c) :=
  match s.shared.step c with
  | .reply r shared => .reply r 0 { s with shared }
  | .wait => .wait
  | .outside => s.outside c

/-- A stage on which nothing has been sent, taken, counted or told yet. -/
def cleared (s : Stage) : Stage :=
  { s with
    sent := []
    opened := none
    bound := []
    drawn := []
    shared := { s.shared with events := [], counters := [] } }

end Stage

end AccountGate.Rehearsal
