import AccountGate.Auth.Registry
import AccountGate.Flow.Basic
import AccountGate.Metrics.Counter
import AccountGate.Transport.Message

/-!
What programs around credentials ask of their surroundings.
-/

namespace AccountGate.Auth

/-- A request with what was found out before it leaves. -/
structure Outgoing where
  request : Request
  /-- Credentials were not asked for, by the sender's will. -/
  suspended : Bool
  /-- The credentials that were added. -/
  authorization : Option String := none
  deriving DecidableEq

inductive Call where
  /-- Whether credentials are withheld from the requests of this program. -/
  | suspended
  /-- Seconds from the start of 1970; negative before it. -/
  | clock
  | send (request : Outgoing)
  | count (counter : Counter)
  /-- Takes a strategy into use. -/
  | create (strategy : Strategy)
  | enrol (starts : List String) (handle : Handle)
  | remove (start : String)
  | find (url : String)
  | starts
  /-- Waits until the tokens of a session are free, then holds them. -/
  | acquire (id : Nat)
  | update (id : Nat) (tokens : Tokens)
  | release (id : Nat)

abbrev Reply : Call → Type
  | .suspended => Bool
  | .clock => Int
  | .send _ => Answer
  | .count _ => Unit
  | .create _ => Handle
  | .enrol _ _ => Unit
  | .remove _ => Option Handle
  | .find _ => Option Handle
  | .starts => List String
  | .acquire _ => Tokens
  | .update _ _ => Unit
  | .release _ => Unit

abbrev interface : Interface := ⟨Call, Reply⟩

abbrev Program := Flow interface

namespace Program

def call (c : Call) : Program (Reply c) := Flow.call (I := interface) c

/-- The time for the age of tokens: a clock before 1970 makes them all old. -/
def now : Program Int := do return max 0 (← call .clock)

def withheld : (c : Call) → Program (Reply c)
  | .suspended => pure true
  | c => call c

/-- A program that adds no credentials to its requests; what comes after it is as before. -/
def withoutAuth (p : Program α) : Program α := p.expand withheld

end Program

end AccountGate.Auth
