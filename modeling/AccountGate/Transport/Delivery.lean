import AccountGate.Flow.Basic
import AccountGate.Transport.Headers
import AccountGate.Transport.Policy
import AccountGate.Url.Basic

/-!
Delivering a request: the form in which it goes out, and how often it is tried. An attempt is made
again only after it found no connection; once an answer begins to come, there is no other attempt.
-/

namespace AccountGate.Transport

/-- A request in the form in which it goes out. -/
structure Dispatch where
  method : String
  url : String
  headers : Headers
  body : Option Bytes
  deriving DecidableEq

def contentTypeName : String := "content-type"

def formContentType : String := "application/x-www-form-urlencoded"

/-- A form names its content type, unless the configured headers name one. -/
def dispatch (p : Policy) (credentials : Option String) (r : Request) : Dispatch :=
  let headers := Headers.outgoing p.headers r.headers credentials
  match r.payload with
  | .plain _ body => ⟨r.method, r.url, headers, body⟩
  | .form fields =>
    let headers := if (Headers.find? contentTypeName headers).isSome then headers
      else Headers.put contentTypeName formContentType headers
    ⟨r.method, r.url, headers, some (Text.bytes (Url.Form.encode fields))⟩

/-- Why no answer to an attempt began to come. -/
structure Failure where
  /-- There was no connection. -/
  unconnected : Bool := false
  timedOut : Bool := false
  detail : String
  deriving DecidableEq

/-- A connection that took too long is told as a time-out. -/
def Failure.error (f : Failure) : TransportError :=
  if f.timedOut then .timeout f.detail
  else if f.unconnected then .connect f.detail
  else .request f.detail

/-- How an answer begins; its body follows. -/
structure Head where
  status : Nat := 200
  headers : Headers := []
  deriving DecidableEq

/-- What comes of an attempt. -/
abbrev Attempted := Except Failure Head

def Attempted.isUnconnected : Attempted → Bool
  | .ok _ => false
  | .error f => f.unconnected

/-- An answer with its body, or with what broke the body off. -/
def Head.answer (head : Head) : Except String Bytes → Answer
  | .ok body => .ok { status := head.status, headers := head.headers, body }
  | .error detail => .error (.body detail)

namespace Delivery

inductive Call where
  | attempt (d : Dispatch)
  /-- Reads the body of the answer that has begun. -/
  | readBody
  | pause (seconds : Nat)
  deriving DecidableEq

abbrev Reply : Call → Type
  | .attempt _ => Attempted
  | .readBody => Except String Bytes
  | .pause _ => Unit

abbrev interface : Interface := ⟨Call, Reply⟩

abbrev Program := Flow interface

def call (c : Call) : Program (Reply c) := Flow.call (I := interface) c

/-- What becomes of a request after its last attempt. -/
def conclude : Attempted → Program Answer
  | .ok head => do return head.answer (← call .readBody)
  | .error f => return .error f.error

/-- At most so many attempts after the first, with a pause before each. -/
def tries (pause : Nat) (d : Dispatch) : Nat → Program Answer
  | 0 => do conclude (← call (.attempt d))
  | retries + 1 => do
    let attempted ← call (.attempt d)
    if attempted.isUnconnected then
      call (.pause pause)
      tries pause d retries
    else conclude attempted

end Delivery

def deliver (p : Policy) (d : Dispatch) : Delivery.Program Answer :=
  Delivery.tries p.retryDelay d p.maxRetry

end AccountGate.Transport
