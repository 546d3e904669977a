import AccountGate.Account.Redirect

/-!
The listener that the browser comes back to. It answers every request; of those that bring a
redirect, only the first is handed over to the sign-in.
-/

namespace AccountGate.Account

/-- A request that reaches the listener. -/
structure Visit where
  method : String
  path : Bytes
  query : Bytes := []
  deriving DecidableEq, Repr

namespace Loopback

def page (title detail : String) : String :=
  "<!DOCTYPE html><html><head><meta charset=\"utf-8\"><title>" ++ title ++
    "</title></head><body style=\"font-family: sans-serif; text-align: center; margin-top: 15%\">" ++
    detail ++ "</body></html>"

def signedInPage : String :=
  page "Signed in" "<h1>Successfully signed in</h1><p>Now you can close this page.</p>"

def failedPage : String :=
  page "Sign in failed" "<h1>Sign in failed</h1><p>Return to the application for details.</p>"

inductive Reply where
  | page (text : String)
  | badQuery
  | wrongMethod
  | notFound
  deriving DecidableEq, Repr

def Reply.status : Reply → Nat
  | .page _ => 200
  | .badQuery => 400
  | .wrongMethod => 405
  | .notFound => 404

def pageFor (r : Redirect) : String := if r.isError then failedPage else signedInPage

/-- The path that the browser is sent back to. -/
def route : Bytes := Text.bytes "/"

/-- What a request brings: a redirect, or else what there is to answer. -/
def receive (v : Visit) : Except Reply Redirect :=
  if v.path ≠ route then .error .notFound
  else if v.method ≠ "GET" ∧ v.method ≠ "HEAD" then .error .wrongMethod
  else match Redirect.ofQuery? v.query with
    | none => .error .badQuery
    | some r => .ok r

/-- The listener has handed nothing over yet, or a redirect. -/
abbrev Handed := Option Redirect

/-- Answers a request. A redirect is handed over, unless one has been. -/
def serve (handed : Handed) (v : Visit) : Reply × Handed :=
  match receive v with
  | .error reply => (reply, handed)
  | .ok r => (.page (pageFor r), handed.or (some r))

/-- Answers requests in turn. -/
def serveAll (handed : Handed) : List Visit → List Reply × Handed
  | [] => ([], handed)
  | v :: rest =>
    let (reply, handed) := serve handed v
    let (replies, handed) := serveAll handed rest
    (reply :: replies, handed)

end Loopback

end AccountGate.Account
