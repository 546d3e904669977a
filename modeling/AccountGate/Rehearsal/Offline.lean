import AccountGate.Auth.Call
import AccountGate.Transport.Client

/-!
Surroundings in which no connection can be made. A request to what is no web server does not get as
far as that.
-/

namespace AccountGate.Rehearsal.Offline

open Transport

/-- Characters that a host may hold in an address, but not in a request. -/
def isUnsendable (c : Char) : Bool := ['"', '\x60', '\x7b', '\x7d'].contains c

/-- The longest address that a request can carry. -/
def maxUrlSize : Nat := 65534

/-- Whether a connection is tried for an address. -/
def isDialled (text : String) : Bool :=
  match Url.parse text with
  | .error _ => false
  | .ok url =>
    let scheme := String.ofList url.scheme
    (scheme == "http" || scheme == "https") && url.render.utf8ByteSize ≤ maxUrlSize &&
      !((url.authority.bind Url.Authority.host).elim [] Url.Host.render).any isUnsendable

def attempt (d : Dispatch) : Attempted :=
  if isDialled d.url then
    .error { unconnected := true, detail := "error sending request for url (" ++ d.url ++ ")" }
  else .error { detail := "builder error" }

/-- What decides how a request fares for which credentials have been asked, or not. -/
def setting (o : Auth.Outgoing) : Client.Setting where
  suspended := o.suspended
  installed := some 0
  credentials _ _ := o.authorization
  attempted _ := attempt

/-- The outcome of a request, and all that was done for it. -/
def play (p : Policy) (o : Auth.Outgoing) : Answer × List Client.Call :=
  (setting o).play 0 (Client.send p o.request)

def answer (p : Policy) (o : Auth.Outgoing) : Answer := (play p o).1

end AccountGate.Rehearsal.Offline
