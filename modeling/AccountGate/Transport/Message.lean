import AccountGate.Json.Reader
import AccountGate.Text.Quoted

/-!
Requests, responses, and the ways in which no response comes.
-/

namespace AccountGate

/-- Every constructor means that there is no response. -/
inductive TransportError where
  | connect (detail : String)
  | timeout (detail : String)
  | request (detail : String)
  | body (detail : String)
  | decode (detail : String)
  | setup (detail : String)
  deriving DecidableEq, Repr

def TransportError.message : TransportError → String
  | .connect detail => "connection failed: " ++ detail
  | .timeout detail => "request timed out: " ++ detail
  | .request detail => "request failed: " ++ detail
  | .body detail => "failed to read response body: " ++ detail
  | .decode detail => "invalid response body: " ++ detail
  | .setup detail => "transport setup failed: " ++ detail

/-- The kind of error and its detail, as they are written out. -/
def TransportError.shown : TransportError → String
  | .connect detail => "Connect(" ++ Text.quoted detail ++ ")"
  | .timeout detail => "Timeout(" ++ Text.quoted detail ++ ")"
  | .request detail => "Request(" ++ Text.quoted detail ++ ")"
  | .body detail => "Body(" ++ Text.quoted detail ++ ")"
  | .decode detail => "Decode(" ++ Text.quoted detail ++ ")"
  | .setup detail => "Setup(" ++ Text.quoted detail ++ ")"

abbrev Headers := List (String × String)

/-- What a request carries besides its method and address. -/
inductive Payload where
  | plain (headers : Headers) (body : Option Bytes)
  | form (fields : List (String × String))
  deriving DecidableEq

structure Request where
  method : String
  url : String
  payload : Payload
  deriving DecidableEq

namespace Request

def get (url : String) : Request := ⟨"GET", url, .plain [] none⟩

def head (url : String) : Request := ⟨"HEAD", url, .plain [] none⟩

/-- A GET that takes any kind of content. -/
def getAny (url : String) : Request := ⟨"GET", url, .plain [("accept", "*/*")] none⟩

def postForm (url : String) (fields : List (String × String)) : Request :=
  ⟨"POST", url, .form fields⟩

def headers (r : Request) : Headers :=
  match r.payload with
  | .plain headers _ => headers
  | .form _ => []

def body (r : Request) : Option Bytes :=
  match r.payload with
  | .plain _ body => body
  | .form _ => none

/-- Puts headers in place of those of their names; a form has none. -/
def withHeaders (r : Request) (given : Headers) : Request :=
  match r.payload with
  | .plain headers body =>
    let kept := headers.filter fun h => !given.any (·.1 == h.1)
    { r with payload := .plain (kept ++ given) body }
  | .form _ => r

/-- The sender has put credentials there already. -/
def hasAuthorization (r : Request) : Bool := r.headers.any fun h => h.1 == "authorization"

end Request

structure Response where
  status : Nat := 200
  headers : Headers := []
  body : Bytes := []
  deriving DecidableEq

namespace Response

def isSuccess (r : Response) : Bool := 200 ≤ r.status && r.status < 300

/-- The body as text, with replacement characters where it is none. -/
def text (r : Response) : String := Text.decodeLossy r.body

def json? (r : Response) : Option Json := Json.parse? r.body

end Response

/-- What comes back for a request. -/
abbrev Answer := Except TransportError Response

end AccountGate
