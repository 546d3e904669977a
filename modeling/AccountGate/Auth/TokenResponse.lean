import AccountGate.Decimal.Signed
import AccountGate.Json.Record
import AccountGate.Text.Blank
import AccountGate.Text.Quoted

/-!
What the token endpoint says. Every field may be missing.
-/

namespace AccountGate.Auth

structure TokenResponse where
  accessToken : Option String := none
  refreshToken : Option String := none
  expiresIn : Option Int := none
  error : Option String := none
  errorDescription : Option String := none
  deriving DecidableEq

/-- A text that says something. -/
def filled (s : Option String) : Option String := s.filter fun t => !t.isEmpty

namespace TokenResponse

/-- A number without its fraction, cut to 64 bits; what is no number is 0. -/
def wholeSeconds (x : Float) : Int :=
  if x < 0 then max Decimal.minInt64 (-(-x).toUInt64.toNat)
  else min Decimal.maxInt64 x.toUInt64.toNat

/-- A lifetime in seconds from any value: numbers beyond 64 bits are cut to them, texts are read
after trimming, all else says nothing. -/
def seconds? : Json → Option Int
  | .number (.int n) => some (if n ≤ Decimal.maxInt64 then n else Decimal.maxInt64)
  | .number (.real x) => some (wholeSeconds x)
  | .text s => Decimal.readInt64? (Text.trim s)
  | _ => none

/-- A text, null or nothing. -/
def text? : Option Json → Option (Option String)
  | none => some none
  | some .null => some none
  | some (.text s) => some (some s)
  | some _ => none

def parse? (bs : Bytes) : Option TokenResponse := do
  let fields ← Json.Record.read?
    ["access_token", "refresh_token", "expires_in", "error", "error_description"] bs
  return {
    accessToken := ← text? (fields.getD 0 none)
    refreshToken := ← text? (fields.getD 1 none)
    expiresIn := (fields.getD 2 none).bind seconds?
    error := ← text? (fields.getD 3 none)
    errorDescription := ← text? (fields.getD 4 none) }

/-- The refusal that the response reports. -/
def rejection? (t : TokenResponse) : Option String :=
  match filled t.error with
  | none => none
  | some error =>
    match filled t.errorDescription with
    | some description => some (error ++ ": " ++ description)
    | none => some error

def shownOption (show' : α → String) : Option α → String
  | none => "None"
  | some a => "Some(" ++ show' a ++ ")"

/-- The form for messages, without the tokens. -/
def shown (t : TokenResponse) : String :=
  let redacted := shownOption fun (_ : String) => Text.quoted "[REDACTED]"
  "TokenResponse \x7b access_token: " ++ redacted t.accessToken ++
    ", refresh_token: " ++ redacted t.refreshToken ++
    ", expires_in: " ++ shownOption (fun (n : Int) => toString n) t.expiresIn ++
    ", error: " ++ shownOption Text.quoted t.error ++
    ", error_description: " ++ shownOption Text.quoted t.errorDescription ++ " \x7d"

end TokenResponse

end AccountGate.Auth
