import AccountGate.Auth.Fetch
import AccountGate.Auth.Renewal

/-!
Sessions in use. Whoever asks for a header holds the tokens until it is there, so that all who ask
during a refresh wait for it and see what it brought.
-/

namespace AccountGate.Auth.Program

def counterOf : RefreshOutcome → Counter
  | .refreshed _ => .tokenRefreshed
  | .unreachable _ => .refreshUnanswered
  | .rejected _ => .refreshRefused

/-- What a question for the header calls for. The clock is not read for a session that is over. -/
def decision (t : Tokens) : Program Decision :=
  if t.status = .expired then pure .expired
  else do return if t.isFresh (← now) then .current else .refresh

/-- What a refresh leaves of the tokens. The clock is read when there are new ones. -/
def settled (t : Tokens) : RefreshOutcome → Program Tokens
  | .refreshed response => do return t.renewed response (← now)
  | .unreachable _ => pure t.kept
  | .rejected _ => pure t.refused

/-- The header for the tokens of a session, which are renewed first if need be. -/
def bearerHeader (id : Nat) (clientId tokenServer : String) : Program Authorization := do
  let tokens ← call (.acquire id)
  match ← decision tokens with
  | .expired | .current => do
    call (.release id)
    return tokens.answer
  | .refresh => do
    call (.update id { tokens with status := .refreshing })
    let outcome ← refresh tokenServer clientId tokens.refresh.value
    let tokens ← settled tokens outcome
    call (.update id tokens)
    call (.count (counterOf outcome))
    call (.release id)
    return tokens.answer

def header : Handle → Program Authorization
  | .basic _ encoded => pure (basicHeader encoded)
  | .bearer id clientId tokenServer => bearerHeader id clientId tokenServer

/-- The tokens of a session as they are between two refreshes. -/
def tokens (id : Nat) : Program Tokens := do
  let tokens ← call (.acquire id)
  call (.release id)
  return tokens

def properties : Handle → Program Properties
  | .basic _ encoded => pure (Strategy.basic encoded).properties
  | .bearer id clientId tokenServer => do
    return Bearer.properties { clientId, tokenServer, tokens := ← tokens id }

end AccountGate.Auth.Program
