import AccountGate.Account.Call
import AccountGate.Account.SupportClaim
import AccountGate.License.KeyCache

/-!
Whether the account is supported: the claim is fetched and stored, the key that signs it likewise,
and only a check of the two decides.
-/

namespace AccountGate.Account.Program

open License (Entitlement Status)

/-- The claim of the installed license, else the stored one. -/
def currentClaim : Program Entitlement := do
  let stored ← call .settings
  match ← call .license with
  | .ok (some license) => return SupportClaim.ofRecord license (stored.value Key.userId)
  | .ok none => return SupportClaim.ofSettings stored
  | .error _ => return SupportClaim.ofSettings stored

/-- Checks a claim with the key on the disk; a claim of no support needs none. -/
def check (claim : Entitlement) : Program Status := do
  let today ← today
  let key ← if claim.supported then call .loadKey else pure (.ok "")
  let status := License.KeyCache.check key claim today
  if License.KeyCache.isCounted key claim then
    call (.auth (.count (.ofStatus status)))
  return status

/-- Checks the claim that holds now, without a trace in the session. -/
def checkStored : Program Status := do check (← currentClaim)

/-- Checks the claim that holds now and records the outcome; one such check runs at a time. -/
def updateSupported : Program Unit := do
  call .enterCheck
  let status ← checkStored
  call (.setSupported status.isSupported)
  call .leaveCheck

/-- A resource of the service as JSON. -/
def fetchJson (url : String) : Attempt Json := do
  let answer ← Attempt.ofAuth (Auth.Program.fetchAuthorized (.getAny url))
  let response ← Attempt.ofExcept .transport answer
  if !response.isSuccess then throw (.refused url response.status)
  match response.json? with
  | some value => return value
  | none => throw (.transport (.decode ""))

/-- Fetches the key that signs claims, and stores it. -/
def fetchKey (cfg : Config) : Attempt Unit := do
  let answer ← Attempt.ofAuth (Auth.Program.fetchAuthorized (.getAny (cfg.resource "rsa_public_key")))
  let response ← Attempt.ofExcept .transport answer
  if !response.isSuccess then throw (.keyRefused response.status)
  Attempt.ofExcept .key (← Attempt.call (.storeKey response.text))

/-- Fetches the claim, from the license if one is installed, and stores it. -/
def fetchClaim (cfg : Config) : Attempt Unit := do
  let stored ← Attempt.call .settings
  let userId := stored.value Key.userId
  let record ← match ← Attempt.ofExcept id (← Attempt.call .license) with
    | some license => pure license
    | none => fetchJson (cfg.resource "support_info")
  let claim := SupportClaim.ofRecord record userId
  Attempt.ofExcept id (← Attempt.call (.apply (SupportClaim.changes claim)))
  if claim.supported then fetchKey cfg

end AccountGate.Account.Program
