import AccountGate.Auth.Error
import AccountGate.Auth.Strategy

/-!
Which strategy serves which address: the first whose start the address has. Main statements: a
record that is put goes to the place of the one with its start, or to the end; so no start ever
occurs twice.
-/

namespace AccountGate.Auth

/-- A strategy that is in use; its parts that never change, and the number that it is known by. -/
inductive Handle where
  | basic (id : Nat) (encoded : Secret)
  | bearer (id : Nat) (clientId tokenServer : String)
  deriving DecidableEq

def Handle.id : Handle → Nat
  | .basic id _ => id
  | .bearer id _ _ => id

/-- The form for messages. -/
def Handle.shown : Handle → String
  | .basic _ encoded => "Basic(" ++ basicShown encoded ++ ")"
  | .bearer _ clientId tokenServer =>
    "Bearer(BearerAuthStrategy \x7b client_id: " ++ Text.quoted clientId ++
      ", token_server: " ++ Text.quoted tokenServer ++ ", .. \x7d)"

structure Record where
  start : String
  handle : Handle
  deriving DecidableEq

abbrev Registry := List Record

namespace Registry

/-- The address that stands for all of them. -/
def anyUrl : String := "any"

/-- Why a strategy is not registered. -/
def fault? (starts : List String) : Option Error :=
  if starts.isEmpty then some .noPrefix
  else if starts.any String.isEmpty then some .emptyPrefix
  else none

/-- Takes the place of the record with the same start, or goes to the end. -/
def put (record : Record) : Registry → Registry
  | [] => [record]
  | r :: rest => if r.start = record.start then record :: rest else r :: put record rest

def enrol (starts : List String) (handle : Handle) (registry : Registry) : Registry :=
  starts.foldl (fun registry start => registry.put ⟨start, handle⟩) registry

/-- The strategy for an address. -/
def find? (url : String) (registry : Registry) : Option Handle :=
  if url = anyUrl then registry.head?.map Record.handle
  else (List.find? (fun r => r.start.toList.isPrefixOf url.toList) registry).map Record.handle

/-- The record with exactly this start, and the others. -/
def remove (start : String) : Registry → Option Handle × Registry
  | [] => (none, [])
  | r :: rest =>
    if r.start = start then (some r.handle, rest)
    else
      let (found, others) := remove start rest
      (found, r :: others)

def starts (registry : Registry) : List String := registry.map Record.start

theorem starts_put (record : Record) (registry : Registry) :
    starts (put record registry) = if record.start ∈ starts registry then starts registry
      else starts registry ++ [record.start] := by
  induction registry with
  | nil => rfl
  | cons r rest ih =>
    by_cases h : r.start = record.start
    · simp [put, starts, h]
    · have hs : record.start ≠ r.start := fun e => h e.symm
      have hp : starts (put record (r :: rest)) = r.start :: starts (put record rest) := by
        rw [put, if_neg h]
        rfl
      have hc : starts (r :: rest) = r.start :: starts rest := rfl
      rw [hp, hc, ih]
      by_cases hm : record.start ∈ starts rest <;> simp [hm, hs]

theorem nodup_starts_put (record : Record) {registry : Registry} (h : (starts registry).Nodup) :
    (starts (put record registry)).Nodup := by
  rw [starts_put]
  split
  · exact h
  · next hm =>
    rw [List.nodup_append]
    refine ⟨h, by simp, ?_⟩
    intro a ha b hb e
    rw [List.mem_singleton] at hb
    exact hm (hb ▸ e ▸ ha)

theorem nodup_starts_enrol (given : List String) (handle : Handle) {registry : Registry}
    (h : (starts registry).Nodup) : (starts (enrol given handle registry)).Nodup := by
  induction given generalizing registry with
  | nil => exact h
  | cons start rest ih => exact ih (nodup_starts_put ⟨start, handle⟩ h)

/-- The start that was just put leads to its strategy. -/
theorem mem_put (record : Record) (registry : Registry) : record ∈ put record registry := by
  induction registry with
  | nil => simp [put]
  | cons r rest ih =>
    unfold put
    split <;> simp [ih]

end Registry

end AccountGate.Auth
