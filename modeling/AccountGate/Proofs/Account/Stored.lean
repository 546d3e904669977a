import AccountGate.Proofs.Account.Course
import AccountGate.Account.Shared
import AccountGate.Proofs.Flow.Alone

/-!
What the session says of support, and what a check of the stored claim would say. Main statement: a
check that runs alone depends on the stored settings, the license, the key on the disk and the day.
-/

namespace AccountGate.Account

open License (Entitlement)

theorem check_of_supported {claim : Entitlement} (h : claim.supported = true) (text : String)
    (day : Date) : License.KeyCache.check (.ok text) claim day = claim.check text day := by
  rw [License.KeyCache.check, h]
  rfl

/-- What a check of this claim says on a day. -/
def statusOf (s : Shared) (claim : Entitlement) (day : Date) : License.Status :=
  License.KeyCache.check (License.KeyCache.load s.disk s.keyDir) claim day

/-- What a check of the stored claim says on a day. -/
def storedStatus (s : Shared) (day : Date) : License.Status :=
  License.KeyCache.check (License.KeyCache.load s.disk s.keyDir)
    (claimUnder (LicenseFile.read s.disk s.licenseDir) s.store.settings) day

section Alone

open AccountGate.Flow (Alone alone_ask_of_reply alone_ask_of_outside alone_done_iff)

variable {s t : Shared} {xs : List (Exchange interface)} {status : License.Status}

theorem alone_report {key : Except Disk.Fault String} {claim : Entitlement} {day : Date} :
    Alone Shared.step (Program.report key claim day) s xs status t →
      xs = [] ∧ status = License.KeyCache.check key claim day := by
  rw [Program.report]
  split
  · intro h
    rw [alone_ask_of_reply rfl, alone_done_iff] at h
    exact ⟨h.1, h.2.1.symm⟩
  · intro h
    rw [alone_done_iff] at h
    exact ⟨h.1, h.2.1.symm⟩

theorem exists_alone_report (key : Except Disk.Fault String) (claim : Entitlement) (day : Date) :
    ∃ t, Alone Shared.step (Program.report key claim day) s []
      (License.KeyCache.check key claim day) t := by
  rw [Program.report]
  split
  · exact ⟨_, .inner rfl (.done _ _)⟩
  · exact ⟨s, .done _ _⟩

/-- A check that runs alone asks for the time, and for nothing else. -/
theorem alone_check {claim : Entitlement} (h : Alone Shared.step (Program.check claim) s xs status t) :
    ∃ clock, xs = [⟨.auth .clock, clock⟩] ∧ status = statusOf s claim (Date.ofUnix clock) := by
  rw [Program.check_eq, alone_ask_of_outside rfl] at h
  obtain ⟨clock, rest, rfl, h⟩ := h
  refine ⟨clock, ?_⟩
  rw [statusOf]
  split at h
  · rw [alone_ask_of_reply rfl] at h
    obtain ⟨rfl, rfl⟩ := alone_report h
    exact ⟨rfl, rfl⟩
  · next hsupported =>
    obtain ⟨rfl, rfl⟩ := alone_report h
    have hsupported := eq_false_of_ne_true hsupported
    rw [Program.check_of_unsupported hsupported, Program.check_of_unsupported hsupported]
    exact ⟨rfl, rfl⟩

/-- Such a check can be made at any time. -/
theorem exists_alone_check (s : Shared) (claim : Entitlement) (clock : Int) :
    ∃ t, Alone Shared.step (Program.check claim) s [⟨.auth .clock, clock⟩]
      (statusOf s claim (Date.ofUnix clock)) t := by
  rw [Program.check_eq, statusOf]
  cases hsupported : claim.supported with
  | true =>
    obtain ⟨t, ht⟩ := exists_alone_report (s := s) (License.KeyCache.load s.disk s.keyDir) claim
      (Date.ofUnix clock)
    refine ⟨t, (Flow.alone_ask_of_outside rfl).mpr ⟨clock, [], rfl, ?_⟩⟩
    exact .inner rfl ht
  | false =>
    obtain ⟨t, ht⟩ := exists_alone_report (s := s) (.ok "") claim (Date.ofUnix clock)
    rw [Program.check_of_unsupported hsupported] at ht ⊢
    exact ⟨t, (Flow.alone_ask_of_outside rfl).mpr ⟨clock, [], rfl, ht⟩⟩

/-- A check of the stored claim that runs alone says what that claim is worth. -/
theorem alone_checkStored (h : Alone Shared.step Program.checkStored s xs status t) :
    ∃ clock, xs = [⟨.auth .clock, clock⟩] ∧ status = storedStatus s (Date.ofUnix clock) := by
  rw [Program.checkStored_eq, alone_ask_of_reply rfl, alone_ask_of_reply rfl] at h
  exact alone_check h

theorem exists_alone_checkStored (s : Shared) (clock : Int) :
    ∃ t, Alone Shared.step Program.checkStored s [⟨.auth .clock, clock⟩]
      (storedStatus s (Date.ofUnix clock)) t := by
  obtain ⟨t, ht⟩ := exists_alone_check s
    (claimUnder (LicenseFile.read s.disk s.licenseDir) s.store.settings) clock
  rw [Program.checkStored_eq]
  exact ⟨t, .inner rfl (.inner rfl ht)⟩

end Alone

/-- The session says of support what any check of the stored claim on the same day says. -/
def Agrees (now : Int) (s : Shared) : Prop :=
  ∀ xs status t, Flow.Alone Shared.step Program.checkStored s xs status t →
    (∀ clock, ⟨.auth .clock, clock⟩ ∈ xs → Date.ofUnix clock = Date.ofUnix now) →
    s.session.supported = status.isSupported

theorem agrees_iff {now : Int} {s : Shared} :
    Agrees now s ↔ s.session.supported = (storedStatus s (Date.ofUnix now)).isSupported := by
  constructor
  · intro h
    obtain ⟨t, ht⟩ := exists_alone_checkStored s now
    refine h _ _ t ht fun clock hclock => ?_
    cases List.mem_singleton.mp hclock
    rfl
  · intro h xs status t halone hday
    obtain ⟨clock, rfl, rfl⟩ := alone_checkStored halone
    rw [hday clock (List.mem_singleton_self _)]
    exact h

end AccountGate.Account
