import AccountGate.Proofs.Account.Guard
import AccountGate.Proofs.Account.Solo

/-!
Jobs that run at once. Main statement: after any number of them in any order the session says of
support what a check of the stored claim says, unless a job has stored the very user that it found
when it began over another one that was stored meanwhile; and then the two can differ.
-/

namespace AccountGate.Account

open License (Entitlement)

variable {ι : Type} [DecidableEq ι] {license : Except Error (Option Json)} {s : Shared}
  {log : Trace interface ι}

/-- Jobs at their start, any number of them. -/
def begunJobs (cfg : Config) (jobs : ι → Job) (s : Shared) : World interface Shared ι Unit where
  state := s
  task i := .running (Program.ofJob cfg (jobs i))

variable {cfg : Config} {jobs : ι → Job} {now : Int} {w : World interface Shared ι Unit}

omit [DecidableEq ι] in
/-- At their start the jobs know nothing, and none of them checks. -/
theorem guarded_of_covered {day : Date} (hfree : s.checking = false)
    (hcovered : Covered license day (fun i => (jobs i).stage) s) :
    Guarded license day [] (fun i => (jobs i).stage) s := by
  have hidle (i : ι) : ¬ (jobs i).stage.IsChecking := by
    cases jobs i <;> exact id
  refine ⟨fun i => ?_, ⟨none, hfree, fun i => ?_⟩, hcovered⟩
  · cases hjob : jobs i with
    | refreshUser => exact fun _ => List.not_mem_nil
    | refreshSupport => trivial
  · simpa using hidle i

omit [DecidableEq ι] in
theorem guarded_begunJobs (hfree : s.checking = false)
    (hlicense : LicenseFile.read s.disk s.licenseDir = license)
    (hstart : Agrees now s ∨ ∃ i, jobs i = .refreshSupport) :
    Guarded license (Date.ofUnix now) [] (fun i => (jobs i).stage) s := by
  refine guarded_of_covered hfree ?_
  rcases hstart with hagrees | ⟨i, hi⟩
  · refine .current (fun i => Stage.upToDate_of_not_checking ?_) fun _ => ?_
    · cases jobs i <;> exact id
    · rw [agrees_iff, storedStatus, hlicense] at hagrees
      exact hagrees
  · exact .owed i (by rw [hi]; trivial)

/-- A run in which a job has put back a user over another one. -/
def HasReverted (cfg : Config) (jobs : ι → Job) (s : Shared) (log : Trace interface ι) : Prop :=
  ∃ before e after w, log = before ++ e :: after ∧
    World.Reaches Shared.step (begunJobs cfg jobs s) before w ∧ Reverts before w.state e

/-- After any number of jobs in any order, with any answers, the session says of support what a
check of the stored claim says, if it did so before or one of the jobs fetched the claim; unless a
job has stored the very user that it found when it began over another one. -/
theorem checks_see_every_write (hsettled : s.Settled) (hfree : s.checking = false)
    (hlicense : LicenseFile.read s.disk s.licenseDir = license)
    (hstart : Agrees now s ∨ ∃ i, jobs i = .refreshSupport)
    (h : World.Reaches Shared.step (begunJobs cfg jobs s) log w)
    (hsteady : ∀ e ∈ log, ∀ x, e.2.reply? = some x →
      Steady license (Date.ofUnix now) x.call x.reply)
    (hlicense' : LicenseFile.read w.state.disk w.state.licenseDir = license)
    (hdone : ∀ i, w.task i = .running (.done ())) :
    Agrees now w.state ∨ HasReverted cfg jobs s log := by
  by_cases hreverted : HasReverted cfg jobs s log
  · exact .inr hreverted
  · left
    have hfair : Conduct.FairRun Shared.step (Fair license (Date.ofUnix now))
        (begunJobs cfg jobs s) log := by
      rintro before e after w₁ w₂ rfl hreach hs
      refine ⟨hsteady e (by simp), ?_, fun hrev =>
        hreverted ⟨before, e, after, w₁, rfl, hreach, hrev⟩⟩
      have hsettled₁ : w₁.state.Settled := Shared.settled_of_reaches hsettled hreach
      rintro changes stored he
      cases hs with
      | inner _ hr =>
        cases he
        exact hsettled₁.stores_apply hr
      | asked _ _ => cases he
      | answered _ _ => cases he
    have h₀ : Guarded license (Date.ofUnix now) [] (fun i => (jobs i).stage)
        (begunJobs cfg jobs s).state := guarded_begunJobs hfree hlicense hstart
    obtain ⟨st, hguarded, hleads⟩ := (keeps_guarded license (Date.ofUnix now)).of_reaches h₀
      (fun _ => rfl) (fun i => Program.leads_ofJob cfg (jobs i)) h hfair
    -- Whoever is done owes no check, and makes none.
    have hclosing (i : ι) : st i = .closing := by
      have hlead := hleads i
      rw [hdone i] at hlead
      exact hlead
    rw [agrees_iff, storedStatus, hlicense']
    exact hguarded.covered.supported_eq hclosing

section Late

open Program (Bare Scripted told)

/-- One job finds the stored user, after another one has found somebody else in the meantime. -/
theorem reaches_late (cfg : Config) (now : Int) (answer late : Answer) {other same : Json}
    (hbare : Bare s) (hfree : s.checking = false)
    (hother : jsonOutcome (cfg.resource "user_info") answer = .ok other)
    (hsame : jsonOutcome (cfg.resource "user_info") late = .ok same)
    (hknown : (User.ofRecord same).userId = s.store.settings.value Key.userId)
    (hne : (User.ofRecord other).userId ≠ s.store.settings.value Key.userId) :
    ∃ log w, World.Reaches Shared.step (begunJobs cfg (fun _ : Bool => .refreshUser) s) log w ∧
      World.RepliesAre (Steady (.ok none) (Date.ofUnix now)) log ∧
      (∀ i, w.task i = .running (.done ())) ∧
      LicenseFile.read w.state.disk w.state.licenseDir = .ok none ∧
      storedStatus w.state (Date.ofUnix now) = storedStatus (told (told s (User.ofRecord other))
        (User.ofRecord same)) (Date.ofUnix now) ∧
      w.state.session.supported =
        (storedStatus (told s (User.ofRecord other)) (Date.ofUnix now)).isSupported := by
  have hjob (i : Bool) : (begunJobs cfg (fun _ : Bool => .refreshUser) s).task i =
      .running ((Program.look cfg).bind fun found => Program.seek cfg found.1 found.2) :=
    congrArg Task.running (Program.refreshUser_eq_look cfg)
  have hlook : Flow.Solo Shared.step (Scripted now fun _ => late) (Program.look cfg) s
      (s.store.settings.value Key.userId, (none, none)) s := Program.solo_look hbare cfg
  -- The late job reads whom it finds stored, and is not heard of for a while.
  obtain ⟨log₁, h₁, hreplies₁⟩ := World.reaches_of_solo hlook (by rfl) (hjob true)
  generalize hw₁ : (begunJobs cfg (fun _ : Bool => .refreshUser) s).set true s
    (.running (Program.seek cfg (s.store.settings.value Key.userId) (none, none))) = w₁ at h₁
  have hstate₁ : w₁.state = s := by rw [← hw₁]; rfl
  have hlate₁ : w₁.task true = .running
      (Program.seek cfg (s.store.settings.value Key.userId) (none, none)) := by
    rw [← hw₁, World.set_task_self]
  have hquick₁ : w₁.task false =
      .running ((Program.ofJob cfg .refreshUser).bind .done) := by
    rw [← hw₁, World.set_task_of_ne _ (by decide), Flow.bind_done]
    rfl
  -- The other one runs from its start to its end.
  have hquick : ∃ counters, Flow.Solo Shared.step (Scripted now fun _ => answer)
      (Program.ofJob cfg .refreshUser) s () (Program.replaced s (User.ofRecord other) now counters) :=
    Program.solo_refreshUser_other hbare hfree hother hne
  obtain ⟨counters, hquick⟩ := hquick
  obtain ⟨log₂, h₂, hreplies₂⟩ := World.reaches_of_solo hquick hstate₁ hquick₁
  have hbare' := hbare.replaced (User.ofRecord other) now counters
  have hlate₂ : (w₁.set false (Program.replaced s (User.ofRecord other) now counters)
      (.running (.done ()))).task true = .running
      ((Program.seek cfg (User.ofRecord same).userId (none, none)).bind .done) := by
    rw [World.set_task_of_ne _ (by decide), hlate₁, hknown, Flow.bind_done]
  have hback : Flow.Solo Shared.step (Scripted now fun _ => late)
      (Program.seek cfg (User.ofRecord same).userId (none, none)) _ () _ :=
    Program.solo_seek_same hbare' hsame
  obtain ⟨log₃, h₃, hreplies₃⟩ := World.reaches_of_solo hback (by rfl) hlate₂
  refine ⟨_, _, h₁.trans (h₂.trans h₃), ?_, ?_, ?_⟩
  · refine .append ?_ (.append ?_ ?_)
    · exact fun e he x hx => (hreplies₁ e he x hx).steady
    · exact fun e he x hx => (hreplies₂ e he x hx).steady
    · exact fun e he x hx => (hreplies₃ e he x hx).steady
  · intro i
    cases i with
    | true => exact World.set_task_self _ _ _ _
    | false =>
      rw [World.set_task_of_ne _ (by decide), World.set_task_self]
  · exact ⟨hbare.license_eq, rfl, rfl⟩

/-- After a user has been stored, the claim is checked for that user. -/
theorem check_told {t : Shared} (hbare : Bare t)
    (hload : License.KeyCache.load t.disk t.keyDir = .ok Entitlement.sampleKeyText) {known : String}
    (hclaim : SupportClaim.ofSettings t.store.settings = { Entitlement.sample with userId := known })
    (user : User) : storedStatus (told t user) (Date.ofUnix noon) =
      { Entitlement.sample with userId := user.userId }.check Entitlement.sampleKeyText
        ⟨2024, 6, 15⟩ := by
  have hsupported : ({ Entitlement.sample with userId := user.userId } : Entitlement).supported =
      true := rfl
  rw [Program.storedStatus_told hbare, day_noon, hload, hclaim]
  exact check_of_supported hsupported _ _

set_option maxRecDepth 10000 in
/-- The claim does not hold for somebody else. -/
theorem rejected_u2 : ({ Entitlement.sample with userId := "u2" }.check Entitlement.sampleKeyText
    ⟨2024, 6, 15⟩).isSupported = false := by
  have hverifies : Rsa.verifies Entitlement.sampleKey (Text.bytes
      ({ Entitlement.sample with userId := "u2" } : Entitlement).message)
      Entitlement.sampleSignature = false := by
    have huser : Text.bytes "u2" = Text.bytesOf _ := Text.bytes_ofList _
    have hstart : Text.bytes Entitlement.sample.startDate = Text.bytesOf _ := Text.bytes_ofList _
    have hend : Text.bytes Entitlement.sample.endDate = Text.bytesOf _ := Text.bytes_ofList _
    have hword : Text.bytes "true" = Text.bytesOf _ := Text.bytes_ofList _
    rw [Entitlement.message, Text.bytes_append, Text.bytes_append, Text.bytes_append, huser,
      hstart, hend, hword]
    decide +kernel
  generalize hstatus : Entitlement.check _ _ _ = status
  cases status with
  | supported =>
    obtain ⟨signature, key, hdecode, -, hparse, hsigned⟩ :=
      (Entitlement.supported_iff.mp hstatus).1.signed
    obtain rfl := Except.ok.inj (Entitlement.decode_sample.symm.trans hdecode)
    obtain rfl := Option.some.inj (Entitlement.parse?_sampleKeyText.symm.trans hparse)
    rw [Rsa.verifies_iff.mpr hsigned] at hverifies
    exact absurd hverifies (by decide)
  | _ => rfl

theorem agrees_sample : Agrees noon sample := by
  have hstatus : License.KeyCache.check (.ok Entitlement.sampleKeyText) Entitlement.sample
      ⟨2024, 6, 15⟩ = .supported :=
    (check_of_supported (by decide) _ _).trans Entitlement.check_sample
  rw [agrees_iff, storedStatus, bare_sample.license_eq, day_noon, load_sample, claimUnder,
    ofSettings_sample, hstatus]
  rfl

/-- Two jobs for the user of the sample, one of them late. -/
theorem exists_late_sample : ∃ log w,
    World.Reaches Shared.step (begunJobs sampleConfig (fun _ : Bool => .refreshUser) sample) log w ∧
    World.RepliesAre (Steady (.ok none) (Date.ofUnix noon)) log ∧
    (∀ i, w.task i = .running (.done ())) ∧
    LicenseFile.read w.state.disk w.state.licenseDir = .ok none ∧ ¬ Agrees noon w.state := by
  obtain ⟨hparse₁, hparse₂⟩ := parse?_record
  have hstored : sample.store.settings.value Key.userId = "u1" :=
    congrArg Entitlement.userId ofSettings_sample
  have hsame : (User.ofRecord (sampleRecord "u1")).userId = "u1" := rfl
  have hother : (User.ofRecord (sampleRecord "u2")).userId = "u2" := rfl
  have hne : (User.ofRecord (sampleRecord "u2")).userId ≠
      sample.store.settings.value Key.userId := by
    rw [hother, hstored]
    decide
  obtain ⟨log, w, hreach, hreplies, hdone, hlicense, hstatus, hsupported⟩ :=
    reaches_late sampleConfig noon _ _ bare_sample rfl (jsonOutcome_of_parse hparse₂ _)
      (jsonOutcome_of_parse hparse₁ _) (hsame.trans hstored.symm) hne
  have hclaim : SupportClaim.ofSettings (told sample
      (User.ofRecord (sampleRecord "u2"))).store.settings =
      { Entitlement.sample with userId := "u2" } := by
    rw [← hother, ← ofSettings_sample]
    exact ofSettings_merge_user _ _
  have hfirst := check_told bare_sample load_sample ofSettings_sample
    (User.ofRecord (sampleRecord "u2"))
  have hload : License.KeyCache.load (told sample (User.ofRecord (sampleRecord "u2"))).disk
      (told sample (User.ofRecord (sampleRecord "u2"))).keyDir = .ok Entitlement.sampleKeyText :=
    load_sample
  have hlast := check_told (bare_sample.told _) hload hclaim (User.ofRecord (sampleRecord "u1"))
  refine ⟨log, w, hreach, hreplies, hdone, hlicense, fun hagrees => ?_⟩
  have hunsupported := hsupported.trans (congrArg License.Status.isSupported hfirst)
  have hsupported' := congrArg License.Status.isSupported (hstatus.trans hlast)
  rw [hother, rejected_u2] at hunsupported
  rw [hsame] at hsupported'
  have hagain := hunsupported.symm.trans ((agrees_iff.mp hagrees).trans hsupported')
  exact absurd (hagain.trans (congrArg _ Entitlement.check_sample)) (by decide)

/-- Both jobs of the sample go through: what holds of every run holds of this one. -/
theorem checks_see_every_write_sample : ∃ log w,
    sample.Settled ∧ sample.checking = false ∧
    LicenseFile.read sample.disk sample.licenseDir = .ok none ∧ Agrees noon sample ∧
    World.Reaches Shared.step (begunJobs sampleConfig (fun _ : Bool => .refreshUser) sample) log w ∧
    (∀ e ∈ log, ∀ x, e.2.reply? = some x →
      Steady (.ok none) (Date.ofUnix noon) x.call x.reply) ∧
    LicenseFile.read w.state.disk w.state.licenseDir = .ok none ∧
    (∀ i, w.task i = .running (.done ())) ∧
    (Agrees noon w.state ∨ HasReverted sampleConfig (fun _ : Bool => .refreshUser) sample log) := by
  obtain ⟨log, w, hreach, hreplies, hdone, hlicense, -⟩ := exists_late_sample
  exact ⟨log, w, settled_sample, rfl, bare_sample.license_eq, agrees_sample, hreach, hreplies,
    hlicense, hdone, checks_see_every_write settled_sample rfl bare_sample.license_eq
      (.inl agrees_sample) hreach hreplies hlicense hdone⟩

/-- A check can miss a write: one job finds `u1` stored and hears of nobody else, while another one
stores `u2` and checks. The session says that there is no support, and the stored claim is genuine. -/
theorem last_check_misses_a_write : ∃ log w,
    sample.Settled ∧ sample.checking = false ∧
    LicenseFile.read sample.disk sample.licenseDir = .ok none ∧ Agrees noon sample ∧
    World.Reaches Shared.step (begunJobs sampleConfig (fun _ : Bool => .refreshUser) sample) log w ∧
    (∀ e ∈ log, ∀ x, e.2.reply? = some x →
      Steady (.ok none) (Date.ofUnix noon) x.call x.reply) ∧
    LicenseFile.read w.state.disk w.state.licenseDir = .ok none ∧
    (∀ i, w.task i = .running (.done ())) ∧ ¬ Agrees noon w.state := by
  obtain ⟨log, w, hreach, hreplies, hdone, hlicense, hdisagrees⟩ := exists_late_sample
  exact ⟨log, w, settled_sample, rfl, bare_sample.license_eq, agrees_sample, hreach, hreplies,
    hlicense, hdone, hdisagrees⟩

end Late

end AccountGate.Account
