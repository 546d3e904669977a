import AccountGate.Proofs.Account.Merge
import AccountGate.Proofs.Account.Moves
import AccountGate.Proofs.Account.Stored
import AccountGate.Proofs.Flow.Solo
import AccountGate.Proofs.License.Binding
import AccountGate.Proofs.Text.Utf8

/-!
Jobs that run by themselves where nobody has credentials and no license is installed. Main
statements: what a job for the user that finds one leaves behind, with and without a check.
-/

namespace AccountGate.Account.Program

open AccountGate.Flow (Solo)
open License (Entitlement)

/-- The outside does as it is told, and settings are stored. -/
def Scripted (now : Int) (answer : Request → Answer) : (c : Call) → Reply c → Prop
  | .license, found => found = .ok none
  | .apply _, stored => stored = .ok ()
  | .auth .clock, clock => clock = now
  | .auth (.send o), reply => reply = answer o.request
  | _, _ => True

theorem Scripted.steady {now : Int} {answer : Request → Answer} {c : Call} {r : Reply c}
    (h : Scripted now answer c r) : Steady (.ok none) (Date.ofUnix now) c r := by
  cases c with
  | auth c =>
    cases c with
    | clock => exact congrArg Date.ofUnix h
    | _ => trivial
  | license => exact h
  | _ => trivial

/-- Nobody has credentials, no license is installed, and settings are kept in memory. -/
structure Bare (s : Shared) : Prop where
  registry_eq : s.vault.registry = []
  license_eq : LicenseFile.read s.disk s.licenseDir = .ok none
  memory : s.store = .memory s.store.settings none

theorem Scripted.served {now : Int} {answer : Request → Answer} {c : Call} {r : Reply c}
    (h : Scripted now answer c r) : Served (.ok none) c r := by
  cases c with
  | license => exact h
  | apply changes => exact h
  | _ => trivial

variable {now : Int} {answer : Request → Answer} {cfg : Config} {s t : Shared}

theorem step_find (h : Bare s) (url : String) : s.step (.auth (.find url)) = .reply none s := by
  have hfind : s.vault.registry.find? url = none := by
    rw [h.registry_eq, Auth.Registry.find?]
    split <;> rfl
  simp [Shared.step, Auth.Vault.step, hfind]

theorem step_license (h : Bare s) : s.step .license = .reply (.ok none) s :=
  congrArg (Outcome.reply · s) h.license_eq

/-- Settings that are kept in memory after changes. -/
def stored (s : Shared) (changes : Entries) : Shared :=
  { s with store := .memory (s.store.settings.merge changes) none }

theorem step_apply (h : Bare s) (changes : Entries) :
    s.step (.apply changes) = .reply (.ok ()) (stored s changes) := by
  have hstore := h.memory
  generalize s.store.settings = settings at hstore
  simp [Shared.step, SettingsStore.apply, stored, hstore, SettingsStore.settings]

theorem Bare.stored (h : Bare s) (changes : Entries) : Bare (stored s changes) :=
  ⟨h.registry_eq, h.license_eq, rfl⟩

theorem solo_tokenPair (h : Bare s) (cfg : Config) :
    Solo Shared.step (Scripted now answer) (tokenPair cfg) s (none, none) s :=
  .inner (step_find h _) trivial (.done _ _)

theorem solo_look (h : Bare s) (cfg : Config) : Solo Shared.step (Scripted now answer) (look cfg) s
    (s.store.settings.value Key.userId, (none, none)) s :=
  (solo_tokenPair h cfg).bind (.inner rfl trivial (.done _ _))

/-- A request without credentials. -/
theorem solo_fetchJson (h : Bare s) (url : String) :
    Solo Shared.step (Scripted now answer) (fetchJson url).run s
      (jsonOutcome url (answer (.getAny url))) s := by
  rw [run_fetchJson]
  refine .inner rfl trivial (.inner (step_find h url) trivial ?_)
  exact .outer _ rfl rfl (.done _ _)

theorem solo_saveIfChanged (h : Bare s) (cfg : Config) :
    Solo Shared.step (Scripted now answer) (saveIfChanged cfg (none, none)) s () s := by
  rw [saveIfChanged_eq]
  exact (solo_tokenPair h cfg).bind (.done _ _)

theorem solo_report (now : Int) (answer : Request → Answer) (s : Shared)
    (key : Except Disk.Fault String) (claim : License.Entitlement) (day : Date) :
    ∃ counters, Solo Shared.step (Scripted now answer) (report key claim day) s
      (License.KeyCache.check key claim day) { s with counters } := by
  rw [report]
  split
  · exact ⟨_, .inner rfl trivial (.done _ _)⟩
  · exact ⟨s.counters, .done _ _⟩

theorem solo_check (now : Int) (answer : Request → Answer) (s : Shared)
    (claim : License.Entitlement) :
    ∃ counters, Solo Shared.step (Scripted now answer) (check claim) s
      (License.KeyCache.check (License.KeyCache.load s.disk s.keyDir) claim (Date.ofUnix now))
      { s with counters } := by
  rw [check_eq]
  cases hsupported : claim.supported with
  | true =>
    obtain ⟨counters, hreport⟩ := solo_report now answer s
      (License.KeyCache.load s.disk s.keyDir) claim (Date.ofUnix now)
    exact ⟨counters, .outer now rfl rfl (.inner rfl trivial hreport)⟩
  | false =>
    obtain ⟨counters, hreport⟩ := solo_report now answer s (.ok "") claim
      (Date.ofUnix now)
    rw [check_of_unsupported hsupported] at hreport ⊢
    exact ⟨counters, .outer now rfl rfl hreport⟩

/-- The session after a check. -/
def checked (s : Shared) (now : Int) (counters : List Counter) : Shared :=
  { s with
    session := { s.session with supported := (storedStatus s (Date.ofUnix now)).isSupported }
    counters }

theorem solo_updateSupported (now : Int) (answer : Request → Answer) (h : Bare s)
    (hfree : s.checking = false) : ∃ counters,
    Solo Shared.step (Scripted now answer) updateSupported s () (checked s now counters) := by
  obtain ⟨counters, hcheck⟩ := solo_check now answer { s with checking := true }
    (claimUnder (.ok none) s.store.settings)
  have henter : s.step .enterCheck = .reply () { s with checking := true } := by
    simp [Shared.step, hfree]
  have hstored : storedStatus s (Date.ofUnix now) = License.KeyCache.check
      (License.KeyCache.load s.disk s.keyDir) (claimUnder (.ok none) s.store.settings)
      (Date.ofUnix now) := by
    rw [storedStatus, h.license_eq]
  refine ⟨counters, ?_⟩
  rw [updateSupported_eq, checkStored_eq]
  refine .inner henter trivial (.inner rfl trivial (.inner (step_license ⟨h.1, h.2, h.3⟩) rfl ?_))
  refine hcheck.bind (.inner rfl trivial ?_)
  -- Leaving the check puts the mark back to what it was.
  have hlast : checked s now counters = { checked s now counters with checking := false } := by
    rw [checked, hfree]
  rw [hlast, checked, hstored]
  exact .inner rfl trivial (.done _ _)

/-- What is shared once a job has stored a user and the session has taken it over. -/
def told (s : Shared) (user : User) : Shared :=
  let settings := s.store.settings.merge user.changes
  { stored s user.changes with
    session := ⟨(userOf settings).1, s.session.supported, (userOf settings).2⟩
    events := s.events ++ [.userInfoUpdated] }

theorem Bare.told (h : Bare s) (user : User) : Bare (told s user) :=
  ⟨h.registry_eq, h.license_eq, rfl⟩

/-- A stored claim is then checked for the user that was found. -/
theorem storedStatus_told (h : Bare s) (user : User) (day : Date) :
    storedStatus (told s user) day = License.KeyCache.check (License.KeyCache.load s.disk s.keyDir)
      { SupportClaim.ofSettings s.store.settings with userId := user.userId } day := by
  rw [storedStatus, (h.told user).license_eq, ← ofSettings_merge_user]
  rfl

/-- The job for the user up to the session, where the service names one. -/
theorem solo_seek (h : Bare s) {known : String} {record : Json} {t : Shared}
    (hrecord : jsonOutcome (cfg.resource "user_info") (answer (.getAny (cfg.resource "user_info"))) =
      .ok record)
    (hrest : Solo Shared.step (Scripted now answer)
      (if (User.ofRecord record).userId = known then saveIfChanged cfg (none, none)
        else updateSupported.bind fun _ => finish cfg (none, none))
      (told s (User.ofRecord record)) () t) :
    Solo Shared.step (Scripted now answer) (seek cfg known (none, none)) s () t := by
  have hfetch : Solo Shared.step (Scripted now answer) (fetchUser cfg).run s
      (.ok (some (User.ofRecord record))) s := by
    rw [run_fetchUser]
    refine .inner (step_license h) rfl ((solo_fetchJson h _).bind ?_)
    rw [hrecord]
    exact .done _ _
  refine hfetch.bind (.inner (step_apply h _) rfl (.inner rfl trivial (.inner rfl trivial ?_)))
  rw [← Settings.value_userId_merge_user s.store.settings (User.ofRecord record)] at hrest
  exact .inner rfl trivial hrest

/-- The job finds the user that it knows. -/
theorem solo_seek_same (h : Bare s) {record : Json}
    (hrecord : jsonOutcome (cfg.resource "user_info") (answer (.getAny (cfg.resource "user_info"))) =
      .ok record) :
    Solo Shared.step (Scripted now answer)
      (seek cfg (User.ofRecord record).userId (none, none)) s ()
      (told s (User.ofRecord record)) := by
  refine solo_seek h hrecord ?_
  rw [if_pos rfl]
  exact solo_saveIfChanged (h.told _) cfg

/-- What is shared once the job has found somebody else, and has checked support. -/
def replaced (s : Shared) (user : User) (now : Int) (counters : List Counter) : Shared :=
  { checked (told s user) now counters with
    events := (told s user).events ++ [.supportInfoUpdated] }

theorem Bare.replaced (h : Bare s) (user : User) (now : Int) (counters : List Counter) :
    Bare (replaced s user now counters) :=
  ⟨h.registry_eq, h.license_eq, rfl⟩

/-- The job finds another user, and checks support. -/
theorem solo_seek_other (h : Bare s) (hfree : s.checking = false) {known : String} {record : Json}
    (hrecord : jsonOutcome (cfg.resource "user_info") (answer (.getAny (cfg.resource "user_info"))) =
      .ok record) (hne : (User.ofRecord record).userId ≠ known) :
    ∃ counters, Solo Shared.step (Scripted now answer) (seek cfg known (none, none)) s ()
      (replaced s (User.ofRecord record) now counters) := by
  obtain ⟨counters, hcheck⟩ := solo_updateSupported now answer (h.told (User.ofRecord record)) hfree
  have hbare := h.replaced (User.ofRecord record) now counters
  refine ⟨counters, solo_seek h hrecord ?_⟩
  rw [if_neg hne]
  exact hcheck.bind (.inner rfl trivial (solo_saveIfChanged hbare cfg))

/-- The job for the user, where the service names another one than is stored. -/
theorem solo_refreshUser_other (h : Bare s) (hfree : s.checking = false) {record : Json}
    (hrecord : jsonOutcome (cfg.resource "user_info") (answer (.getAny (cfg.resource "user_info"))) =
      .ok record) (hne : (User.ofRecord record).userId ≠ s.store.settings.value Key.userId) :
    ∃ counters, Solo Shared.step (Scripted now answer) (ofJob cfg .refreshUser) s ()
      (replaced s (User.ofRecord record) now counters) := by
  obtain ⟨counters, hseek⟩ := solo_seek_other h hfree hrecord hne
  refine ⟨counters, ?_⟩
  rw [ofJob, refreshUser_eq_look]
  exact (solo_look h cfg).bind hseek

theorem step_remove (h : Bare s) (start : String) :
    s.step (.auth (.remove start)) = .reply none s := by
  have hregistry := h.registry_eq
  obtain ⟨⟨registry, tokens, held, created⟩, store, disk, keyDir, licenseDir, serial, session,
    available, checking, events, counters⟩ := s
  obtain rfl : registry = [] := hregistry
  rfl

theorem solo_unregister (h : Bare s) (start : String) (logoutUrl : Option String) :
    Solo Shared.step (Scripted now answer)
      (ofAuth (Auth.Program.unregister start logoutUrl)) s false s :=
  .inner (step_remove h start) trivial (.done _ _)

theorem solo_dropOrigins (h : Bare s) (origins : List String) :
    Solo Shared.step (Scripted now answer) (dropOrigins origins) s () s := by
  induction origins with
  | nil => exact .done _ _
  | cons origin rest ih => exact (solo_unregister h origin none).bind ih

/-- What is shared once somebody has signed out. -/
def signedOut (s : Shared) : Shared :=
  { stored s clearedEntries with
    session := {}
    events := s.events ++ [.userInfoUpdated] ++ [.supportInfoUpdated] }

theorem solo_logout (h : Bare s) (cfg : Config) :
    Solo Shared.step (Scripted now answer) (logout cfg) s (.ok ()) (signedOut s) := by
  have hdrop : Solo Shared.step (Scripted now answer) (dropCredentials cfg)
      (stored s clearedEntries) () (stored s clearedEntries) := by
    rw [dropCredentials_eq]
    exact (solo_unregister (h.stored _) _ _).bind (solo_dropOrigins (h.stored _) _)
  rw [logout_eq]
  refine .inner (step_apply h _) rfl (hdrop.bind (.inner rfl trivial ?_))
  exact .inner rfl trivial (.inner rfl trivial (.done _ _))

theorem Bare.signedOut (h : Bare s) : Bare (signedOut s) := ⟨h.registry_eq, h.license_eq, rfl⟩

end AccountGate.Account.Program

namespace AccountGate.Account

open License (Entitlement)
open Program (Bare)

section Sample

set_option maxRecDepth 10000

/-- An account whose stored claim is genuine, with its key on the disk. -/
def sample : Shared where
  store := .memory (.ofEntries ((Key.userId, "u1") :: SupportClaim.changes Entitlement.sample)) none
  disk := { nodes := [(["k"], .directory),
    (["k", License.KeyCache.fileName], .file (Text.bytes Entitlement.sampleKeyText))] }
  keyDir := "/k"
  licenseDir := "/l"
  session := ⟨true, true, { userId := "u1" }⟩

def sampleConfig : Config where
  clientId := "id"
  apiEndpoint := "https://a.io"

/-- The user in a record of the service. -/
def sampleRecord (userId : String) : Json := .object [("user_id", .text userId)]

/-- The user in a record that holds nothing else. -/
def soleUser : Json → Option String
  | .object [(name, .text id)] => if name = "user_id" then some id else none
  | _ => none

theorem eq_sampleRecord {record : Json} {id : String} (h : soleUser record = some id) :
    record = sampleRecord id := by
  rw [soleUser.eq_def] at h
  split at h
  · split at h
    · next hname =>
      obtain rfl := Option.some.inj h
      rw [hname, sampleRecord]
    · exact absurd h (by simp)
  · exact absurd h (by simp)

def noon : Int := 1718452800

/-- The browser comes back, the token server issues tokens, and it is noon. The service is
there. -/
def comingBack (redirect : Redirect) : (c : Call) → Option (Reply c)
  | .isAvailable => some true
  | .random size => some (List.replicate size 0)
  | .openBrowser _ => some (.ok ())
  | .awaitRedirect _ _ => some (some redirect)
  | .auth .clock => some noon
  | .auth (.send _) => some (.ok { body := Text.bytes "\x7b\"access_token\":\"A1\"\x7d" })
  | _ => none

/-- A text at a place that can be evaluated. -/
theorem readText_of_place {d : Disk} {path text : String} {place : Disk.Place}
    (hplace : (d.locate path).toOption = some place)
    (hnode : d.get? place = some (.file (Text.bytes text))) : d.readText path = .ok text := by
  cases hl : d.locate path with
  | error e => exact absurd (hl ▸ hplace) (by simp [Except.toOption])
  | ok found =>
    rw [hl] at hplace
    obtain rfl := Option.some.inj hplace
    exact Disk.readText_eq hl hnode (Text.decode?_bytes _)

theorem load_sample : License.KeyCache.load sample.disk sample.keyDir =
    .ok Entitlement.sampleKeyText := by
  have hnode : sample.disk.get? ["k", License.KeyCache.fileName] =
      some (.file (Text.bytes Entitlement.sampleKeyText)) := by
    simp [sample, Disk.get?, List.lookup_cons, License.KeyCache.fileName]
  exact readText_of_place (by decide +kernel) hnode

theorem bare_sample : Bare sample := by
  have hfile : LicenseFile.isInstalled sample.disk sample.licenseDir = false := by decide +kernel
  refine ⟨rfl, ?_, rfl⟩
  rw [LicenseFile.read, hfile]
  rfl

theorem day_noon : Date.ofUnix noon = ⟨2024, 6, 15⟩ := by decide

theorem ofSettings_sample : SupportClaim.ofSettings sample.store.settings = Entitlement.sample := rfl

theorem parse?_record : Json.parse? (Text.bytes "\x7b\"user_id\":\"u1\"\x7d") =
    some (sampleRecord "u1") ∧ Json.parse? (Text.bytes "\x7b\"user_id\":\"u2\"\x7d") =
    some (sampleRecord "u2") := by
  have hread (id : String) {bs : Bytes} (h : (Json.parse? bs).bind soleUser = some id) :
      Json.parse? bs = some (sampleRecord id) := by
    obtain ⟨record, hrecord, hsole⟩ := Option.bind_eq_some_iff.mp h
    rw [hrecord, eq_sampleRecord hsole]
  exact ⟨hread "u1" (by decide +kernel), hread "u2" (by decide +kernel)⟩

theorem parse?_blank : Json.parse? (Text.bytes "\x7b\x7d") = some (.object []) := by cbv

theorem settled_sample : sample.Settled := by
  refine ⟨fun settings fault h => ?_, fun dir hdir => ?_⟩
  · exact (SettingsStore.memory.inj h).2.symm
  · exact absurd hdir (by simp [sample, SettingsStore.dir?])

end Sample

end AccountGate.Account
