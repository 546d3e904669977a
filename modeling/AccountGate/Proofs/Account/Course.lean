import AccountGate.Proofs.Account.Programs
import AccountGate.Proofs.Flow.Conduct

/-!
The course of a refresh: what the two jobs that keep an account fresh do to settings, session and
key, call by call. Requests and tokens may go on beside it at every point. Main statement: both jobs
keep to the course, and so every check of support that one of them makes goes through its stages in
order.
-/

namespace AccountGate.Account

open License (Entitlement)

/-- How far a check of support has come. -/
inductive Progress where
  | entered
  | viewed (stored : Settings)
  | claimed (claim : Entitlement)
  | dated (claim : Entitlement) (day : Date)
  | weighed (claim : Entitlement) (day : Date) (key : Except Disk.Fault String)
  | judged

/-- Where a refresh stands. `known` is the user that was stored when it began. -/
inductive Stage where
  | opening
  | seeking (known : String)
  | stored (known : String)
  | looked (known : String) (found : Settings)
  /-- The user has changed, so that a check is due. -/
  | owing
  /-- The claim is on its way, and a check will follow. -/
  | claiming
  | checking (progress : Progress)
  | closing

namespace Stage

/-- The stage after the session has taken over what was found. -/
def afterTelling (known : String) (found : Settings) : Stage :=
  if found.value Key.userId = known then .closing else .owing

def Allows : Stage → Call → Prop
  | .opening, .settings => True
  | .seeking _, .settings => True
  | .seeking _, .license => True
  | .seeking _, .apply changes => ∃ user : User, changes = user.changes
  | .stored _, .settings => True
  | .looked _ found, .setUser authorized user => (authorized, user) = userOf found
  | .owing, .emit _ => True
  | .owing, .enterCheck => True
  | .claiming, .settings => True
  | .claiming, .license => True
  | .claiming, .apply changes => ∃ claim, changes = SupportClaim.changes claim
  | .claiming, .storeKey _ => True
  | .claiming, .enterCheck => True
  | .checking .entered, .settings => True
  | .checking (.viewed _), .license => True
  | .checking (.dated claim _), .loadKey => claim.supported = true
  | .checking (.dated claim _), .setSupported supported =>
    claim.supported = false ∧ supported = false
  | .checking (.weighed claim day key), .setSupported supported =>
    supported = (License.KeyCache.check key claim day).isSupported
  | .checking .judged, .leaveCheck => True
  | .closing, .emit _ => True
  | .closing, .apply changes => ∃ properties, changes = Program.credentialChanges properties
  | .checking (.claimed _), .auth c => c = .clock
  | _, .auth _ => True
  | _, _ => False

def after : Stage → (c : Call) → Reply c → Stage
  | .opening, .settings, found => .seeking (found.value Key.userId)
  | .seeking known, .settings, found => .looked known found
  | .seeking known, .apply _, _ => .stored known
  | .stored known, .settings, found => .looked known found
  | .looked known found, .setUser _ _, _ => afterTelling known found
  | .owing, .enterCheck, _ => .checking .entered
  | .claiming, .enterCheck, _ => .checking .entered
  | .checking .entered, .settings, found => .checking (.viewed found)
  | .checking (.viewed found), .license, license => .checking (.claimed (claimUnder license found))
  | .checking (.claimed claim), .auth .clock, clock => .checking (.dated claim (Date.ofUnix clock))
  | .checking (.dated claim day), .loadKey, key => .checking (.weighed claim day key)
  | .checking (.dated _ _), .setSupported _, _ => .checking .judged
  | .checking (.weighed _ _ _), .setSupported _, _ => .checking .judged
  | .checking .judged, .leaveCheck, _ => .closing
  | stage, _, _ => stage

/-- The check of support that a task is at. -/
def progress? : Stage → Option Progress
  | .checking progress => some progress
  | _ => none

end Stage

/-- The rules for both jobs; any reply may come. -/
def course : Conduct interface where
  Stage := Stage
  Allows := Stage.Allows
  Expects _ _ _ := True
  after := Stage.after

/-- Where a job starts. -/
def Job.stage : Job → Stage
  | .refreshUser => .opening
  | .refreshSupport => .claiming

open Conduct

variable {α β : Type} {stage : Stage}

/-- A program that leaves its stage as it is. -/
def Stays (stage : Stage) (p : Program α) : Prop := course.Leads (fun _ s => s = stage) stage p

theorem stays_done (a : α) : Stays stage (.done a) := rfl

theorem stays_ask {c : Call} {next : Reply c → Program α} (hallow : stage.Allows c)
    (hafter : ∀ r, stage.after c r = stage) (hnext : ∀ r, Stays stage (next r)) :
    Stays stage (.ask c next) := by
  refine ⟨hallow, fun r _ => ?_⟩
  show course.Leads _ (stage.after c r) (next r)
  rw [hafter r]
  exact hnext r

theorem Stays.bind {p : Program α} {f : α → Program β} (hp : Stays stage p)
    (hf : ∀ a, Stays stage (f a)) : Stays stage (Flow.bind p f) := by
  refine Leads.bind hp fun a s hs => ?_
  rw [hs]
  exact hf a

/-- Stages at which requests and tokens may go on beside. -/
def Stage.Open : Stage → Prop
  | .checking (.claimed _) => False
  | _ => True

theorem Stage.Open.auth (h : stage.Open) (c : Auth.Call) :
    stage.Allows (.auth c) ∧ ∀ r, stage.after (.auth c) r = stage := by
  cases stage with
  | checking progress =>
    cases progress with
    | claimed claim => exact h.elim
    | _ => exact ⟨trivial, fun _ => rfl⟩
  | _ => exact ⟨trivial, fun _ => rfl⟩

theorem stays_ofAuth (h : stage.Open) (p : Auth.Program α) : Stays stage (Program.ofAuth p) :=
  leads_expand fun c => stays_ask (h.auth c).1 (h.auth c).2 fun _ => stays_done _

namespace Program

theorem stays_credentialProperties (h : stage.Open) (cfg : Config) :
    Stays stage (credentialProperties cfg) := stays_ofAuth h _

theorem stays_tokenPair (h : stage.Open) (cfg : Config) : Stays stage (tokenPair cfg) :=
  (stays_credentialProperties h cfg).bind fun _ => stays_done _

theorem stays_fetchJson (h : stage.Open) (url : String) : Stays stage (fetchJson url).run := by
  rw [run_fetchJson]
  exact (stays_ofAuth h _).bind fun _ => stays_done _

theorem stays_fetchUser (known : String) (cfg : Config) :
    Stays (.seeking known) (fetchUser cfg).run := by
  have hopen : (Stage.seeking known).Open := trivial
  rw [run_fetchUser]
  refine stays_ask trivial (fun _ => rfl) fun license => ?_
  cases license with
  | error e => exact stays_done _
  | ok record =>
    cases record with
    | some record => exact stays_done _
    | none =>
      refine (stays_fetchJson hopen _).bind fun body => ?_
      cases body with
      | ok record => exact stays_done _
      | error e =>
        show Stays _ (ite (cfg.tokenClaims = true) _ _)
        split
        · rw [run_userOfToken]
          exact (stays_credentialProperties hopen cfg).bind fun _ => stays_done _
        · exact stays_done _

theorem stays_fetchKey (cfg : Config) : Stays .claiming (fetchKey cfg).run := by
  rw [run_fetchKey]
  have hopen : Stage.claiming.Open := trivial
  refine (stays_ofAuth hopen _).bind fun answer => ?_
  cases keyOutcome answer with
  | error e => exact stays_done _
  | ok text => exact stays_ask trivial (fun _ => rfl) fun _ => stays_done _

theorem stays_storeClaim (cfg : Config) (claim : Entitlement) :
    Stays .claiming (storeClaim cfg claim) := by
  refine stays_ask ⟨claim, rfl⟩ (fun _ => rfl) fun stored => ?_
  cases stored with
  | error e => exact stays_done _
  | ok _ =>
    show Stays _ (ite (claim.supported = true) _ _)
    split
    · exact stays_fetchKey cfg
    · exact stays_done _

theorem stays_fetchClaim (cfg : Config) : Stays .claiming (fetchClaim cfg).run := by
  rw [run_fetchClaim]
  refine stays_ask trivial (fun _ => rfl) fun found => ?_
  refine stays_ask trivial (fun _ => rfl) fun license => ?_
  cases license with
  | error e => exact stays_done _
  | ok record =>
    cases record with
    | some record => exact stays_storeClaim cfg _
    | none =>
      have hopen : Stage.claiming.Open := trivial
      refine (stays_fetchJson hopen _).bind fun body => ?_
      cases body with
      | ok record => exact stays_storeClaim cfg _
      | error e => exact stays_done _

theorem stays_saveIfChanged (cfg : Config) (before : TokenPair) :
    Stays .closing (saveIfChanged cfg before) := by
  have hopen : Stage.closing.Open := trivial
  rw [saveIfChanged_eq]
  refine (stays_tokenPair hopen cfg).bind fun pair => ?_
  split
  · exact stays_done _
  · rw [saveCredentials_eq]
    refine ((stays_credentialProperties hopen cfg).bind fun properties => ?_).bind
      fun _ => stays_done _
    split
    · exact stays_done _
    · exact stays_ask ⟨properties, rfl⟩ (fun _ => rfl) fun _ => stays_done _

theorem leads_report (h : stage.Open) (key : Except Disk.Fault String) (claim : Entitlement)
    (day : Date) : course.Leads (fun status s => s = stage ∧
      status = License.KeyCache.check key claim day) stage (report key claim day) := by
  rw [report]
  split
  · exact ⟨(h.auth _).1, fun r _ => ⟨(h.auth (.count _)).2 r, rfl⟩⟩
  · exact ⟨rfl, rfl⟩

theorem check_of_unsupported {claim : Entitlement} (h : claim.supported = false)
    (key : Except Disk.Fault String) (day : Date) :
    License.KeyCache.check key claim day = .unsupported := by
  simp [License.KeyCache.check, License.Entitlement.check, h]

/-- A check that has come to its outcome records it and lets others check. -/
theorem leads_record {supported : Bool} (hallow : stage.Allows (.setSupported supported))
    (hafter : ∀ r, stage.after (.setSupported supported) r = .checking .judged) :
    course.Leads (fun _ s => s = .closing) stage
      (.ask (.setSupported supported) fun _ => .ask .leaveCheck .done) := by
  refine ⟨hallow, fun r _ => ?_⟩
  show course.Leads _ (stage.after (.setSupported supported) r) _
  rw [hafter r]
  exact ⟨trivial, fun _ _ => rfl⟩

/-- A check goes through its stages in order. -/
theorem leads_updateSupported (hallow : stage.Allows .enterCheck)
    (hafter : ∀ r, stage.after .enterCheck r = .checking .entered) :
    course.Leads (fun _ s => s = .closing) stage updateSupported := by
  rw [updateSupported_eq, checkStored_eq]
  refine ⟨hallow, fun r _ => ?_⟩
  show course.Leads _ (stage.after .enterCheck r) _
  rw [hafter r]
  refine ⟨trivial, fun found _ => ⟨trivial, fun license _ => ?_⟩⟩
  show course.Leads _ (.checking (.claimed (claimUnder license found)))
    ((check (claimUnder license found)).bind _)
  generalize claimUnder license found = claim
  rw [check_eq]
  refine ⟨rfl, fun clock _ => ?_⟩
  show course.Leads _ (.checking (.dated claim (Date.ofUnix clock)))
    (Flow.bind (ite (claim.supported = true) _ _) _)
  split
  · next hsupported =>
    refine ⟨hsupported, fun key _ => ?_⟩
    have hopen : (Stage.checking (.weighed claim (Date.ofUnix clock) key)).Open := trivial
    refine Leads.bind (leads_report hopen key claim (Date.ofUnix clock)) ?_
    rintro status s ⟨rfl, rfl⟩
    exact leads_record rfl fun _ => rfl
  · next hsupported =>
    have hsupported := eq_false_of_ne_true hsupported
    have hopen : (Stage.checking (.dated claim (Date.ofUnix clock))).Open := trivial
    refine Leads.bind (leads_report hopen (.ok "") claim (Date.ofUnix clock)) ?_
    rintro status s ⟨rfl, rfl⟩
    refine leads_record ⟨hsupported, ?_⟩ fun _ => rfl
    rw [check_of_unsupported hsupported]
    rfl

theorem leads_finish (cfg : Config) (before : TokenPair) :
    course.Leads (fun _ s => s = .closing) .closing (finish cfg before) :=
  ⟨trivial, fun _ _ => stays_saveIfChanged cfg before⟩

theorem leads_tell (cfg : Config) (known : String) (before : TokenPair) (found : Settings) :
    course.Leads (fun _ s => s = .closing) (.looked known found) (tell cfg known before found) := by
  refine ⟨rfl, fun _ _ => ?_⟩
  show course.Leads _ (Stage.afterTelling known found) (.ask (.emit .userInfoUpdated) fun _ => _)
  rw [Stage.afterTelling]
  split
  · exact ⟨trivial, fun _ _ => stays_saveIfChanged cfg before⟩
  · refine ⟨trivial, fun _ _ => ?_⟩
    have henter : Stage.owing.Allows .enterCheck := trivial
    refine (leads_updateSupported henter fun _ => rfl).bind fun _ s hs => ?_
    rw [hs]
    exact leads_finish cfg before

theorem leads_refreshUser (cfg : Config) :
    course.Leads (fun _ s => s = .closing) .opening (refreshUser cfg) := by
  rw [refreshUser_eq]
  have hopen : Stage.opening.Open := trivial
  refine Leads.bind (stays_tokenPair hopen cfg) fun before s hs => ?_
  rw [hs]
  refine ⟨trivial, fun first _ => ?_⟩
  refine Leads.bind (stays_fetchUser (first.value Key.userId) cfg) fun result s hs => ?_
  rw [hs]
  cases result with
  | error e => exact ⟨trivial, fun found _ => leads_tell cfg _ before found⟩
  | ok user =>
    cases user with
    | none => exact ⟨trivial, fun found _ => leads_tell cfg _ before found⟩
    | some user =>
      exact ⟨⟨user, rfl⟩, fun _ _ => ⟨trivial, fun found _ => leads_tell cfg _ before found⟩⟩

theorem leads_refreshSupport (cfg : Config) :
    course.Leads (fun _ s => s = .closing) .claiming (refreshSupport cfg) := by
  rw [refreshSupport_eq]
  have hopen : Stage.claiming.Open := trivial
  have henter : Stage.claiming.Allows .enterCheck := trivial
  refine Leads.bind (stays_tokenPair hopen cfg) fun before s hs => ?_
  rw [hs]
  refine Leads.bind (stays_fetchClaim cfg) fun _ s hs => ?_
  rw [hs]
  refine (leads_updateSupported henter fun _ => rfl).bind fun _ s hs => ?_
  rw [hs]
  exact leads_finish cfg before

/-- Both jobs keep to the course. -/
theorem leads_ofJob (cfg : Config) (job : Job) :
    course.Leads (fun _ s => s = .closing) job.stage (ofJob cfg job) := by
  cases job with
  | refreshUser => exact leads_refreshUser cfg
  | refreshSupport => exact leads_refreshSupport cfg

end Program

end AccountGate.Account
