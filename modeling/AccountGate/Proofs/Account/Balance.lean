import AccountGate.Proofs.Account.Settled
import AccountGate.Proofs.Account.Tally
import AccountGate.Proofs.Auth.Tending

/-!
What is shared while the two jobs of a refresh run. Main statement: at every moment tokens, settings,
disk, session and events are what the tallies of the two jobs say, in whatever order they came about.
-/

namespace AccountGate.Account

open Program (TokenPair)

open Conduct (update_same proj_update_self)

section Tokens

variable {ι : Type} {o : Occasion} {v₀ v v' : Auth.Vault} {grip : ι → Auth.Grip}
  {before : ι → Option TokenPair} {saved : ι → Bool} {i : ι}

/-- The tokens while the jobs run. Who has renewed them had read the first ones before; and they are
stored only if they have changed. -/
structure Renewing (o : Occasion) (v₀ : Auth.Vault) (grip : ι → Auth.Grip)
    (before : ι → Option TokenPair) (saved : ι → Bool) (v : Auth.Vault) : Prop where
  tended : Auth.Tended o.scene v₀ grip v
  before_eq : ∀ i b, before i = some b → b = o.pair o.first ∨
    b = o.pair o.scene.last ∧ (grip i).known = o.scene.last
  renewer : o.first ≠ o.scene.last → (∃ i, (grip i).known = o.scene.last) →
    ∃ i, (grip i).known = o.scene.last ∧ before i = some (o.pair o.first)
  saved_differs : ∀ i, saved i = true → o.pair o.first ≠ o.pair o.scene.last

variable [DecidableEq ι]

/-- Every call around tokens. -/
theorem Renewing.auth (h : Renewing o v₀ grip before saved v) {c : Auth.Call} {r : Auth.Reply c}
    (hallow : (grip i).Allows o.scene c) (hr : v.Replies c r v') (hanswers : o.scene.Answers c r)
    (hbefore : (∃ t, (grip i).hand = .put t) → before i ≠ none) :
    Renewing o v₀ (Function.update grip i ((grip i).after o.scene c r)) before saved v' := by
  have hstays (j : ι) (hj : (grip j).known = o.scene.last) :
      (Function.update grip i ((grip i).after o.scene c r) j).known = o.scene.last := by
    by_cases hji : j = i
    · subst hji
      rw [Function.update_self]
      exact h.tended.known_stays hallow hj
    · rwa [Function.update_of_ne hji]
  have hold (hne : o.first ≠ o.scene.last) (hsome : ∃ j, (grip j).known = o.scene.last) :
      ∃ j, (Function.update grip i ((grip i).after o.scene c r) j).known = o.scene.last ∧
        before j = some (o.pair o.first) := by
    obtain ⟨j, hj, hb⟩ := h.renewer hne hsome
    exact ⟨j, hstays j hj, hb⟩
  refine ⟨h.tended.step hallow hr hanswers, fun j b hb => ?_, fun hne => ?_, h.saved_differs⟩
  · exact (h.before_eq j b hb).imp_right fun hlast => ⟨hlast.1, hstays j hlast.2⟩
  · rintro ⟨j, hj⟩
    by_cases hji : j = i
    · subst hji
      rw [Function.update_self] at hj
      rcases h.tended.exists_known hallow hj with hsome | hput
      · exact hold hne hsome
      · -- Who puts the renewed tokens has read the first ones, or knows the renewed ones already.
        obtain ⟨b, hb⟩ := Option.ne_none_iff_exists'.mp (hbefore hput)
        rcases h.before_eq j b hb with rfl | ⟨_, hknown⟩
        · exact ⟨j, by rwa [Function.update_self], hb⟩
        · exact hold hne ⟨j, hknown⟩
    · rw [Function.update_of_ne hji] at hj
      exact hold hne ⟨j, hj⟩

/-- A task remembers the tokens that it knows first. -/
theorem Renewing.remember (h : Renewing o v₀ grip before saved v) (i : ι) :
    Renewing o v₀ grip
      (Function.update before i ((before i).or (some (o.pair (grip i).known)))) saved v := by
  refine ⟨h.tended, fun j b hb => ?_, fun hne hsome => ?_, h.saved_differs⟩
  · by_cases hji : j = i
    · subst hji
      rw [Function.update_self] at hb
      cases hbefore : before j with
      | some b' =>
        rw [hbefore] at hb
        exact h.before_eq j b (hbefore.trans hb)
      | none =>
        rw [hbefore] at hb
        obtain rfl := Option.some.inj hb
        exact (h.tended.has j).imp (congrArg o.pair) fun hknown => ⟨congrArg o.pair hknown, hknown⟩
    · rw [Function.update_of_ne hji] at hb
      exact h.before_eq j b hb
  · obtain ⟨j, hj, hb⟩ := h.renewer hne hsome
    refine ⟨j, hj, ?_⟩
    by_cases hji : j = i
    · subst hji
      rw [Function.update_self, hb]
      rfl
    · rwa [Function.update_of_ne hji]

/-- A task stores tokens that differ from those that it read first. -/
theorem Renewing.save (h : Renewing o v₀ grip before saved v) {b : TokenPair}
    (hb : before i = some b) (hne : b ≠ o.pair o.scene.last) :
    Renewing o v₀ grip before (Function.update saved i true) v := by
  have hdiffers : o.pair o.first ≠ o.pair o.scene.last := by
    rcases h.before_eq i b hb with rfl | ⟨hlast, _⟩
    · exact hne
    · exact absurd hlast hne
  refine ⟨h.tended, h.before_eq, h.renewer, fun j hj => ?_⟩
  by_cases hji : j = i
  · exact hdiffers
  · rw [Function.update_of_ne hji] at hj
    exact h.saved_differs j hj

end Tokens

section Stored

variable {o : Occasion} {wrote : Job → Entries} {saved : Job → Bool} {settings : Settings}
  {changes : Entries} {i : Job}

/-- The settings once the jobs have stored what they found, and one of them tokens, if any has. -/
def Occasion.storedAs (o : Occasion) (wrote : Job → Entries) (saved : Job → Bool) : Settings :=
  ((o.settings.merge (wrote .refreshUser)).merge (wrote .refreshSupport)).merge
    (if saved .refreshUser || saved .refreshSupport then o.credentials else [])

theorem user_notMem_support {key : String} (h : key ∈ Job.refreshUser.keys) :
    key ∉ Job.refreshSupport.keys := by
  have hall : ∀ key ∈ Job.refreshUser.keys, key ∉ Job.refreshSupport.keys := by decide
  exact hall key h

theorem keys_notMem_credentials {key : String} {job : Job} (h : key ∈ job.keys) :
    key ∉ o.credentials.map Prod.fst := by
  have hall : ∀ key ∈ job.keys, key ∉ [Key.accessToken, Key.updateToken, Key.expiresIn] := by
    cases job <;> decide
  exact hall key h

theorem keys_notMem_saved {key : String} {job : Job} (h : key ∈ job.keys) (saved : Bool) :
    key ∉ (if saved then o.credentials else []).map Prod.fst := by
  cases saved with
  | true => exact keys_notMem_credentials h
  | false => exact List.not_mem_nil

/-- The settings are what the jobs have stored, each under its own keys. -/
structure Storing (o : Occasion) (wrote : Job → Entries) (saved : Job → Bool) (settings : Settings) :
    Prop where
  settings_eq : settings = o.storedAs wrote saved
  keys : ∀ job, ∀ key ∈ (wrote job).map Prod.fst, key ∈ job.keys

/-- The keys of the job for the user hold what it has stored, or what was there. -/
theorem Storing.get?_eq (h : Storing o wrote saved settings) {key : String}
    (hkey : key ∈ Job.refreshUser.keys) :
    settings.get? key = (o.settings.merge (wrote .refreshUser)).get? key := by
  rw [h.settings_eq, Occasion.storedAs, Settings.get?_merge_of_notMem (keys_notMem_saved hkey _),
    Settings.get?_merge_of_notMem fun hmem => user_notMem_support hkey (h.keys _ key hmem)]

/-- A job stores what it found. -/
theorem Storing.own (h : Storing o wrote saved settings) (hfirst : wrote i = [])
    (hkeys : ∀ key ∈ changes.map Prod.fst, key ∈ i.keys) :
    Storing o (Function.update wrote i changes) saved (settings.merge changes) := by
  have hcredentials (saved : Bool) : ∀ key ∈ (if saved then o.credentials else []).map Prod.fst,
      key ∉ changes.map Prod.fst := fun key hmem hkey =>
    keys_notMem_saved (hkeys key hkey) saved hmem
  refine ⟨?_, fun job => ?_⟩
  · -- What is stored now goes below the tokens, and the job for the user below the other one.
    rw [h.settings_eq, Occasion.storedAs, Occasion.storedAs, Settings.merge_comm (hcredentials _)]
    cases i with
    | refreshUser =>
      rw [Function.update_self, Function.update_of_ne (by decide), hfirst,
        Settings.merge_comm (b := changes) fun key hmem hkey =>
          user_notMem_support (hkeys key hkey) (h.keys _ key hmem)]
      rfl
    | refreshSupport =>
      rw [Function.update_self, Function.update_of_ne (by decide), hfirst]
      rfl
  · by_cases hjob : job = i
    · subst hjob
      rwa [Function.update_self]
    · rw [Function.update_of_ne hjob]
      exact h.keys job

/-- A job stores the renewed tokens, maybe once more. -/
theorem Storing.save (h : Storing o wrote saved settings) (i : Job) :
    Storing o wrote (Function.update saved i true) (settings.merge o.credentials) := by
  refine ⟨?_, h.keys⟩
  have hsaved : (Function.update saved i true .refreshUser ||
      Function.update saved i true .refreshSupport) = true := by
    cases i with
    | refreshUser => rw [Function.update_self, Bool.true_or]
    | refreshSupport => rw [Function.update_self, Bool.or_true]
  rw [h.settings_eq, Occasion.storedAs, Occasion.storedAs, hsaved, if_pos rfl]
  split
  · exact Settings.merge_self _ _
  · rfl

end Stored

section Stock

variable {s₀ s s' : Shared} {wrote : Job → Entries} {saved : Job → Bool} {key : Job → Option String}
  {i : Job}

/-- A job has stored something. -/
def HasWritten (wrote : Job → Entries) (saved : Job → Bool) : Prop :=
  ∃ i, wrote i ≠ [] ∨ saved i = true

theorem hasWritten_iff : HasWritten wrote saved ↔
    (wrote .refreshUser ≠ [] ∨ wrote .refreshSupport ≠ []) ∨
      (saved .refreshUser || saved .refreshSupport) = true := by
  rw [Bool.or_eq_true]
  constructor
  · rintro ⟨i, hwrote | hsaved⟩ <;> cases i
    · exact .inl (.inl hwrote)
    · exact .inl (.inr hwrote)
    · exact .inr (.inl hsaved)
    · exact .inr (.inr hsaved)
  · rintro ((hwrote | hwrote) | (hsaved | hsaved))
    · exact ⟨_, .inl hwrote⟩
    · exact ⟨_, .inl hwrote⟩
    · exact ⟨_, .inr hsaved⟩
    · exact ⟨_, .inr hsaved⟩

instance : Decidable (HasWritten wrote saved) := decidable_of_iff' _ hasWritten_iff

/-- The disk once settings have been written, and maybe a key. -/
def Shared.stockedDisk (s : Shared) (key : Option String) : Disk :=
  let written := (s.store.apply s.disk []).2.2
  match key with
  | none => written
  | some text => (License.KeyCache.store written s.keyDir s.serial text).2

/-- The disk while the jobs run: before the first settings are written it is as it was; from then on
it differs in the settings at most, and in the key if one has been stored. -/
structure Stocked (s₀ : Shared) (wrote : Job → Entries) (saved : Job → Bool)
    (key : Job → Option String) (s : Shared) : Prop where
  keyDir_eq : s.keyDir = s₀.keyDir
  dir_eq : s.store.dir? = s₀.store.dir?
  untouched : ¬ HasWritten wrote saved →
    key .refreshSupport = none ∧ s.store = s₀.store ∧ s.disk = s₀.disk
  touched : HasWritten wrote saved → Twins s₀.store (s₀.stockedDisk (key .refreshSupport)) s.disk
  serial_eq : key .refreshSupport = none → s.serial = s₀.serial

/-- Settings are written. -/
theorem Stocked.apply (h : Stocked s₀ wrote saved key s) {changes : Entries}
    (hs : s.step (.apply changes) = .reply (.ok ()) s') {wrote' : Job → Entries}
    {saved' : Job → Bool} (hwritten' : HasWritten wrote' saved') :
    Stocked s₀ wrote' saved' key s' := by
  obtain ⟨hok, rfl⟩ := Outcome.reply.inj hs
  refine ⟨h.keyDir_eq, (dir?_apply _ _ _).trans h.dir_eq, fun hnot => absurd hwritten' hnot,
    fun _ => ?_, h.serial_eq⟩
  -- Once the file is there, another write replaces it and nothing else.
  by_cases hwritten : HasWritten wrote saved
  · exact (h.touched hwritten).trans ((h.touched hwritten).apply h.dir_eq hok)
  · obtain ⟨hkey, hstore, hdisk⟩ := h.untouched hwritten
    rw [hstore, hdisk] at hok
    show Twins s₀.store _ (s.store.apply s.disk changes).2.2
    rw [hkey, hstore, hdisk]
    exact twins_of_first hok

/-- The key is stored, once settings have been. -/
theorem Stocked.storeKey (h : Stocked s₀ wrote saved key s) (hkey : key .refreshSupport = none)
    (hwritten : HasWritten wrote saved) {text : String} {r : Except License.KeyError Unit}
    (hs : s.step (.storeKey text) = .reply r s') :
    Stocked s₀ wrote saved (Function.update key .refreshSupport (some text)) s' := by
  have htwins := (h.touched hwritten).storeKey s₀.keyDir s₀.serial text
  rw [Shared.step_storeKey, h.keyDir_eq, h.serial_eq hkey] at hs
  obtain ⟨-, rfl⟩ := Outcome.reply.inj hs
  generalize (License.KeyCache.store s.disk s₀.keyDir s₀.serial text).2 = d at htwins
  refine ⟨rfl, h.dir_eq, fun hnot => absurd hwritten hnot, fun _ => ?_, ?_⟩
  · rw [Function.update_self]
    rw [hkey] at htwins
    exact htwins
  · rw [Function.update_self]
    nofun

theorem Stocked.congr (h : Stocked s₀ wrote saved key s) (hstore : s'.store = s.store)
    (hdisk : s'.disk = s.disk) (hdir : s'.keyDir = s.keyDir) (hserial : s'.serial = s.serial) :
    Stocked s₀ wrote saved key s' := by
  refine ⟨hdir.trans h.keyDir_eq, hstore ▸ h.dir_eq, ?_, ?_, fun hkey => hserial.trans (h.serial_eq hkey)⟩
  · rw [hstore, hdisk]
    exact h.untouched
  · rw [hdisk]
    exact h.touched

end Stock

section Announced

variable {s₀ s : Shared} {told : Job → Option (Bool × User)} {emitted : Job → List Event} {i : Job}

/-- The session tells what the job for the user has told, and the events are those of both jobs. -/
structure Announced (s₀ : Shared) (told : Job → Option (Bool × User)) (emitted : Job → List Event)
    (s : Shared) : Prop where
  told_eq : (s.session.authorized, s.session.user) =
    (told .refreshUser).getD (s₀.session.authorized, s₀.session.user)
  events_eq : ∃ new, s.events = s₀.events ++ new ∧
    new.Perm (emitted .refreshUser ++ emitted .refreshSupport)

theorem Announced.tell (h : Announced s₀ told emitted s) (authorized : Bool) (user : User) :
    Announced s₀ (Function.update told .refreshUser (some (authorized, user))) emitted
      { s with session := { s.session with authorized, user } } :=
  ⟨by rw [Function.update_self]; rfl, h.events_eq⟩

theorem Announced.emit (h : Announced s₀ told emitted s) (i : Job) (event : Event) :
    Announced s₀ told (Function.update emitted i (emitted i ++ [event]))
      { s with events := s.events ++ [event] } := by
  refine ⟨h.told_eq, ?_⟩
  obtain ⟨new, hevents, hperm⟩ := h.events_eq
  refine ⟨new ++ [event], by rw [hevents, List.append_assoc], ?_⟩
  cases i with
  | refreshUser =>
    rw [Function.update_self, Function.update_of_ne (by decide), List.append_assoc]
    refine (hperm.append_right [event]).trans ?_
    rw [List.append_assoc]
    exact List.perm_append_comm.append_left _
  | refreshSupport =>
    rw [Function.update_self, Function.update_of_ne (by decide), ← List.append_assoc]
    exact hperm.append_right [event]

theorem Announced.congr {s' : Shared} (h : Announced s₀ told emitted s)
    (hauthorized : s'.session.authorized = s.session.authorized)
    (huser : s'.session.user = s.session.user) (hevents : s'.events = s.events) :
    Announced s₀ told emitted s' :=
  ⟨by rw [hauthorized, huser, h.told_eq], hevents ▸ h.events_eq⟩

end Announced

/-- The clock stands, the network answers each method and address alike, the license stays as it is,
and every change of settings is stored. -/
def Fixed (license : Except Error (Option Json)) (now : Int) (answer : String → String → Answer) :
    (c : Call) → Reply c → Prop
  | .auth .clock, clock => clock = now
  | .auth (.send o), reply => reply = answer o.request.method o.request.url
  | .license, found => found = license
  | .apply _, stored => stored = .ok ()
  | _, _ => True

/-- What is shared is what the two tallies say. -/
structure Balanced (o : Occasion) (s₀ : Shared) (log : Trace interface Job) (st : Job → Tally)
    (s : Shared) : Prop where
  job_eq : ∀ i, (st i).job = i
  renewing : Renewing o s₀.vault (fun i => (st i).grip) (fun i => (st i).before)
    (fun i => (st i).saved) s.vault
  storing : Storing o (fun i => (st i).wrote) (fun i => (st i).saved) s.store.settings
  stocked : Stocked s₀ (fun i => (st i).wrote) (fun i => (st i).saved) (fun i => (st i).key) s
  announced : Announced s₀ (fun i => (st i).told) (fun i => (st i).emitted) s
  /-- Until it stores a user, the job for the user finds the one that was there. -/
  seen : (st .refreshUser).wrote = [] → ∀ found, (.refreshUser, .inner .settings found) ∈ log →
    found.value Key.userId = o.settings.value Key.userId

namespace Balanced

variable {o : Occasion} {s₀ s s' : Shared} {log : Trace interface Job} {st : Job → Tally} {i : Job}
  {t : Tally} {e : AccountGate.Event interface}

theorem jobs (h : Balanced o s₀ log st s) (hjob : t.job = (st i).job) (j : Job) :
    (Function.update st i t j).job = j :=
  (Function.forall_update_iff st fun j t => t.job = j).mpr
    ⟨hjob.trans (h.job_eq i), fun j _ => h.job_eq j⟩ j

theorem seen_snoc (h : Balanced o s₀ log st s)
    (hwrote : t.wrote = [] → (st i).wrote = []) (he : ∀ found, i = .refreshUser →
      e = .inner .settings found → (st i).wrote = [] →
        found.value Key.userId = o.settings.value Key.userId) :
    (Function.update st i t .refreshUser).wrote = [] → ∀ found,
      (.refreshUser, .inner .settings found) ∈ log ++ [(i, e)] →
        found.value Key.userId = o.settings.value Key.userId := by
  intro hnil found hmem
  have hbefore : (st .refreshUser).wrote = [] := by
    by_cases hi : Job.refreshUser = i
    · subst hi
      rw [Function.update_self] at hnil
      exact hwrote hnil
    · rwa [Function.update_of_ne hi] at hnil
  rcases List.mem_append.mp hmem with hmem | hmem
  · exact h.seen hbefore found hmem
  · obtain ⟨rfl, rfl⟩ := Prod.mk.inj (List.mem_singleton.mp hmem)
    exact he found rfl rfl hbefore

/-- A job moves on. -/
theorem move (h : Balanced o s₀ log st s) (hjob : t.job = (st i).job)
    (hrenewing : Renewing o s₀.vault (Function.update (fun j => (st j).grip) i t.grip)
      (Function.update (fun j => (st j).before) i t.before)
      (Function.update (fun j => (st j).saved) i t.saved) s'.vault)
    (hstoring : Storing o (Function.update (fun j => (st j).wrote) i t.wrote)
      (Function.update (fun j => (st j).saved) i t.saved) s'.store.settings)
    (hstocked : Stocked s₀ (Function.update (fun j => (st j).wrote) i t.wrote)
      (Function.update (fun j => (st j).saved) i t.saved)
      (Function.update (fun j => (st j).key) i t.key) s')
    (hannounced : Announced s₀ (Function.update (fun j => (st j).told) i t.told)
      (Function.update (fun j => (st j).emitted) i t.emitted) s')
    (hwrote : t.wrote = [] → (st i).wrote = []) (he : ∀ found, i = .refreshUser →
      e = .inner .settings found → (st i).wrote = [] →
        found.value Key.userId = o.settings.value Key.userId) :
    Balanced o s₀ (log ++ [(i, e)]) (Function.update st i t) s' := by
  refine ⟨h.jobs hjob, ?_, ?_, ?_, ?_, h.seen_snoc hwrote he⟩
  · rwa [proj_update_self Tally.grip, proj_update_self Tally.before, proj_update_self Tally.saved]
  · rwa [proj_update_self Tally.wrote, proj_update_self Tally.saved]
  · rwa [proj_update_self Tally.wrote, proj_update_self Tally.saved, proj_update_self Tally.key]
  · rwa [proj_update_self Tally.told, proj_update_self Tally.emitted]

section Same

theorem renewing_same (h : Balanced o s₀ log st s) (hgrip : t.grip = (st i).grip)
    (hbefore : t.before = (st i).before) (hsaved : t.saved = (st i).saved)
    (hvault : s'.vault = s.vault) :
    Renewing o s₀.vault (Function.update (fun j => (st j).grip) i t.grip)
      (Function.update (fun j => (st j).before) i t.before)
      (Function.update (fun j => (st j).saved) i t.saved) s'.vault := by
  rw [hgrip, hbefore, hsaved, hvault, update_same Tally.grip, update_same Tally.before,
    update_same Tally.saved]
  exact h.renewing

theorem storing_same (h : Balanced o s₀ log st s) (hwrote : t.wrote = (st i).wrote)
    (hsaved : t.saved = (st i).saved) (hstore : s'.store = s.store) :
    Storing o (Function.update (fun j => (st j).wrote) i t.wrote)
      (Function.update (fun j => (st j).saved) i t.saved) s'.store.settings := by
  rw [hwrote, hsaved, hstore, update_same Tally.wrote, update_same Tally.saved]
  exact h.storing

theorem stocked_same (h : Balanced o s₀ log st s) (hwrote : t.wrote = (st i).wrote)
    (hsaved : t.saved = (st i).saved) (hkey : t.key = (st i).key) (hstore : s'.store = s.store)
    (hdisk : s'.disk = s.disk) (hdir : s'.keyDir = s.keyDir) (hserial : s'.serial = s.serial) :
    Stocked s₀ (Function.update (fun j => (st j).wrote) i t.wrote)
      (Function.update (fun j => (st j).saved) i t.saved)
      (Function.update (fun j => (st j).key) i t.key) s' := by
  rw [hwrote, hsaved, hkey, update_same Tally.wrote, update_same Tally.saved, update_same Tally.key]
  exact h.stocked.congr hstore hdisk hdir hserial

theorem announced_same (h : Balanced o s₀ log st s) (htold : t.told = (st i).told)
    (hemitted : t.emitted = (st i).emitted)
    (hauthorized : s'.session.authorized = s.session.authorized)
    (huser : s'.session.user = s.session.user) (hevents : s'.events = s.events) :
    Announced s₀ (Function.update (fun j => (st j).told) i t.told)
      (Function.update (fun j => (st j).emitted) i t.emitted) s' := by
  rw [htold, hemitted, update_same Tally.told, update_same Tally.emitted]
  exact h.announced.congr hauthorized huser hevents

end Same

/-- A job moves on, and nothing that is shared changes but who checks, support and counters. -/
theorem quiet (h : Balanced o s₀ log st s) (checking busy supported : Bool) (counters : List Counter)
    (he : ∀ found, i = .refreshUser → e = .inner .settings found → (st i).wrote = [] →
        found.value Key.userId = o.settings.value Key.userId) :
    Balanced o s₀ (log ++ [(i, e)]) (Function.update st i { st i with checking }) { s with
      checking := busy, session := { s.session with supported }, counters } :=
  h.move rfl (h.renewing_same rfl rfl rfl rfl) (h.storing_same rfl rfl rfl)
    (h.stocked_same rfl rfl rfl rfl rfl rfl rfl) (h.announced_same rfl rfl rfl rfl rfl) id he

/-- A call around tokens. -/
theorem auth (h : Balanced o s₀ log st s) {c : Auth.Call} {r : Auth.Reply c} {vault : Auth.Vault}
    (hallow : (st i).Allows o (.auth c)) (hr : s.vault.Replies c r vault)
    (hanswers : o.scene.Answers c r) (counters : List Counter)
    (he : ∀ found, e ≠ .inner .settings found) :
    Balanced o s₀ (log ++ [(i, e)]) (Function.update st i ((st i).after o (.auth c) r))
      { s with vault, counters } := by
  have hrenewing := h.renewing.auth (i := i) hallow.1 hr hanswers hallow.2.2
  refine h.move rfl ?_ (h.storing_same rfl rfl rfl) (h.stocked_same rfl rfl rfl rfl rfl rfl rfl)
    (h.announced_same rfl rfl rfl rfl rfl) id fun found _ heq => absurd heq (he found)
  rw [Tally.after, update_same Tally.before, update_same Tally.saved]
  exact hrenewing

/-- The settings are read. -/
theorem settings (h : Balanced o s₀ log st s) (i : Job) :
    (st i).Expects o .settings s.store.settings ∧
      Balanced o s₀ (log ++ [(i, .inner .settings s.store.settings)])
        (Function.update st i ((st i).after o .settings s.store.settings)) s := by
  have hkeys (hi : i = .refreshUser) (key : String) (hkey : key ∈ Job.refreshUser.keys) :
      s.store.settings.get? key = (o.settings.merge (st i).wrote).get? key := by
    subst hi
    exact h.storing.get?_eq hkey
  refine ⟨fun hjob key hkey => hkeys ((h.job_eq i).symm.trans hjob) key (hjob ▸ hkey),
    h.move rfl ?_ (h.storing_same rfl rfl rfl) (h.stocked_same rfl rfl rfl rfl rfl rfl rfl)
      (h.announced_same rfl rfl rfl rfl rfl) id fun found hi heq hnil => ?_⟩
  · rw [Tally.after, update_same Tally.grip, update_same Tally.saved]
    exact h.renewing.remember i
  · cases heq
    have huser := hkeys hi Key.userId List.mem_cons_self
    rw [hnil] at huser
    rw [Settings.value, Settings.value, Settings.value?, Settings.value?, huser]
    rfl

/-- A job stores what it found. -/
theorem own (h : Balanced o s₀ log st s) {changes : Entries} (howns : (st i).Owns changes)
    (hs : s.step (.apply changes) = .reply (.ok ()) s') :
    Balanced o s₀ (log ++ [(i, .inner (.apply changes) (.ok ()))])
      (Function.update st i ((st i).after o (.apply changes) (.ok ()))) s' := by
  have hmerged := Shared.merged_of_apply hs
  rw [Program.after_own howns]
  refine h.move rfl (h.renewing_same rfl rfl rfl ?_) ?_ ?_ (h.announced_same rfl rfl ?_ ?_ ?_)
    (fun hnil => absurd hnil howns.some) fun _ _ heq => by cases heq
  · rw [hmerged.rest_eq]
  · rw [update_same Tally.saved, hmerged.settings_eq]
    exact h.storing.own howns.first (h.job_eq i ▸ howns.keys)
  · rw [update_same Tally.saved, update_same Tally.key]
    refine h.stocked.apply hs ⟨i, .inl ?_⟩
    rw [Function.update_self]
    exact howns.some
  all_goals rw [hmerged.rest_eq]

/-- A job stores the renewed tokens. -/
theorem save (h : Balanced o s₀ log st s) (hsaves : (st i).Saves o o.credentials)
    (hs : s.step (.apply o.credentials) = .reply (.ok ()) s') :
    Balanced o s₀ (log ++ [(i, .inner (.apply o.credentials) (.ok ()))])
      (Function.update st i ((st i).after o (.apply o.credentials) (.ok ()))) s' := by
  obtain ⟨b, hb, hne⟩ := hsaves.differs
  have hmerged := Shared.merged_of_apply hs
  rw [Program.after_credentials]
  refine h.move rfl ?_ ?_ ?_ (h.announced_same rfl rfl ?_ ?_ ?_) id fun _ _ heq => by cases heq
  · rw [update_same Tally.grip, update_same Tally.before, hmerged.rest_eq]
    exact h.renewing.save hb hne
  · rw [update_same Tally.wrote, hmerged.settings_eq]
    exact h.storing.save i
  · rw [update_same Tally.wrote, update_same Tally.key]
    refine h.stocked.apply hs ⟨i, .inr ?_⟩
    rw [Function.update_self]
  all_goals rw [hmerged.rest_eq]

/-- The job for the claim stores a key. -/
theorem storeKey (h : Balanced o s₀ log st s) {text : String} {r : Except License.KeyError Unit}
    (hallow : (st i).Allows o (.storeKey text)) (hs : s.step (.storeKey text) = .reply r s') :
    Balanced o s₀ (log ++ [(i, .inner (.storeKey text) r)])
      (Function.update st i ((st i).after o (.storeKey text) r)) s' := by
  obtain ⟨-, -, hjob, hwrote, hkey⟩ := hallow
  obtain rfl : i = .refreshSupport := (h.job_eq i).symm.trans hjob
  have hrest := Shared.rest_eq_of_storeKey hs
  refine h.move rfl (h.renewing_same rfl rfl rfl ?_) (h.storing_same rfl rfl ?_) ?_
    (h.announced_same rfl rfl ?_ ?_ ?_) id fun _ hi => absurd hi (by decide)
  · rw [hrest]
  · rw [hrest]
  · rw [Tally.after, update_same Tally.wrote, update_same Tally.saved]
    exact h.stocked.storeKey hkey ⟨_, .inl hwrote⟩ hs
  all_goals rw [hrest]

/-- The session is told of the user. -/
theorem tell (h : Balanced o s₀ log st s) {authorized : Bool} {user : User}
    (hallow : (st i).Allows o (.setUser authorized user)) :
    Balanced o s₀ (log ++ [(i, .inner (.setUser authorized user) ())])
      (Function.update st i ((st i).after o (.setUser authorized user) ()))
      { s with session := { s.session with authorized, user } } := by
  obtain rfl : i = .refreshUser := (h.job_eq i).symm.trans hallow.2
  refine h.move rfl (h.renewing_same rfl rfl rfl rfl) (h.storing_same rfl rfl rfl)
    (h.stocked_same rfl rfl rfl rfl rfl rfl rfl) ?_ id fun _ _ heq => by cases heq
  rw [Tally.after, update_same Tally.emitted]
  exact h.announced.tell authorized user

/-- Observers are told. -/
theorem emit (h : Balanced o s₀ log st s) (i : Job) (event : Event) :
    Balanced o s₀ (log ++ [(i, .inner (.emit event) ())])
      (Function.update st i ((st i).after o (.emit event) ()))
      { s with events := s.events ++ [event] } := by
  refine h.move rfl (h.renewing_same rfl rfl rfl rfl) (h.storing_same rfl rfl rfl)
    (h.stocked_same rfl rfl rfl rfl rfl rfl rfl) ?_ id fun _ _ heq => by cases heq
  rw [Tally.after, update_same Tally.told]
  exact h.announced.emit i event

end Balanced

/-- A call that is answered from outside is one for the time or for a request. -/
theorem replies_of_outside {s v : Shared} {c : Auth.Call} (hs : v.step (.auth c) = .outside)
    (r : Auth.Reply c) : s.vault.Replies c r s.vault := by
  cases c with
  | clock => exact .inr ⟨rfl, rfl⟩
  | send o => exact .inr ⟨rfl, rfl⟩
  | acquire id =>
    by_cases hheld : id ∈ v.vault.held <;> simp [Shared.step, Auth.Vault.step, hheld] at hs
  | _ => simp [Shared.step, Auth.Vault.step] at hs

section Keeping

variable {o : Occasion} {s₀ : Shared}

/-- The replies of surroundings that stay as they are. -/
def Occasion.Answers (o : Occasion) (_ : Trace interface Job) (_ : Shared)
    (e : Job × AccountGate.Event interface) : Prop :=
  ∀ x, e.2.reply? = some x → Fixed o.license o.now o.answer x.call x.reply

theorem Occasion.answers_auth {c : Auth.Call} {r : Auth.Reply c}
    (h : Fixed o.license o.now o.answer (.auth c) r) : o.scene.Answers c r := by
  cases c with
  | clock => exact h
  | send request => exact h
  | _ => trivial

/-- One strategy serves all addresses of the account, or none does. -/
def Occasion.Serves (o : Occasion) (v : Auth.Vault) : Prop :=
  ∀ url ∈ o.urls, v.registry.find? url = o.found

/-- Every step of a job leaves what is shared as the tallies say. -/
theorem Balanced.inner (hserves : o.Serves s₀.vault) {log : Trace interface Job} {st : Job → Tally}
    {s s' : Shared} {i : Job} {c : Call} {r : Reply c} (h : Balanced o s₀ log st s)
    (hallow : (st i).Allows o c) (hs : s.step c = .reply r s')
    (hfixed : Fixed o.license o.now o.answer c r) :
    (st i).Expects o c r ∧ Balanced o s₀ (log ++ [(i, .inner c r)])
      (Function.update st i ((st i).after o c r)) s' := by
  cases c with
  | auth c =>
    obtain ⟨hr, hrest⟩ := replies_of_auth hs
    have hanswers := Occasion.answers_auth hfixed
    rw [hrest]
    exact ⟨h.renewing.tended.expects hserves hallow.1 hr hanswers,
      h.auth hallow hr hanswers _ (by simp)⟩
  | settings =>
    obtain ⟨rfl, rfl⟩ := Outcome.reply.inj hs
    exact h.settings i
  | license =>
    obtain ⟨-, rfl⟩ := Outcome.reply.inj hs
    exact ⟨hfixed, h.quiet _ _ _ _ fun _ _ heq => by cases heq⟩
  | apply changes =>
    obtain rfl : r = .ok () := hfixed
    refine ⟨rfl, ?_⟩
    rcases hallow.2.2 with howns | hsaves
    · exact h.own howns hs
    · obtain rfl := hsaves.changes_eq
      exact h.save hsaves hs
  | storeKey text => exact ⟨trivial, h.storeKey hallow hs⟩
  | setUser authorized user =>
    obtain ⟨-, rfl⟩ := Outcome.reply.inj hs
    exact ⟨trivial, h.tell hallow⟩
  | emit event =>
    obtain ⟨-, rfl⟩ := Outcome.reply.inj hs
    exact ⟨trivial, h.emit i event⟩
  | loadKey =>
    obtain ⟨-, rfl⟩ := Outcome.reply.inj hs
    exact ⟨trivial, h.quiet _ _ _ _ fun _ _ heq => by cases heq⟩
  | setSupported supported =>
    obtain ⟨-, rfl⟩ := Outcome.reply.inj hs
    exact ⟨trivial, h.quiet _ _ _ _ fun _ _ heq => by cases heq⟩
  | enterCheck =>
    simp only [Shared.step] at hs
    split at hs
    · exact absurd hs (by simp)
    · obtain ⟨-, rfl⟩ := Outcome.reply.inj hs
      exact ⟨trivial, h.quiet _ _ _ _ fun _ _ heq => by cases heq⟩
  | leaveCheck =>
    obtain ⟨-, rfl⟩ := Outcome.reply.inj hs
    exact ⟨trivial, h.quiet _ _ _ _ fun _ _ heq => by cases heq⟩
  | _ => exact hallow.elim

theorem keeps_balanced (hserves : o.Serves s₀.vault) :
    (tally o).Keeps Shared.step o.Answers (Balanced o s₀) where
  inner h hallow hs hfair := h.inner hserves hallow hs (hfair _ rfl)
  asked h _ _ := { h with
    seen := fun hnil found hmem => by
      rcases List.mem_append.mp hmem with hmem | hmem
      · exact h.seen hnil found hmem
      · cases (Prod.mk.inj (List.mem_singleton.mp hmem)).2 }
  answered {log st s i c r} h hallow houtside hfair := by
    obtain ⟨v, hv⟩ := houtside
    cases c with
    | auth c =>
      have hanswers := Occasion.answers_auth (hfair _ rfl)
      have hr := replies_of_outside (s := s) hv r
      exact ⟨h.renewing.tended.expects hserves hallow.1 hr hanswers,
        h.auth hallow hr hanswers _ (by simp)⟩
    | enterCheck =>
      simp only [Shared.step] at hv
      split at hv <;> simp at hv
    | storeKey text =>
      rw [Shared.step_storeKey] at hv
      exact absurd hv (by simp)
    | random _ => exact hallow.elim
    | listen _ => exact hallow.elim
    | awaitRedirect _ _ => exact hallow.elim
    | openBrowser _ => exact hallow.elim
    | spawn _ => exact hallow.elim
    | join _ => exact hallow.elim
    | _ => exact absurd hv (by simp [Shared.step])

end Keeping

end AccountGate.Account
