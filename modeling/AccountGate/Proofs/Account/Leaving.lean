import AccountGate.Proofs.Account.Enlisted
import AccountGate.Proofs.Account.Parting
import AccountGate.Proofs.Auth.Enrolment

/-!
Signing out with everything that can go wrong: the settings may not be writable, the token server
may not answer, and records may be missing or be named twice. Main statements: no start ever has two
records; and a sign-out drops all records of the account, forgets the user and tells the observers
whatever happens, and reports at the end how the write went.
-/

namespace AccountGate

namespace Auth.Registry

variable {gone : List String} {registry : Registry}

/-- The records with other starts than these. -/
def without (gone : List String) (registry : Registry) : Registry :=
  registry.filter fun r => r.start ∉ gone

theorem without_nil (registry : Registry) : without [] registry = registry := by
  simp [without]

theorem without_singleton (start : String) (registry : Registry) :
    (registry.filter fun r => r.start ≠ start) = without [start] registry := by
  simp [without]

theorem without_without (gone more : List String) (registry : Registry) :
    without more (without gone registry) = without (gone ++ more) registry := by
  rw [without, without, without, List.filter_filter]
  refine List.filter_congr fun r _ => ?_
  rw [← Bool.decide_and, decide_eq_decide, List.mem_append, not_or]
  exact and_comm

theorem nodup_starts_without (h : (starts registry).Nodup) (gone : List String) :
    (starts (without gone registry)).Nodup :=
  h.sublist (List.filter_sublist.map Record.start)

theorem nodup_starts_remove (h : (starts registry).Nodup) (start : String) :
    (starts (remove start registry).2).Nodup := by
  rw [remove_eq h, without_singleton]
  exact nodup_starts_without h [start]

end Auth.Registry

namespace Account

open AccountGate.Flow (Alone alone_ask_of_reply alone_ask_of_outside alone_bind_iff alone_done_iff)

section Distinct

/-- No call gives a start a second record. -/
theorem Shared.nodup_of_step {s s' : Shared} {c : Call} {r : Reply c}
    (h : s.vault.registry.starts.Nodup) (hs : s.step c = .reply r s') :
    s'.vault.registry.starts.Nodup := by
  rw [Shared.registry_of_step hs]
  cases c with
  | auth c =>
    cases c with
    | enrol starts handle => exact Auth.Registry.nodup_starts_enrol starts handle h
    | remove start => exact Auth.Registry.nodup_starts_remove h start
    | _ => exact h
  | _ => exact h

/-- Whatever runs beside what, no start ever has two records. -/
theorem nodup_of_reaches {ι α : Type} [DecidableEq ι] {w₀ w : World interface Shared ι α}
    {log : Trace interface ι} (h : World.Reaches Shared.step w₀ log w)
    (hstart : w₀.state.vault.registry.starts.Nodup) : w.state.vault.registry.starts.Nodup :=
  h.invariant (fun s => s.vault.registry.starts.Nodup) hstart Shared.nodup_of_step

end Distinct

/-- What is stored of one account, apart from the claim. -/
def accountKeys : List String :=
  [Key.userId, Key.firstName, Key.lastName, Key.email, Key.roles, Key.accessToken,
    Key.updateToken, Key.expiresIn]

namespace Shared

variable {s t : Shared} {log : List (Exchange interface)}

/-- Without the records for these starts. -/
def without (gone : List String) (s : Shared) : Shared :=
  { s with vault := { s.vault with registry := s.vault.registry.without gone } }

/-- The request of a sign-out: for the session of the account, if there is one and an address to
tell. -/
def revocations (cfg : Config) (s : Shared) : List Call :=
  ((Auth.revocation? s.vault cfg.apiEndpoint cfg.logoutEndpoint).map fun o =>
    Call.auth (.send o)).toList

/-- After a write to the settings, whatever came of it. -/
def applied (changes : Entries) (s : Shared) : Shared :=
  { s with
    store := (s.store.apply s.disk changes).2.1
    disk := (s.store.apply s.disk changes).2.2 }

/-- After a sign-out. -/
def departed (cfg : Config) (s : Shared) : Shared :=
  { (s.applied Program.clearedEntries).without cfg.origins with
    session := {}
    events := s.events ++ [.userInfoUpdated, .supportInfoUpdated] }

/-- Nobody holds the tokens of the session under this start, should there be one. -/
def Unheld (start : String) (s : Shared) : Prop :=
  ∀ id clientId tokenServer,
    s.vault.registry.handle? start = some (.bearer id clientId tokenServer) → id ∉ s.vault.held

theorem without_without (gone more : List String) (s : Shared) :
    (s.without gone).without more = s.without (gone ++ more) := by
  show { s with vault := { s.vault with
    registry := (s.vault.registry.without gone).without more } } = _
  rw [Auth.Registry.without_without]
  rfl

end Shared

section Runs

variable {cfg : Config} {s t : Shared} {log : List (Exchange interface)} {start : String}
  {logoutUrl : Option String} {removed : Bool} {result : Except Error Unit}

theorem alone_unregister_iff (hnodup : s.vault.registry.starts.Nodup)
    (hheld : logoutUrl.isSome → s.Unheld start) :
    Alone Shared.step (Program.ofAuth (Auth.Program.unregister start logoutUrl)) s log removed t ↔
      removed = decide (start ∈ s.vault.registry.starts) ∧ t = s.without [start] ∧
      log.map Exchange.call =
        ((Auth.revocation? s.vault start logoutUrl).map fun o => Call.auth (.send o)).toList := by
  have hgone : s.without [start] = { s with vault := { s.vault with
      registry := s.vault.registry.filter fun r => r.start ≠ start } } := by
    rw [Auth.Registry.without_singleton]
    rfl
  rw [alone_ofAuth_iff, hgone]
  simp only [Auth.alone_unregister_iff_of_nodup hnodup hheld, Auth.Unregisters]
  cases Auth.revocation? s.vault start logoutUrl with
  | none =>
    simp only [Option.map_none, Option.toList_none, List.map_eq_nil_iff]
    constructor
    · rintro ⟨_, _, ⟨hremoved, rfl, rfl⟩, rfl, rfl⟩
      exact ⟨hremoved, by simp, rfl⟩
    · rintro ⟨hremoved, rfl, rfl⟩
      exact ⟨[], _, ⟨hremoved, rfl, rfl⟩, rfl, by simp⟩
  | some o =>
    simp only [Option.map_some, Option.toList_some, List.map_eq_singleton_iff]
    constructor
    · rintro ⟨_, _, ⟨hremoved, rfl, ⟨⟨c, answer⟩, rfl, rfl⟩⟩, rfl, rfl⟩
      exact ⟨hremoved, by simp [counterOf], ⟨.auth (.send o), answer⟩, rfl, rfl⟩
    · rintro ⟨hremoved, rfl, ⟨⟨c, answer⟩, rfl, rfl⟩⟩
      exact ⟨[⟨.send o, answer⟩], _, ⟨hremoved, rfl, _, rfl, rfl⟩, rfl, by simp [counterOf]⟩

/-- The other origins go without a word to the token server. -/
theorem alone_dropOrigins_iff {origins : List String} (hnodup : s.vault.registry.starts.Nodup) :
    Alone Shared.step (Program.dropOrigins origins) s log () t ↔
      log = [] ∧ t = s.without origins := by
  induction origins generalizing s log with
  | nil =>
    have hsame : s.without [] = s := by
      rw [Shared.without, Auth.Registry.without_nil]
    rw [Program.dropOrigins, alone_done_iff, hsame, eq_comm (a := s)]
    simp
  | cons origin rest ih =>
    have hrest := s.without_without [origin] rest
    rw [Program.dropOrigins, alone_bind_iff, ← List.singleton_append, ← hrest]
    have hnodup' : (s.without [origin]).vault.registry.starts.Nodup :=
      Auth.Registry.nodup_starts_without hnodup [origin]
    have huntold : (none : Option String).isSome → s.Unheld origin := by simp
    simp only [alone_unregister_iff hnodup huntold]
    constructor
    · rintro ⟨first, second, removed, u, rfl, ⟨-, rfl, hfirst⟩, hsecond⟩
      obtain ⟨rfl, rfl⟩ := (ih hnodup').mp hsecond
      have hnil : first = [] := List.map_eq_nil_iff.mp hfirst
      exact ⟨by rw [hnil]; rfl, rfl⟩
    · rintro ⟨rfl, rfl⟩
      exact ⟨[], [], _, _, rfl, ⟨rfl, rfl, rfl⟩, (ih hnodup').mpr ⟨rfl, rfl⟩⟩

/-- Dropping the credentials sends one request at most. -/
theorem alone_dropCredentials_iff (hnodup : s.vault.registry.starts.Nodup)
    (hheld : cfg.logoutEndpoint.isSome → s.Unheld cfg.apiEndpoint) :
    Alone Shared.step (Program.dropCredentials cfg) s log () t ↔
      log.map Exchange.call = s.revocations cfg ∧ t = s.without cfg.origins := by
  have hrest := s.without_without [cfg.apiEndpoint] cfg.extraOrigins
  have hnodup' : (s.without [cfg.apiEndpoint]).vault.registry.starts.Nodup :=
    Auth.Registry.nodup_starts_without hnodup [cfg.apiEndpoint]
  rw [Program.dropCredentials_eq, alone_bind_iff, Config.origins, ← List.singleton_append, ← hrest]
  simp only [alone_unregister_iff hnodup hheld]
  constructor
  · rintro ⟨first, second, removed, u, rfl, ⟨-, rfl, hfirst⟩, hsecond⟩
    obtain ⟨rfl, rfl⟩ := (alone_dropOrigins_iff hnodup').mp hsecond
    rw [List.append_nil]
    exact ⟨hfirst, rfl⟩
  · rintro ⟨hlog, rfl⟩
    exact ⟨log, [], _, _, (List.append_nil log).symm, ⟨rfl, rfl, hlog⟩,
      (alone_dropOrigins_iff hnodup').mpr ⟨rfl, rfl⟩⟩

/-- A sign-out goes through whatever the write came to, and reports it. -/
theorem alone_logout_iff (hnodup : s.vault.registry.starts.Nodup)
    (hheld : cfg.logoutEndpoint.isSome → s.Unheld cfg.apiEndpoint) :
    Alone Shared.step (Program.logout cfg) s log result t ↔
      result = (s.store.apply s.disk Program.clearedEntries).1 ∧
      log.map Exchange.call = s.revocations cfg ∧ t = s.departed cfg := by
  have happly : s.step (.apply Program.clearedEntries) =
      .reply (s.store.apply s.disk Program.clearedEntries).1
        (s.applied Program.clearedEntries) := rfl
  have hdrop {first : List (Exchange interface)} {u : Shared} :
      Alone Shared.step (Program.dropCredentials cfg) (s.applied Program.clearedEntries) first () u ↔
        first.map Exchange.call = s.revocations cfg ∧
          u = (s.applied Program.clearedEntries).without cfg.origins :=
    alone_dropCredentials_iff hnodup hheld
  have hlast : { (s.applied Program.clearedEntries).without cfg.origins with
      session := {}
      events := s.events ++ [Event.userInfoUpdated] ++ [Event.supportInfoUpdated] } =
      s.departed cfg := by
    rw [List.append_assoc]
    rfl
  rw [Program.logout_eq, alone_ask_of_reply happly, alone_bind_iff]
  constructor
  · rintro ⟨first, second, ⟨⟩, u, rfl, hfirst, hsecond⟩
    obtain ⟨hlog, rfl⟩ := hdrop.mp hfirst
    rw [alone_ask_of_reply rfl, alone_ask_of_reply rfl, alone_ask_of_reply rfl,
      alone_done_iff] at hsecond
    obtain ⟨rfl, rfl, rfl⟩ := hsecond
    rw [List.append_nil]
    exact ⟨rfl, hlog, hlast⟩
  · rintro ⟨rfl, hlog, rfl⟩
    refine ⟨log, [], (), _, (List.append_nil log).symm, hdrop.mpr ⟨hlog, rfl⟩, ?_⟩
    rw [alone_ask_of_reply rfl, alone_ask_of_reply rfl, alone_ask_of_reply rfl, alone_done_iff]
    exact ⟨rfl, rfl, hlast⟩

/-- Whatever the token server answers, there is a sign-out in which it does. -/
theorem exists_logout (hnodup : s.vault.registry.starts.Nodup)
    (hheld : cfg.logoutEndpoint.isSome → s.Unheld cfg.apiEndpoint) (answer : Answer) :
    ∃ log result t, Alone Shared.step (Program.logout cfg) s log result t ∧
      ∀ o reply, ⟨.auth (.send o), reply⟩ ∈ log → reply = answer := by
  cases hsent : Auth.revocation? s.vault cfg.apiEndpoint cfg.logoutEndpoint with
  | none =>
    refine ⟨[], _, _, (alone_logout_iff hnodup hheld).mpr ⟨rfl, ?_, rfl⟩, by simp⟩
    rw [Shared.revocations, hsent]
    rfl
  | some o =>
    refine ⟨[⟨.auth (.send o), answer⟩], _, _,
      (alone_logout_iff hnodup hheld).mpr ⟨rfl, ?_, rfl⟩, fun o' reply hmem => ?_⟩
    · rw [Shared.revocations, hsent]
      rfl
    · cases List.mem_singleton.mp hmem
      rfl

/-- Whoever has signed out with an address to tell has had the tokens. -/
theorem unheld_of_alone_logout (hnodup : s.vault.registry.starts.Nodup)
    (h : Alone Shared.step (Program.logout cfg) s log result t) (htold : cfg.logoutEndpoint.isSome) :
    s.Unheld cfg.apiEndpoint := by
  intro id clientId tokenServer hfound
  obtain ⟨url, hurl⟩ := Option.isSome_iff_exists.mp htold
  have happly : s.step (.apply Program.clearedEntries) =
      .reply (s.store.apply s.disk Program.clearedEntries).1
        (s.applied Program.clearedEntries) := rfl
  rw [Program.logout_eq, alone_ask_of_reply happly, Program.dropCredentials_eq, hurl,
    alone_bind_iff] at h
  obtain ⟨_, _, _, _, -, hdrop, -⟩ := h
  obtain ⟨_, _, _, _, -, hfirst, -⟩ := alone_bind_iff.mp hdrop
  obtain ⟨inner, v, hinner, -, -⟩ := alone_ofAuth_iff.mp hfirst
  exact Auth.notMem_held_of_alone_unregister hnodup hfound hinner

/-- What a sign-out has come to. -/
structure Leaves (cfg : Config) (s : Shared) (log : List (Exchange interface))
    (result : Except Error Unit) (t : Shared) : Prop where
  registry_eq : t.vault.registry = s.vault.registry.filter fun r => r.start ∉ cfg.origins
  session_eq : t.session = {}
  events_eq : t.events = s.events ++ [.userInfoUpdated, .supportInfoUpdated]
  /-- The token server is told where there is an address and a session in charge of the API. -/
  told : ∀ url id clientId tokenServer, cfg.logoutEndpoint = some url →
    s.vault.registry.handle? cfg.apiEndpoint = some (.bearer id clientId tokenServer) →
    ∃ answer, log = [⟨.auth (.send
      (Auth.revokeRequest url clientId (s.vault.tokensOf id).refresh.value)), answer⟩]
  silent : (∀ url id clientId tokenServer, cfg.logoutEndpoint = some url →
    s.vault.registry.handle? cfg.apiEndpoint ≠ some (.bearer id clientId tokenServer)) → log = []
  result_eq : result = (s.store.apply s.disk Program.clearedEntries).1
  cleared : result = .ok () → ∀ key, t.store.settings.get? key =
    if key ∈ accountKeys then some "" else s.store.settings.get? key

theorem get?_merge_cleared (stored : Settings) (key : String) :
    (stored.merge Program.clearedEntries).get? key =
      if key ∈ accountKeys then some "" else stored.get? key := by
  split
  · next hkey => exact Settings.get?_merge_fill "" hkey stored
  · next hkey =>
    refine Settings.get?_merge_of_notMem ?_ stored
    have hkeys : Program.clearedEntries.map Prod.fst = accountKeys := rfl
    rwa [hkeys]

theorem leaves_of_departed (hlog : log.map Exchange.call = s.revocations cfg) :
    Leaves cfg s log (s.store.apply s.disk Program.clearedEntries).1 (s.departed cfg) := by
  refine ⟨rfl, rfl, rfl, ?_, ?_, rfl, fun hok key => ?_⟩
  · intro url id clientId tokenServer hurl hfound
    have hsent : Auth.revocation? s.vault cfg.apiEndpoint cfg.logoutEndpoint =
        some (Auth.revokeRequest url clientId (s.vault.tokensOf id).refresh.value) := by
      simp only [Auth.revocation?, hurl, hfound]
    rw [Shared.revocations, hsent] at hlog
    obtain ⟨⟨c, answer⟩, rfl, rfl⟩ := List.map_eq_singleton_iff.mp hlog
    exact ⟨answer, rfl⟩
  · intro hnone
    have hquiet : Auth.revocation? s.vault cfg.apiEndpoint cfg.logoutEndpoint = none := by
      unfold Auth.revocation?
      split
      · next url id clientId tokenServer hurl hfound =>
        exact absurd hfound (hnone url id clientId tokenServer hurl)
      · rfl
    rw [Shared.revocations, hquiet] at hlog
    exact List.map_eq_nil_iff.mp hlog
  · have hstep : s.step (.apply Program.clearedEntries) =
        .reply (.ok ()) (s.applied Program.clearedEntries) := by
      rw [← hok]
      rfl
    have hsettings : (s.departed cfg).store.settings =
        s.store.settings.merge Program.clearedEntries := (Shared.merged_of_apply hstep).settings_eq
    rw [hsettings, get?_merge_cleared]

/-- A sign-out from any state that a run has come to, whatever the write to the settings comes to and
the token server answers. No record of the account is left and all others stay in their order,
nobody is signed in, the observers are told twice, and one request at most has gone out. The result
is that of the write; where it went well, the stored account is blank and all else is as it was. And
the sign-out does end, whatever the answer, unless somebody holds the tokens that it has to send. -/
theorem sign_out_completes {ι α : Type} [DecidableEq ι] {w₀ w : World interface Shared ι α}
    {earlier : Trace interface ι} (hstart : w₀.state.vault.registry.starts.Nodup)
    (hreach : World.Reaches Shared.step w₀ earlier w) (cfg : Config) :
    (∀ log result t, Alone Shared.step (Program.logout cfg) w.state log result t →
      Leaves cfg w.state log result t) ∧
    ((cfg.logoutEndpoint.isSome → w.state.Unheld cfg.apiEndpoint) → ∀ answer : Answer,
      ∃ log result t, Alone Shared.step (Program.logout cfg) w.state log result t ∧
        ∀ o reply, ⟨.auth (.send o), reply⟩ ∈ log → reply = answer) := by
  have hnodup := nodup_of_reaches hreach hstart
  refine ⟨fun log result t hrun => ?_, fun hheld => exists_logout hnodup hheld⟩
  obtain ⟨rfl, hlog, rfl⟩ :=
    (alone_logout_iff hnodup (unheld_of_alone_logout hnodup hrun)).mp hrun
  exact leaves_of_departed hlog

end Runs

section Sample

/-- An account with an address to tell, and with origins that are named twice. -/
def leavingConfig : Config where
  clientId := "abc"
  apiEndpoint := "https://a.io"
  logoutEndpoint := some "https://a.io/logout"
  extraOrigins := ["https://b.io", "https://b.io", "https://a.io"]

/-- A session in charge of the account, a password between its records, and settings that cannot be
written. -/
def unwritable : Shared :=
  { sample with
    store := .memory (.ofEntries [(Key.userId, "u1")]) (some "disk full")
    vault := {
      registry := [⟨"https://a.io", .bearer 0 "abc" "https://a.io/token"⟩,
        ⟨"https://c.io", .basic 1 ⟨"dTpw"⟩⟩, ⟨"https://b.io", .bearer 0 "abc" "https://a.io/token"⟩]
      tokens := [(0, ⟨⟨"A1"⟩, ⟨"R1"⟩, 3600, 0, .valid⟩)]
      created := 2 } }

/-- The settings are not written and the token server does not answer: the account is left all the
same. -/
theorem sign_out_completes_on_full_disk :
    unwritable.vault.registry.starts.Nodup ∧
    ∃ t, Alone Shared.step (Program.logout leavingConfig) unwritable
        [⟨.auth (.send (Auth.revokeRequest "https://a.io/logout" "abc" "R1")), .error (.timeout "")⟩]
        (.error (.settings "disk full")) t ∧
      t.vault.registry.starts = ["https://c.io"] ∧ t.session = {} := by
  have hnodup : unwritable.vault.registry.starts.Nodup := by decide
  have hunheld : unwritable.Unheld leavingConfig.apiEndpoint := fun _ _ _ _ => List.not_mem_nil
  have hstart : World.Reaches Shared.step
    (begun leavingConfig (fun _ : Unit => .logout) unwritable) [] _ := .start
  obtain ⟨hleaves, hends⟩ := sign_out_completes hnodup hstart leavingConfig
  obtain ⟨log, result, t, hrun, hanswer⟩ := hends (fun _ => hunheld) (.error (.timeout ""))
  have hleft := hleaves log result t hrun
  obtain ⟨answer, rfl⟩ := hleft.told "https://a.io/logout" 0 "abc" "https://a.io/token" rfl
    (by decide)
  obtain rfl := hanswer _ answer List.mem_cons_self
  obtain rfl : result = .error (.settings "disk full") := hleft.result_eq
  refine ⟨hnodup, t, hrun, ?_, hleft.session_eq⟩
  rw [hleft.registry_eq]
  decide

end Sample

end Account

end AccountGate
