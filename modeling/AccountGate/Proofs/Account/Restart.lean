import AccountGate.Proofs.Account.Authorized
import AccountGate.Proofs.Account.Filing
import AccountGate.Proofs.Account.OwnSessions
import AccountGate.Proofs.Account.SoundTokens
import AccountGate.Proofs.Account.Stored

/-!
An account that is taken up again after a restart. Main statement: a session of the account that is
not over, once it is stored, is restored from the file with all its properties and under each origin,
and without a request; and nothing is taken up exactly where no user is stored.
-/

namespace AccountGate.Account

open AccountGate.Flow (Alone alone_ask_of_reply alone_ask_of_outside alone_done_iff alone_bind_iff)

/-- The properties of a strategy that is in use. -/
def Shared.propertiesOf (s : Shared) : Auth.Handle → Auth.Properties
  | .basic _ encoded => (Auth.Strategy.basic encoded).properties
  | .bearer id clientId tokenServer =>
    Auth.Bearer.properties ⟨clientId, tokenServer, s.vault.tokensOf id⟩

theorem credentials_of_find? {cfg : Config} {s : Shared} {handle : Auth.Handle}
    (h : s.vault.registry.find? cfg.apiEndpoint = some handle) :
    s.credentials cfg = s.propertiesOf handle := by
  rw [Shared.credentials, h]
  cases handle <;> rfl

section Stored

variable {cfg : Config} {tokens : Auth.Tokens}

theorem toString_ne_empty {n : Int} (h : Decimal.fits64 n = true) : toString n ≠ "" := by
  intro hempty
  have hread := Decimal.readInt64?_toString h
  have hnone : Decimal.readInt64? "" = none := by decide
  exact absurd (hnone.symm.trans (hempty ▸ hread)) (by simp)

/-- What is read back of a strategy: its tokens and their lifetime, for the account. -/
def readFrom (cfg : Config) (tokens : Auth.Tokens) : Auth.Credentials where
  clientId := cfg.clientId
  tokenServer := cfg.tokenEndpoint
  accessToken := tokens.access.value
  refreshToken := tokens.refresh.value
  expiresIn := tokens.expiresIn

/-- Tokens that are not over and have been stored are read back. -/
theorem storedCredentials_of_changes (hsound : tokens.IsSound) (hlive : tokens.status ≠ .expired)
    (clientId tokenServer : String) (stored : Settings) :
    Program.storedCredentials cfg (stored.merge (Program.credentialChanges
      (Auth.Bearer.properties ⟨clientId, tokenServer, tokens⟩))) = some (readFrom cfg tokens) := by
  generalize hproperties : Auth.Bearer.properties ⟨clientId, tokenServer, tokens⟩ = properties
  have hchanges : Program.credentialChanges properties = [(Key.accessToken, tokens.access.value),
      (Key.updateToken, tokens.refresh.value), (Key.expiresIn, toString tokens.expiresIn)] := by
    rw [← hproperties]
    rfl
  have hget {key text : String} (hmem : (key, text) ∈ Program.credentialChanges properties) :=
    get?_credentialChanges hmem stored
  have haccess := Settings.value?_of_ne (hget (by rw [hchanges]; exact .head _))
    (hsound.access_ne hlive)
  have hrefresh := Settings.value_of_get? (hget (by rw [hchanges]; exact .tail _ (.head _)))
  have hlifetime := Settings.value?_of_ne (hget (by rw [hchanges]; exact .tail _ (.tail _ (.head _))))
    (toString_ne_empty hsound.fits)
  rw [Program.storedCredentials, haccess, hrefresh, hlifetime, Option.bind_some,
    Decimal.readInt64?_toString hsound.fits]
  rfl

end Stored

section Runs

variable {cfg : Config} {s t : Shared} {c : Auth.Credentials} {stored : Settings}
  {xs : List (Exchange interface)} {result : Except Error Bool}

/-- A session that is taken up is one of the stored user; only the clock is read for it. -/
theorem alone_takeUp (h : Alone Shared.step (Program.takeUp stored).run s xs result t) :
    (∃ clock, xs = [⟨.auth .clock, clock⟩]) ∧ result = .ok true ∧ t.vault = s.vault ∧
      t.store = s.store ∧ t.session.authorized = true ∧ t.session.user = .ofSettings stored := by
  rw [Program.run_takeUp] at h
  obtain ⟨first, second, status, u, rfl, hcheck, hset⟩ := alone_bind_iff.mp h
  obtain ⟨clock, rfl, -⟩ := alone_check hcheck
  obtain ⟨hvault, hstore⟩ := solo_aloof (Program.makes_check _) hcheck.solo
  rw [alone_ask_of_reply rfl] at hset
  obtain ⟨rfl, rfl, rfl⟩ := alone_done_iff.mp hset
  exact ⟨⟨clock, rfl⟩, rfl, hvault, hstore, rfl, rfl⟩

theorem exists_alone_takeUp (stored : Settings) (s : Shared) (clock : Int) :
    ∃ t, Alone Shared.step (Program.takeUp stored).run s [⟨.auth .clock, clock⟩] (.ok true) t := by
  obtain ⟨u, hcheck⟩ := exists_alone_check s (SupportClaim.ofSettings stored) clock
  rw [Program.run_takeUp]
  exact ⟨_, hcheck.bind (.inner rfl (.done _ _))⟩

/-- Where no user is stored, nothing is done. -/
theorem alone_loadSession_of_nobody (h : s.store.settings.value Key.userId = "") :
    Alone Shared.step (Program.loadSession cfg).run s xs result t ↔
      xs = [] ∧ result = .ok false ∧ t = s := by
  rw [Program.run_loadSession, alone_ask_of_reply rfl]
  rw [if_pos (Settings.isNone_value?_iff.mpr h), alone_done_iff]
  simp only [eq_comm]

theorem alone_loadSession_of_bare (huser : s.store.settings.value Key.userId ≠ "")
    (hnone : Program.storedCredentials cfg s.store.settings = none) :
    Alone Shared.step (Program.loadSession cfg).run s xs result t ↔
      Alone Shared.step (Program.takeUp s.store.settings).run s xs result t := by
  rw [Program.run_loadSession, alone_ask_of_reply rfl]
  rw [if_neg (mt Settings.isNone_value?_iff.mp huser), hnone]

theorem alone_loadSession_of_fault (huser : s.store.settings.value Key.userId ≠ "")
    (hc : Program.storedCredentials cfg s.store.settings = some c) {e : Auth.Error}
    (hfault : Auth.Registry.fault? cfg.origins = some e) :
    Alone Shared.step (Program.loadSession cfg).run s xs result t ↔
      xs = [] ∧ result = .error (.auth e) ∧ t = s := by
  rw [Program.run_loadSession, alone_ask_of_reply rfl]
  rw [if_neg (mt Settings.isNone_value?_iff.mp huser), hc]
  dsimp only
  rw [Program.run_registerSession, hfault]
  refine alone_done_iff.trans ?_
  simp only [eq_comm]

/-- Stored credentials are registered, and then the session is taken up. -/
theorem alone_loadSession_of_stored (huser : s.store.settings.value Key.userId ≠ "")
    (hc : Program.storedCredentials cfg s.store.settings = some c)
    (hsound : Auth.Registry.fault? cfg.origins = none) :
    Alone Shared.step (Program.loadSession cfg).run s xs result t ↔
      Alone Shared.step (Program.takeUp s.store.settings).run (s.registered cfg c) xs result t := by
  rw [Program.run_loadSession, alone_ask_of_reply rfl]
  rw [if_neg (mt Settings.isNone_value?_iff.mp huser), hc]
  dsimp only
  rw [Program.run_registerSession, hsound]
  exact (alone_ask_of_reply rfl).trans (alone_ask_of_reply rfl)

theorem registry_registered (h : s.vault.registry = []) : (s.registered cfg c).vault.registry =
    cfg.origins.eraseDups.map fun start =>
      ⟨start, .bearer s.vault.created c.clientId c.tokenServer⟩ := by
  have hnodup : (Auth.Registry.starts []).Nodup := List.nodup_nil
  change s.vault.registry.enrol _ _ = _
  rw [h, Auth.Registry.enrol_eq hnodup]
  simp [Auth.Registry.enrolled, Auth.Registry.fresh, Auth.Registry.starts]

theorem propertiesOf_registered : (s.registered cfg c).propertiesOf
    (.bearer s.vault.created c.clientId c.tokenServer) = (Auth.Bearer.ofCredentials c).properties := by
  rw [Shared.propertiesOf, tokensOf_registered, if_pos rfl]
  rfl

/-- A run has taken up a user and a strategy that has these properties. The strategy is registered
for each origin, in the order in which the account has them, and nothing else is. -/
structure Restores (cfg : Config) (properties : Auth.Properties) (stored : Settings)
    (xs : List (Exchange interface)) (result : Except Error Bool) (t : Shared) : Prop where
  found : result = .ok true
  offline : ∃ clock, xs = [⟨.auth .clock, clock⟩]
  registered : ∃ handle, t.vault.registry = cfg.origins.eraseDups.map (⟨·, handle⟩) ∧
    t.propertiesOf handle = properties
  authorized : t.session.authorized = true
  user_eq : t.session.user = .ofSettings stored

/-- Stored credentials are restored where nothing is registered yet. -/
theorem restores_of_stored (hempty : s.vault.registry = [])
    (huser : s.store.settings.value Key.userId ≠ "")
    (hc : Program.storedCredentials cfg s.store.settings = some c)
    (hsound : Auth.Registry.fault? cfg.origins = none)
    (h : Alone Shared.step (Program.loadSession cfg).run s xs result t) :
    Restores cfg (Auth.Bearer.ofCredentials c).properties s.store.settings xs result t := by
  rw [alone_loadSession_of_stored huser hc hsound] at h
  obtain ⟨hclock, hresult, hvault, -, hauthorized, hid⟩ := alone_takeUp h
  refine ⟨hresult, hclock, ⟨.bearer s.vault.created c.clientId c.tokenServer, ?_, ?_⟩,
    hauthorized, hid⟩
  · rw [hvault]
    exact registry_registered hempty
  · rw [Shared.propertiesOf, hvault]
    exact propertiesOf_registered

theorem exists_restoring (huser : s.store.settings.value Key.userId ≠ "")
    (hc : Program.storedCredentials cfg s.store.settings = some c)
    (hsound : Auth.Registry.fault? cfg.origins = none) (clock : Int) :
    ∃ t, Alone Shared.step (Program.loadSession cfg).run s [⟨.auth .clock, clock⟩] (.ok true) t := by
  obtain ⟨t, ht⟩ := exists_alone_takeUp s.store.settings (s.registered cfg c) clock
  exact ⟨t, (alone_loadSession_of_stored huser hc hsound).mpr ht⟩

/-- Whoever reads this file and has nothing registered takes up the account with a strategy that has
these properties. -/
structure Restorable (cfg : Config) (properties : Auth.Properties) (g : SettingsFile) : Prop where
  restores : ∀ s : Shared, s.vault.registry = [] → s.store = .file g → ∀ xs result t,
    Alone Shared.step (Program.loadSession cfg).run s xs result t →
      Restores cfg properties g.memory xs result t
  ends : ∀ s : Shared, s.vault.registry = [] → s.store = .file g → ∀ clock, ∃ t,
    Alone Shared.step (Program.loadSession cfg).run s [⟨.auth .clock, clock⟩] (.ok true) t

theorem restorable_of_stored {g : SettingsFile} (huser : g.memory.value Key.userId ≠ "")
    (hc : Program.storedCredentials cfg g.memory = some c)
    (hsound : Auth.Registry.fault? cfg.origins = none) :
    Restorable cfg (Auth.Bearer.ofCredentials c).properties g where
  restores s hempty hfile xs result t hrun := by
    have hsettings : s.store.settings = g.memory := by rw [hfile, SettingsStore.settings]
    rw [← hsettings] at huser hc ⊢
    exact restores_of_stored hempty huser hc hsound hrun
  ends s _ hfile clock := by
    have hsettings : s.store.settings = g.memory := by rw [hfile, SettingsStore.settings]
    rw [← hsettings] at huser hc
    exact exists_restoring huser hc hsound clock

/-- Nothing is taken up exactly where no user is stored, and then nothing has changed. -/
theorem loadSession_false_iff (h : Alone Shared.step (Program.loadSession cfg).run s xs result t) :
    (result = .ok false ↔ s.store.settings.value Key.userId = "") ∧
      (result = .ok false → xs = [] ∧ t = s) := by
  by_cases huser : s.store.settings.value Key.userId = ""
  · obtain ⟨hxs, hresult, ht⟩ := (alone_loadSession_of_nobody huser).mp h
    exact ⟨iff_of_true hresult huser, fun _ => ⟨hxs, ht⟩⟩
  · have hfound : result ≠ .ok false := by
      cases hc : Program.storedCredentials cfg s.store.settings with
      | none =>
        obtain ⟨-, rfl, -⟩ := alone_takeUp ((alone_loadSession_of_bare huser hc).mp h)
        simp
      | some c =>
        cases hfault : Auth.Registry.fault? cfg.origins with
        | none =>
          obtain ⟨-, rfl, -⟩ := alone_takeUp ((alone_loadSession_of_stored huser hc hfault).mp h)
          simp
        | some e =>
          obtain ⟨-, rfl, -⟩ := (alone_loadSession_of_fault huser hc hfault).mp h
          simp
    exact ⟨iff_of_false hfound huser, fun hfalse => absurd hfalse hfound⟩

/-- Credentials that have been stored are in the file when it is read again. -/
theorem load_of_saveCredentials {f : SettingsFile} (hstore : s.store = .file f)
    (hsome : s.credentials cfg ≠ [])
    (h : Alone Shared.step (Program.saveCredentials cfg) s xs (.ok ()) t) :
    SettingsFile.load t.disk f.dir = .ok { f with
      memory := f.memory.merge (Program.credentialChanges (s.credentials cfg)) } := by
  obtain ⟨hnone, -⟩ | ⟨-, -, hs⟩ := solo_saveCredentials h.solo
  · exact absurd hnone hsome
  generalize Program.credentialChanges (s.credentials cfg) = changes at hs
  obtain ⟨hresult, rfl⟩ := Outcome.reply.inj hs
  rw [hstore] at hresult ⊢
  have happly : f.apply s.disk changes = (.ok (), _, _) := Prod.ext hresult rfl
  obtain ⟨hwrite, -⟩ := SettingsFile.apply_eq_iff.mp happly
  exact SettingsFile.load_of_look (SettingsFile.look_of_write hwrite)

end Runs

section World

variable {ι : Type} [DecidableEq ι] {cfg : Config} {actions : ι → Action} {s₀ : Shared}
  {w : World interface Shared ι Unit} {log : Trace interface ι} {handle : Auth.Handle}

/-- A session that serves the account and is not over, beside settings in a file that name a user. -/
structure Serves (cfg : Config) (handle : Auth.Handle) (f : SettingsFile) (s : Shared) : Prop where
  found : s.vault.registry.find? cfg.apiEndpoint = some handle
  live : (s.vault.tokensOf handle.id).status ≠ .expired
  store_eq : s.store = .file f
  user_ne : f.memory.value Key.userId ≠ ""

theorem exists_restorable (hs : s₀.IsSound)
    (hothers : ∀ i p spares, actions i = .other p spares → Minds p)
    (h : World.Reaches Shared.step (begun cfg actions s₀) log w) (htaken : TakenUp actions log handle)
    {f : SettingsFile} (hserves : Serves cfg handle f w.state) {saving : List (Exchange interface)}
    {u : Shared}
    (hsave : Alone Shared.step (Program.saveCredentials cfg) w.state saving (.ok ()) u) :
    ∃ g, SettingsFile.load u.disk f.dir = .ok g ∧
      g.memory = f.memory.merge (Program.credentialChanges (w.state.propertiesOf handle)) ∧
      Restorable cfg (w.state.propertiesOf handle) g := by
  obtain ⟨hfilled, id, rfl⟩ := own_of_takenUp h htaken
  have htokens := isSound_of_reaches hs hothers h id
  have hsound : Auth.Registry.fault? cfg.origins = none := by
    rw [Auth.Registry.fault?_eq, if_neg (by simp [Config.origins]), if_neg hfilled]
  have hproperties := credentials_of_find? hserves.found
  have hsome : w.state.credentials cfg ≠ [] := by
    rw [ne_eq, credentials_eq_nil_iff, hserves.found]
    simp
  have hload := load_of_saveCredentials hserves.store_eq hsome hsave
  rw [hproperties] at hload
  refine ⟨_, hload, rfl, restorable_of_stored (c := readFrom cfg (w.state.vault.tokensOf id)) ?_ ?_
    hsound⟩
  · rw [Settings.value_merge_of_notMem (notMem_credentialChanges _)]
    exact hserves.user_ne
  · exact storedCredentials_of_changes htokens hserves.live _ _ _

/-- A session that the account has registered, that serves it and is not over. Once it has been
stored, the file that is read again has it, and whoever takes up the account from there, with nothing
registered, gets back a strategy with the same properties for each origin, and the stored user,
without a request. Nothing is taken up exactly where no user is stored. -/
theorem saved_session_is_restored (cfg : Config) :
    (∀ (actions : ι → Action) (s₀ : Shared) (log : Trace interface ι)
      (w : World interface Shared ι Unit) (handle : Auth.Handle) (f : SettingsFile)
      (saving : List (Exchange interface)) (u : Shared),
      s₀.IsSound → (∀ i p spares, actions i = .other p spares → Minds p) →
      World.Reaches Shared.step (begun cfg actions s₀) log w → TakenUp actions log handle →
      Serves cfg handle f w.state →
      Alone Shared.step (Program.saveCredentials cfg) w.state saving (.ok ()) u →
      ∃ g, SettingsFile.load u.disk f.dir = .ok g ∧
        g.memory = f.memory.merge (Program.credentialChanges (w.state.propertiesOf handle)) ∧
        Restorable cfg (w.state.propertiesOf handle) g) ∧
    ∀ s : Shared,
      (∀ xs result t, Alone Shared.step (Program.loadSession cfg).run s xs result t →
        (result = .ok false ↔ s.store.settings.value Key.userId = "") ∧
          (result = .ok false → xs = [] ∧ t = s)) ∧
      (s.store.settings.value Key.userId = "" →
        Alone Shared.step (Program.loadSession cfg).run s [] (.ok false) s) := by
  refine ⟨fun actions s₀ log w handle f saving u hs hothers h htaken hserves hsave =>
    exists_restorable hs hothers h htaken hserves hsave, fun s => ⟨?_, ?_⟩⟩
  · intro xs result t hload
    exact loadSession_false_iff hload
  · intro hnobody
    exact (alone_loadSession_of_nobody hnobody).mpr ⟨rfl, rfl, rfl⟩

end World

section Sample

set_option maxRecDepth 10000

/-- An account whose tokens are stored in a file. -/
def filed : Shared := { stocked with store := .file ⟨"/cfg", stocked.store.settings⟩ }

def SettingsStore.file? : SettingsStore → Option (String × Settings)
  | .memory _ _ => none
  | .file onDisk => some (onDisk.dir, onDisk.memory)

theorem eq_of_file? {store : SettingsStore} {f : SettingsFile}
    (h : store.file? = some (f.dir, f.memory)) : store = .file f := by
  cases store with
  | memory settings fault => exact absurd h (by simp [SettingsStore.file?])
  | file onDisk =>
    obtain ⟨dir, memory⟩ := onDisk
    obtain ⟨rfl, rfl⟩ := Prod.mk.inj (Option.some.inj h)
    rfl

def sampleProperties : Auth.Properties := [("type", "bearer"), ("clientId", "id"),
  ("accessToken", "A0"), ("refreshToken", "R0"), ("tokenServer", sampleConfig.tokenEndpoint),
  ("expiresIn", "3600")]

/-- What happens until that account is taken up. -/
def untilFiledTakenUp :=
  Flow.advance Shared.step unanswered (Program.loadSession sampleConfig).run filed

/-- Stored tokens that have been taken up and are stored once more are taken up again. -/
theorem tokens_survive_restart : ∃ log w saving u g,
    World.Reaches Shared.step (begun sampleConfig (fun _ : Unit => .loadSession) filed) log w ∧
    TakenUp (fun _ : Unit => Action.loadSession) log (.bearer 0 "id" sampleConfig.tokenEndpoint) ∧
    Alone Shared.step (Program.saveCredentials sampleConfig) w.state saving (.ok ()) u ∧
    SettingsFile.load u.disk "/cfg" = .ok g ∧ Restorable sampleConfig sampleProperties g := by
  have htaken : isTakenUp untilFiledTakenUp.2.2 = true := by decide +kernel
  have hlast : lastRegistered (untilFiledTakenUp.1.map ((), ·)) =
      some (.bearer 0 "id" sampleConfig.tokenEndpoint) := by decide +kernel
  have hfound : untilFiledTakenUp.2.1.vault.registry.find? sampleConfig.apiEndpoint =
      some (.bearer 0 "id" sampleConfig.tokenEndpoint) := by decide +kernel
  have htokens : untilFiledTakenUp.2.1.vault.tokensOf 0 =
      ⟨⟨"A0"⟩, ⟨"R0"⟩, 3600, 0, .valid⟩ := by decide +kernel
  have hfile : untilFiledTakenUp.2.1.store.file? = some ("/cfg", stocked.store.settings) := by
    decide +kernel
  have hsaved : (Flow.play Shared.step Written unanswered (Program.saveCredentials sampleConfig)
      untilFiledTakenUp.2.1).map (fun y => y.1.isOk) = some true := by decide +kernel
  have hload : Flow.advance Shared.step unanswered (Program.loadSession sampleConfig).run filed =
      untilFiledTakenUp := by rw [untilFiledTakenUp]
  generalize untilFiledTakenUp = x at *
  obtain ⟨es, s, p⟩ := x
  dsimp only at *
  obtain rfl := eq_of_isTakenUp htaken
  have hstore := eq_of_file? (f := ⟨"/cfg", stocked.store.settings⟩) hfile
  have hproperties : s.propertiesOf (.bearer 0 "id" sampleConfig.tokenEndpoint) = sampleProperties := by
    rw [Shared.propertiesOf, htokens]
    decide +kernel
  obtain ⟨⟨saved, u⟩, hplay, hok⟩ := Option.map_eq_some_iff.mp hsaved
  obtain ⟨saving, hsaving, -⟩ := Flow.exists_alone_of_play hplay
  cases saved with
  | error e => exact absurd hok (by simp [Except.isOk, Except.toBool])
  | ok _ =>
    have hreach := World.reaches_of_advance
      (w := begun sampleConfig (fun _ : Unit => .loadSession) filed) (i := ()) (f := fun _ => .done ())
      hload rfl rfl
    have htakenUp : TakenUp (fun _ : Unit => Action.loadSession) _ _ :=
      takenUp_of_lastRegistered (fun _ => trivial) hlast
    have hsound : filed.IsSound := fun id => ⟨fun h => absurd rfl h, rfl⟩
    have hlive : (s.vault.tokensOf 0).status ≠ .expired := by
      rw [htokens]
      decide
    obtain ⟨hsaves, -⟩ := saved_session_is_restored (ι := Unit) sampleConfig
    obtain ⟨g, hg, -, hrestorable⟩ := hsaves _ _ _ _ _ _ _ _ hsound
      (fun _ _ _ h => absurd h (by simp)) hreach htakenUp ⟨hfound, hlive, hstore, by decide⟩ hsaving
    exact ⟨_, _, saving, u, g, hreach, htakenUp, hsaving, hg, hproperties ▸ hrestorable⟩

end Sample

end AccountGate.Account
