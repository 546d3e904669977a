import AccountGate.Proofs.Account.Parting
import AccountGate.Proofs.Account.SignIn

/-!
Which tokens are stored. Main statement: after any jobs and questions for headers, one after the
other, the stored tokens are those that were in use when a job last found others than it had begun
with.
-/

namespace AccountGate.Account

open AccountGate.Flow (Solo Makes makes_done)

/-- Settings are stored whenever they are to be. -/
def Written : (c : Call) → Reply c → Prop
  | .apply _, stored => stored = .ok ()
  | _, _ => True

instance (c : Call) (r : Reply c) : Decidable (Written c r) := by
  cases c with
  | apply changes => exact inferInstanceAs (Decidable ((r : Except Error Unit) = .ok ()))
  | _ => exact .isTrue trivial

/-- A call that changes neither the registry nor the stored tokens. -/
def Call.Tends : Call → Prop
  | .auth c => c.IsOutward
  | .apply changes => ∀ key ∈ tokenKeys, key ∉ changes.map Prod.fst
  | _ => True

/-- A call that leaves the session as it is. -/
def Call.SparesSession : Call → Prop
  | .setSession _ => False
  | .setUser _ _ => False
  | .setSupported _ => False
  | _ => True

/-- A call that changes neither registry nor stored tokens nor session. -/
structure Call.Fetches (c : Call) : Prop where
  tends : c.Tends
  spares : c.SparesSession

/-- A call that neither sends anything nor puts any tokens. -/
def Call.IsTame : Call → Prop
  | .auth (.send _) => False
  | .auth (.create _) => False
  | .auth (.update _ _) => False
  | _ => True

/-- A call that touches neither credentials nor settings nor the key. -/
def Call.IsAloof : Call → Prop
  | .auth c => c.isOuter = true
  | .apply _ => False
  | .storeKey _ => False
  | _ => True

theorem Call.IsBrowsing.tends {c : Call} (h : c.IsBrowsing) : c.Tends := by
  cases c with
  | auth c => exact h.elim
  | apply changes => exact h.elim
  | _ => trivial

theorem Call.IsBrowsing.isTame {c : Call} (h : c.IsBrowsing) : c.IsTame := by
  cases c with
  | auth c => exact h.elim
  | _ => trivial

theorem Call.IsAloof.tends {c : Call} (h : c.IsAloof) : c.Tends := by
  cases c with
  | auth c => cases c <;> trivial
  | apply changes => exact h.elim
  | _ => trivial

namespace Program

variable {α : Type} {cfg : Config}

theorem makes_ofAuth_of {Q : Call → Prop} (hauth : ∀ c, Q (.auth c)) (p : Auth.Program α) :
    Makes Q (ofAuth p) := by
  induction p with
  | done a => trivial
  | ask c next ih => exact ⟨hauth c, ih⟩

theorem makes_ofAuth {p : Auth.Program α} (hp : Makes Auth.Call.IsOutward p) :
    Makes Call.Fetches (ofAuth p) :=
  makes_inside (hp.mono fun _ hc => ⟨hc, trivial⟩)

theorem makes_credentialProperties (cfg : Config) : Makes Call.Fetches (credentialProperties cfg) :=
  makes_ofAuth ((Auth.makes_propertiesFor _).mono fun _ => And.right)

theorem makes_fetchAny (url : String) :
    Makes Call.Fetches (ofAuth (Auth.Program.fetchAuthorized (.getAny url))) :=
  makes_ofAuth (Auth.makes_fetchAuthorized rfl)

theorem makes_fetchJson (url : String) : Makes Call.Fetches (fetchJson url).run := by
  rw [run_fetchJson]
  exact (makes_fetchAny url).bind fun _ => makes_done _

theorem makes_fetchUser (cfg : Config) : Makes Call.Fetches (fetchUser cfg).run := by
  rw [run_fetchUser]
  refine ⟨⟨trivial, trivial⟩, fun license => ?_⟩
  rcases license with e | _ | record
  · trivial
  · refine (makes_fetchJson _).bind fun body => ?_
    cases body with
    | ok record => trivial
    | error e =>
      show Makes _ (ite (cfg.tokenClaims = true) _ _)
      split
      · rw [run_userOfToken]
        exact (makes_credentialProperties cfg).bind fun _ => makes_done _
      · trivial
  · trivial

theorem makes_fetchKey (cfg : Config) : Makes Call.Fetches (fetchKey cfg).run := by
  rw [run_fetchKey]
  refine (makes_fetchAny _).bind fun answer => ?_
  cases keyOutcome answer with
  | error e => trivial
  | ok text => exact ⟨⟨trivial, trivial⟩, fun _ => trivial⟩

theorem makes_storeClaim (cfg : Config) (claim : License.Entitlement) :
    Makes Call.Fetches (storeClaim cfg claim) := by
  refine ⟨⟨fun key hkey => ?_, trivial⟩, fun stored => ?_⟩
  · have hdisjoint : ∀ key ∈ tokenKeys,
        key ∉ [Key.supported, Key.sign, Key.startDate, Key.endDate] := by decide
    exact notMem_claim claim (hdisjoint key hkey)
  · cases stored with
    | error e => trivial
    | ok _ =>
      show Makes _ (ite (claim.supported = true) _ _)
      split
      · exact makes_fetchKey cfg
      · trivial

theorem makes_fetchClaim (cfg : Config) : Makes Call.Fetches (fetchClaim cfg).run := by
  rw [run_fetchClaim]
  refine ⟨⟨trivial, trivial⟩, fun found => ⟨⟨trivial, trivial⟩, fun license => ?_⟩⟩
  rcases license with e | _ | record
  · trivial
  · refine (makes_fetchJson _).bind fun body => ?_
    cases body with
    | ok record => exact makes_storeClaim cfg _
    | error e => trivial
  · exact makes_storeClaim cfg _

theorem makes_check_of {Q : Call → Prop} (hclock : Q (.auth .clock)) (hkey : Q .loadKey)
    (hcount : ∀ counter, Q (.auth (.count counter))) (claim : License.Entitlement) :
    Makes Q (check claim) := by
  have hreport (key : Except Disk.Fault String) (day : Date) : Makes Q (report key claim day) := by
    rw [report]
    split
    · exact ⟨hcount _, fun _ => trivial⟩
    · trivial
  rw [check_eq]
  refine ⟨hclock, fun clock => ?_⟩
  beta_reduce
  split
  · exact ⟨hkey, fun key => hreport key _⟩
  · exact hreport _ _

theorem makes_check (claim : License.Entitlement) : Makes Call.IsAloof (check claim) :=
  makes_check_of (Q := Call.IsAloof) rfl trivial (fun _ => rfl) claim

theorem makes_updateSupported : Makes Call.Tends updateSupported := by
  rw [updateSupported_eq, checkStored_eq]
  have hcheck (claim : License.Entitlement) : Makes Call.Tends (check claim) :=
    (makes_check claim).mono fun _ hc => hc.tends
  refine ⟨trivial, fun _ => Makes.bind ⟨trivial, fun _ => ⟨trivial, fun _ => hcheck _⟩⟩ ?_⟩
  exact fun _ => ⟨trivial, fun _ => ⟨trivial, fun _ => trivial⟩⟩

theorem makes_logout_of {Q : Call → Prop} (happly : ∀ changes, Q (.apply changes))
    (hunregister : ∀ start logoutUrl, Makes Q (ofAuth (Auth.Program.unregister start logoutUrl)))
    (hsession : Q (.setSession {})) (hemit : ∀ event, Q (.emit event)) (cfg : Config) :
    Makes Q (logout cfg) := by
  have hdrop (origins : List String) : Makes Q (dropOrigins origins) := by
    induction origins with
    | nil => trivial
    | cons origin rest ih => exact (hunregister origin none).bind fun _ => ih
  rw [logout_eq, dropCredentials_eq]
  refine ⟨happly _, fun _ => Makes.bind ((hunregister _ _).bind fun _ => hdrop _) fun _ => ?_⟩
  exact ⟨hsession, fun _ => ⟨hemit _, fun _ => ⟨hemit _, fun _ => trivial⟩⟩⟩

open AccountGate.Flow (EndsIn)

theorem endsIn_tell (cfg : Config) (known : String) (before : TokenPair) (found : Settings) :
    EndsIn Call.Tends (saveIfChanged cfg before) (tell cfg known before found) := by
  refine .ask trivial fun _ => .ask trivial fun _ => ?_
  split
  · exact .last
  · exact .bind makes_updateSupported fun _ => .ask trivial fun _ => .last

theorem endsIn_seek (cfg : Config) (known : String) (before : TokenPair) :
    EndsIn Call.Tends (saveIfChanged cfg before) (seek cfg known before) := by
  refine .bind ((makes_fetchUser cfg).mono fun _ hc => hc.tends) fun result => ?_
  rcases result with e | _ | user
  · exact .ask trivial fun _ => endsIn_tell cfg known before _
  · exact .ask trivial fun _ => endsIn_tell cfg known before _
  · have hdisjoint : ∀ key ∈ tokenKeys,
        key ∉ [Key.userId, Key.firstName, Key.lastName, Key.email, Key.roles] := by decide
    exact .ask hdisjoint fun _ => .ask trivial fun _ => endsIn_tell cfg known before _

/-- Either job reads the tokens, then does what changes none of the stored ones, and in the end
stores the tokens if they have changed. -/
theorem exists_endsIn (cfg : Config) (job : Job) : ∃ body : TokenPair → Program Unit,
    ofJob cfg job = (tokenPair cfg).bind body ∧
    ∀ before, EndsIn Call.Tends (saveIfChanged cfg before) (body before) := by
  cases job with
  | refreshUser =>
    refine ⟨_, refreshUser_eq cfg, fun before => .ask trivial fun _ => ?_⟩
    exact endsIn_seek cfg _ before
  | refreshSupport =>
    refine ⟨_, refreshSupport_eq cfg, fun before => ?_⟩
    refine .bind ((makes_fetchClaim cfg).mono fun _ hc => hc.tends) fun _ => ?_
    refine .bind makes_updateSupported fun _ => ?_
    exact .ask trivial fun _ => .last

section Conducts

theorem tame_credentialProperties (cfg : Config) :
    Makes Call.IsTame (credentialProperties cfg) :=
  makes_credentialProperties_of trivial (fun _ => trivial) fun _ => trivial

theorem tame_tokenPair (cfg : Config) : Makes Call.IsTame (tokenPair cfg) :=
  (tame_credentialProperties cfg).bind fun _ => makes_done _

theorem tame_saveCredentials (cfg : Config) : Makes Call.IsTame (saveCredentials cfg) :=
  makes_saveCredentials_of (tame_credentialProperties cfg) fun _ => trivial

theorem tame_saveIfChanged (cfg : Config) (before : TokenPair) :
    Makes Call.IsTame (saveIfChanged cfg before) := by
  rw [saveIfChanged_eq]
  refine (tame_tokenPair cfg).bind fun pair => ?_
  split
  · trivial
  · exact (tame_saveCredentials cfg).bind fun _ => makes_done _

theorem tame_check (claim : License.Entitlement) : Makes Call.IsTame (check claim) :=
  makes_check_of trivial trivial (fun _ => trivial) claim

theorem tame_checkStored : Makes Call.IsTame checkStored := by
  rw [checkStored_eq]
  exact ⟨trivial, fun _ => ⟨trivial, fun _ => tame_check _⟩⟩

theorem tame_updateSupported : Makes Call.IsTame updateSupported := by
  rw [updateSupported_eq]
  exact ⟨trivial, fun _ => tame_checkStored.bind fun _ =>
    ⟨trivial, fun _ => ⟨trivial, fun _ => trivial⟩⟩⟩

theorem tame_finish (cfg : Config) (before : TokenPair) :
    Makes Call.IsTame (updateSupported.bind fun _ => finish cfg before) :=
  tame_updateSupported.bind fun _ => ⟨trivial, fun _ => tame_saveIfChanged cfg before⟩

theorem tame_tell (cfg : Config) (known : String) (before : TokenPair) (found : Settings) :
    Makes Call.IsTame (tell cfg known before found) := by
  refine ⟨trivial, fun _ => ⟨trivial, fun _ => ?_⟩⟩
  split
  · exact tame_saveIfChanged cfg before
  · exact tame_finish cfg before

variable {k : Conduct interface} {s : k.Stage}
  (htame : ∀ {β : Type} {p : Program β} {s}, Makes Call.IsTame p → k.Leads (fun _ _ => True) s p)
  (hfetch : ∀ {name : String} {s}, name ∈ resources → k.Leads (fun _ _ => True) s
    (ofAuth (Auth.Program.fetchAuthorized (.getAny (cfg.resource name)))))

include htame in
theorem leads_ask_of {c : Call} {next : Reply c → Program α} {Q : α → k.Stage → Prop}
    (hc : c.IsTame) (hnext : ∀ r s, k.Leads Q s (next r)) : k.Leads Q s (.ask c next) :=
  ⟨(htame (p := call c) ⟨hc, fun _ => trivial⟩).1, fun r _ => hnext r _⟩

include hfetch in
theorem leads_fetchJson_of {name : String} (h : name ∈ resources) :
    k.Leads (fun _ _ => True) s (fetchJson (cfg.resource name)).run := by
  rw [run_fetchJson]
  exact (hfetch h).bind fun _ _ _ => trivial

include htame hfetch

theorem leads_fetchUser_of : k.Leads (fun _ _ => True) s (fetchUser cfg).run := by
  rw [run_fetchUser]
  refine leads_ask_of htame trivial fun license _ => ?_
  rcases license with e | _ | record
  · trivial
  · refine (leads_fetchJson_of hfetch (by decide)).bind fun body _ _ => htame ?_
    cases body with
    | ok record => trivial
    | error e =>
      change Makes _ (ite (cfg.tokenClaims = true) _ _)
      split
      · rw [run_userOfToken]
        exact (tame_credentialProperties cfg).bind fun _ => makes_done _
      · trivial
  · trivial

theorem leads_storeClaim_of (claim : License.Entitlement) :
    k.Leads (fun _ _ => True) s (storeClaim cfg claim) := by
  refine leads_ask_of htame trivial fun stored _ => ?_
  cases stored with
  | error e => trivial
  | ok _ =>
    change k.Leads _ _ (ite (claim.supported = true) _ _)
    split
    · rw [run_fetchKey, askKey]
      refine (hfetch (by decide)).bind fun answer _ _ => htame ?_
      cases keyOutcome answer with
      | error e => trivial
      | ok text => exact ⟨trivial, fun _ => trivial⟩
    · trivial

theorem leads_fetchClaim_of : k.Leads (fun _ _ => True) s (fetchClaim cfg).run := by
  rw [run_fetchClaim]
  refine leads_ask_of htame trivial fun found _ => leads_ask_of htame trivial fun license _ => ?_
  rcases license with e | _ | record
  · trivial
  · refine (leads_fetchJson_of hfetch (by decide)).bind fun body _ _ => ?_
    cases body with
    | ok record => exact leads_storeClaim_of htame hfetch _
    | error e => trivial
  · exact leads_storeClaim_of htame hfetch _

/-- A job keeps to every conduct to which tame calls keep, and requests for the resources. -/
theorem leads_ofJob_of (job : Job) : k.Leads (fun _ _ => True) s (ofJob cfg job) := by
  cases job with
  | refreshUser =>
    rw [ofJob, refreshUser_eq]
    refine (htame (tame_tokenPair cfg)).bind fun before _ _ => ?_
    refine leads_ask_of htame trivial fun first _ => ?_
    refine (leads_fetchUser_of htame hfetch).bind fun result _ _ => htame ?_
    rcases result with e | _ | user
    · exact ⟨trivial, fun found => tame_tell cfg _ before found⟩
    · exact ⟨trivial, fun found => tame_tell cfg _ before found⟩
    · exact ⟨trivial, fun _ => ⟨trivial, fun found => tame_tell cfg _ before found⟩⟩
  | refreshSupport =>
    rw [ofJob, refreshSupport_eq]
    refine (htame (tame_tokenPair cfg)).bind fun before _ _ => ?_
    refine (leads_fetchClaim_of htame hfetch).bind fun _ _ _ => htame ?_
    exact tame_finish cfg before

end Conducts

end Program

section Runs

variable {cfg : Config} {s t u : Shared} {a : Auth.Authorization}

/-- All calls but those around credentials and settings leave both alone. -/
theorem Shared.kept_of_step {c : Call} {r : Reply c} (hs : s.step c = .reply r t)
    (hauth : ∀ c', c ≠ .auth c') (happly : ∀ changes, c ≠ .apply changes) :
    t.vault = s.vault ∧ t.store = s.store :=
  ⟨(Shared.frames_of_step hs).vault_eq hauth, (Shared.frames_of_step hs).store_eq happly⟩

/-- Neither the registry nor the stored tokens have changed. -/
structure Idles (s t : Shared) : Prop where
  registry_eq : t.vault.registry = s.vault.registry
  stored_eq : t.stored = s.stored

theorem Idles.refl (s : Shared) : Idles s s := ⟨rfl, rfl⟩

theorem Idles.trans (h : Idles s t) (h' : Idles t u) : Idles s u :=
  ⟨h'.registry_eq.trans h.registry_eq, h'.stored_eq.trans h.stored_eq⟩

theorem Idles.step (h : Idles s t) {c : Call} {r : Reply c} (hc : c.Tends) (hr : Written c r)
    (hs : t.step c = .reply r u) : Idles s u := by
  cases c with
  | auth c =>
    obtain ⟨hreplies, hrest⟩ := replies_of_auth hs
    refine h.trans ⟨hreplies.registry_eq hc, ?_⟩
    rw [hrest]
    rfl
  | apply changes =>
    obtain rfl : r = .ok () := hr
    obtain ⟨hsettings, hrest⟩ := Shared.merged_of_apply hs
    refine h.trans ⟨by rw [hrest], List.map_congr_left fun key hkey => ?_⟩
    rw [hsettings, Settings.value_merge_of_notMem (hc key hkey)]
  | _ =>
    obtain ⟨hvault, hstore⟩ := Shared.kept_of_step hs (by simp) (by simp)
    exact h.trans ⟨congrArg Auth.Vault.registry hvault, by rw [Shared.stored, hstore]; rfl⟩

/-- A question for a header. -/
theorem idles_of_header {url : String} (h : Solo Shared.step Written
    (Program.ofAuth (Auth.Program.resolve url)) s a t) : Idles s t :=
  h.keeps (Program.makes_ofAuth ((Auth.makes_resolve url).mono fun _ => And.right))
    (fun hc hr hidles hs => hidles.step hc.tends hr hs) (.refl s)

/-- The tokens are stored if they are no longer what they were. -/
theorem solo_saveIfChanged {before : Program.TokenPair} (hbefore : s.credentials cfg = [] →
      before = (none, none))
    (h : Solo Shared.step Written (Program.saveIfChanged cfg before) s () t) :
    t.credentials cfg = s.credentials cfg ∧ t.vault.registry = s.vault.registry ∧
      t.stored = if pairOf (s.credentials cfg) = before then s.stored
        else fieldsOf (s.credentials cfg) := by
  rw [Program.saveIfChanged_eq, Program.tokenPair_eq, Flow.bind_assoc] at h
  obtain ⟨properties, u, hread, h⟩ := Flow.solo_bind_iff.mp h
  obtain ⟨rfl, rfl⟩ := solo_credentialProperties hread
  change Solo _ _ (ite (pairOf (u.credentials cfg) = before) _ _) _ _ _ at h
  split at h
  · next hsame =>
    obtain ⟨-, rfl⟩ := Flow.solo_done_iff.mp h
    exact ⟨rfl, rfl, (if_pos hsame).symm⟩
  · next hdiffers =>
    obtain ⟨result, u', hsave, h⟩ := Flow.solo_bind_iff.mp h
    obtain ⟨-, rfl⟩ := Flow.solo_done_iff.mp h
    rcases solo_saveCredentials hsave with ⟨hempty, -⟩ | ⟨-, hwritten, hs⟩
    · -- Nothing is stored without credentials, but then nothing has changed.
      rw [hbefore hempty, hempty] at hdiffers
      exact absurd rfl hdiffers
    · obtain rfl : result = .ok () := hwritten
      obtain ⟨hstored, hcredentials, hregistry⟩ := stored_of_changes cfg hs
      rw [if_neg hdiffers]
      exact ⟨hcredentials, hregistry, hstored⟩

/-- A job stores tokens exactly if it leaves others in use than it has found, and then those that it
leaves. -/
theorem solo_job {job : Job} (h : Solo Shared.step Written (Program.ofJob cfg job) s () t) :
    t.vault.registry = s.vault.registry ∧
      t.stored = if pairOf (t.credentials cfg) = pairOf (s.credentials cfg) then s.stored
        else fieldsOf (t.credentials cfg) := by
  obtain ⟨body, hbody, hends⟩ := Program.exists_endsIn cfg job
  rw [hbody, Program.tokenPair_eq, Flow.bind_assoc] at h
  obtain ⟨properties, u, hread, h⟩ := Flow.solo_bind_iff.mp h
  obtain ⟨rfl, rfl⟩ := solo_credentialProperties hread
  obtain ⟨m, hm, hsave⟩ := h.endsIn (hends (pairOf (u.credentials cfg)))
    (fun hc hr hidles hs => hidles.step hc hr hs) (Idles.refl u)
  -- What comes before the end registers nothing, so that without a strategy there was none either.
  have hempty (hnone : m.credentials cfg = []) : pairOf (u.credentials cfg) = (none, none) := by
    rw [credentials_eq_nil_iff, hm.registry_eq, ← credentials_eq_nil_iff] at hnone
    rw [hnone]
    rfl
  obtain ⟨hkept, hregistry', hstored⟩ := solo_saveIfChanged hempty hsave
  refine ⟨hregistry'.trans hm.registry_eq, ?_⟩
  rw [hkept, hstored, hm.stored_eq]

/-- What leaves credentials and settings alone. -/
theorem solo_aloof {α : Type} {P : (c : Call) → Reply c → Prop} {p : Program α} {a : α}
    (hp : Makes Call.IsAloof p) (h : Solo Shared.step P p s a t) :
    t.vault = s.vault ∧ t.store = s.store := by
  have hkept : ∀ {u : Shared} {c : Call} {r : Reply c} {u' : Shared}, c.IsAloof → P c r →
      u.vault = s.vault ∧ u.store = s.store → Shared.step u c = .reply r u' →
      u'.vault = s.vault ∧ u'.store = s.store := by
    intro u c r u' hc _ hu hs
    cases c with
    | auth c =>
      obtain ⟨hreplies, hrest⟩ := replies_of_auth hs
      refine ⟨?_, (congrArg Shared.store hrest).trans hu.2⟩
      rcases hreplies with hreply | ⟨-, hsame⟩
      · rw [Auth.Vault.step_eq_outside_iff.mpr hc] at hreply
        exact absurd hreply (by simp)
      · exact hsame.trans hu.1
    | apply changes => exact hc.elim
    | _ =>
      obtain ⟨hvault, hstore⟩ := Shared.kept_of_step hs (by simp) (by simp)
      exact ⟨hvault.trans hu.1, hstore.trans hu.2⟩
  exact h.keeps hp hkept ⟨rfl, rfl⟩

end Runs

end AccountGate.Account
