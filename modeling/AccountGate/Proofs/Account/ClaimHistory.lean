import AccountGate.Proofs.Account.Parts

/-!
The stored claim after any history. Main statement: whatever is stored, and in whatever order, the
claim that is read back speaks of the stored user, claims support as the last claim did, and has
signature and dates of the last claim of support.
-/

namespace AccountGate.Account

open License (Entitlement)

namespace Deposit

def claim? : Deposit → Option Entitlement
  | claim e => some e
  | _ => none

/-- What it makes of the stored claim, whoever the user is. -/
def onClaim (found : Entitlement) : Deposit → Entitlement
  | claim e => if e.supported then e else { found with supported := false }
  | _ => found

/-- The settings after a history, the oldest deposit first. -/
def after (s : Settings) (history : List Deposit) : Settings :=
  history.foldl (fun s d => s.merge d.changes) s

/-- The claims of a history. -/
def claims (history : List Deposit) : List Entitlement := history.filterMap claim?

theorem after_concat (s : Settings) (history : List Deposit) (d : Deposit) :
    after s (history ++ [d]) = (after s history).merge d.changes := by
  rw [after, List.foldl_append]
  rfl

theorem claims_concat (history : List Deposit) (d : Deposit) :
    claims (history ++ [d]) = claims history ++ d.claim?.toList := by
  rw [claims, List.filterMap_append]
  cases h : d.claim? <;> simp [claims, h]

end Deposit

/-- The last claim of support among claims. -/
def lastSigned? (claims : List Entitlement) : Option Entitlement :=
  (claims.filter Entitlement.supported).getLast?

theorem lastSigned?_concat (claims : List Entitlement) (claim : Entitlement) :
    lastSigned? (claims ++ [claim]) =
      if claim.supported then some claim else lastSigned? claims := by
  rw [lastSigned?, List.filter_append, List.filter_singleton]
  cases claim.supported with
  | true => simp
  | false => simp [lastSigned?]

namespace SupportClaim

theorem nodup_changes (claim : Entitlement) : ((changes claim).map Prod.fst).Nodup := by
  rw [changes]
  split
  · simp [Key.supported, Key.sign, Key.startDate, Key.endDate]
  · simp

/-- A claim of support is stored whole; of another one only that it is none. -/
theorem ofSettings_merge_claim (s : Settings) (claim : Entitlement) :
    ofSettings (s.merge (changes claim)) =
      { (if claim.supported then claim else { ofSettings s with supported := false }) with
        userId := s.value Key.userId } := by
  have hget (key text : String) (hmem : (key, text) ∈ changes claim) :
      (s.merge (changes claim)).get? key = some text :=
    Settings.get?_merge_of_nodup (nodup_changes claim) hmem s
  have huser : (s.merge (changes claim)).value Key.userId = s.value Key.userId :=
    Settings.value_merge_of_notMem (notMem_claim claim (by decide)) s
  rw [ofSettings, huser]
  cases hsupported : claim.supported with
  | true =>
    have hflag : (s.merge (changes claim)).value? Key.supported = some "true" :=
      Settings.value?_of_ne (hget _ _ (by simp [changes, hsupported])) (by decide)
    rw [hflag, Settings.value_of_get? (hget _ claim.startDate (by simp [changes, hsupported])),
      Settings.value_of_get? (hget _ claim.endDate (by simp [changes, hsupported])),
      Settings.value_of_get? (hget _ claim.signature (by simp [changes, hsupported]))]
    simpa using hsupported
  | false =>
    have hflag : (s.merge (changes claim)).value? Key.supported = some "false" :=
      Settings.value?_of_ne (hget _ _ (by simp [changes, hsupported])) (by decide)
    have hkept {key : String} (hkey : key ≠ Key.supported) :
        (s.merge (changes claim)).value key = s.value key :=
      Settings.value_merge_of_notMem (by simpa [changes, hsupported] using hkey) s
    rw [hflag, hkept (by decide), hkept (by decide), hkept (by decide)]
    rfl

/-- Where nothing is stored under the keys of a claim, only the user of the stored claim can change. -/
theorem ofSettings_merge_other {changes : Entries} (s : Settings)
    (h : ∀ key ∈ [Key.supported, Key.sign, Key.startDate, Key.endDate], key ∉ changes.map Prod.fst) :
    ofSettings (s.merge changes) =
      { ofSettings s with userId := (s.merge changes).value Key.userId } := by
  have hkept (key : String) (hkey : key ∈ [Key.supported, Key.sign, Key.startDate, Key.endDate]) :
      (s.merge changes).value? key = s.value? key := Settings.value?_merge_of_notMem (h key hkey) s
  simp only [ofSettings, Settings.value, hkept Key.supported (by simp), hkept Key.sign (by simp),
    hkept Key.startDate (by simp), hkept Key.endDate (by simp)]

end SupportClaim

theorem ofSettings_merge_deposit (s : Settings) (d : Deposit) :
    SupportClaim.ofSettings (s.merge d.changes) =
      { d.onClaim (SupportClaim.ofSettings s) with
        userId := (s.merge d.changes).value Key.userId } := by
  cases d with
  | claim e =>
    have huser : (s.merge (SupportClaim.changes e)).value Key.userId = s.value Key.userId :=
      Settings.value_merge_of_notMem (notMem_claim e (by decide)) s
    rw [Deposit.changes, SupportClaim.ofSettings_merge_claim, huser]
    rfl
  | user user =>
    apply SupportClaim.ofSettings_merge_other
    simp [Deposit.changes, User.changes, Key.supported, Key.sign, Key.startDate, Key.endDate,
      Key.userId, Key.firstName, Key.lastName, Key.email, Key.roles]
  | credentials properties =>
    apply SupportClaim.ofSettings_merge_other
    rw [Deposit.changes, keys_credentialChanges]
    decide
  | signOut =>
    apply SupportClaim.ofSettings_merge_other
    decide

/-- The stored claim after a history: the user is the stored one, the flag that of the last claim,
and the rest that of the last claim of support. -/
theorem ofSettings_after (s : Settings) (history : List Deposit) :
    SupportClaim.ofSettings (Deposit.after s history) =
      { (lastSigned? (Deposit.claims history)).getD (SupportClaim.ofSettings s) with
        userId := (Deposit.after s history).value Key.userId
        supported := ((Deposit.claims history).getLast?.map Entitlement.supported).getD
          (SupportClaim.ofSettings s).supported } := by
  induction history using List.reverseRecOn with
  | nil => rfl
  | append_singleton history d ih =>
    rw [Deposit.after_concat, ofSettings_merge_deposit, ih, Deposit.claims_concat]
    cases d with
    | claim claim =>
      rw [Deposit.claim?, Option.toList_some, lastSigned?_concat, List.getLast?_concat]
      cases hsupported : claim.supported <;> simp [Deposit.onClaim, hsupported]
    | _ => simp [Deposit.claim?, Deposit.onClaim]

/-- Settings that take every change: in a file, or in memory without a fault. -/
def SettingsStore.Takes : SettingsStore → Prop
  | .memory _ fault => fault = none
  | .file _ => True

/-- The changes that a call stores. -/
def Call.changes? : Call → Option Entries
  | .apply changes => some changes
  | _ => none

theorem stored_of_step {s s' : Shared} {c : Call} {r : Reply c} (hs : s.step c = .reply r s')
    (htakes : s.store.Takes) : s'.store.Takes ∧
      s'.store.settings = s.store.settings.merge (c.changes?.getD []) := by
  by_cases happly : ∃ changes, c = .apply changes
  · obtain ⟨changes, rfl⟩ := happly
    obtain ⟨-, rfl⟩ := Outcome.reply.inj hs
    cases hstore : s.store with
    | memory settings fault =>
      rw [hstore] at htakes
      obtain rfl : fault = none := htakes
      exact ⟨rfl, rfl⟩
    | file onDisk => exact ⟨trivial, rfl⟩
  · have hother : c.changes? = none := by
      cases c with
      | apply changes => exact absurd ⟨changes, rfl⟩ happly
      | _ => rfl
    have hsame : s'.store = s.store :=
      (Shared.frames_of_step hs).store_eq fun changes heq => happly ⟨changes, heq⟩
    rw [hsame, hother]
    exact ⟨htakes, rfl⟩

section Runs

variable {ι : Type} [DecidableEq ι] {w₀ w : World interface Shared ι Unit}
  {log : Trace interface ι} {cfg : Config} {actions : ι → Action} {s : Shared}

/-- The changes that have been stored in a run, the first first. -/
def storedIn (log : Trace interface ι) : List Entries := log.filterMap fun e =>
  match e.2 with
  | .inner c _ => c.changes?
  | _ => none

omit [DecidableEq ι] in
theorem storedIn_concat (log : Trace interface ι) (i : ι) (c : Call) (r : Reply c) :
    storedIn (log ++ [(i, .inner c r)]) = storedIn log ++ c.changes?.toList := by
  rw [storedIn, List.filterMap_append]
  cases h : c.changes? <;> simp [storedIn, h]

/-- The settings are what all that has been stored makes of the first ones. -/
theorem settings_of_reaches (h : World.Reaches Shared.step w₀ log w) (htakes : w₀.state.store.Takes) :
    w.state.store.Takes ∧
      w.state.store.settings = (storedIn log).foldl Settings.merge w₀.state.store.settings := by
  induction h with
  | start => exact ⟨htakes, rfl⟩
  | @step log w e w' _ hs ih =>
    cases hs with
    | @inner i c next r s' _ hr =>
      obtain ⟨htakes', hsettings⟩ := stored_of_step hr ih.1
      refine ⟨htakes', ?_⟩
      rw [storedIn_concat, List.foldl_append, ← ih.2]
      refine hsettings.trans ?_
      cases c.changes? <;> rfl
    | @asked i c next ht hr =>
      have hsame : storedIn (log ++ [(i, .asked c)]) = storedIn log := by simp [storedIn]
      rw [hsame]
      exact ih
    | @answered i c next r ht =>
      have hsame : storedIn (log ++ [(i, .answered c r)]) = storedIn log := by simp [storedIn]
      rw [hsame]
      exact ih

/-- Nothing is stored but deposits. -/
theorem exists_history (h : World.Reaches Shared.step (begun cfg actions s) log w)
    (hbuilt : ∀ i p spares, actions i = .other p spares → Built p) :
    ∃ history : List Deposit, storedIn log = history.map Deposit.changes := by
  have hall : ∀ changes ∈ storedIn log, changes ∈ Set.range Deposit.changes := by
    intro changes hmem
    obtain ⟨⟨i, e⟩, he, hchanges⟩ := List.mem_filterMap.mp hmem
    cases e with
    | inner c r =>
      have hcall : c ∈ World.callsBy i log := List.mem_filterMap.mpr ⟨_, he, if_pos rfl⟩
      have hdirect : ∀ c ∈ World.callsBy i log, ∀ changes, c.changes? = some changes →
          changes ∈ Set.range Deposit.changes := by
        refine h.makes (fun _ => rfl) ((built_program cfg (hbuilt i)).makes ?_ ?_)
        · exact fun c changes heq => absurd heq (by simp [Call.changes?])
        · intro c hc changes heq
          cases c with
          | apply stored =>
            obtain rfl := Option.some.inj heq
            exact hc
          | _ => exact absurd heq (by simp [Call.changes?])
      exact hdirect c hcall changes hchanges
    | asked c => exact absurd hchanges (by simp)
    | answered c r => exact absurd hchanges (by simp)
  have hrange : storedIn log ∈ Set.range (List.map Deposit.changes) := by
    rw [Set.range_list_map]
    exact hall
  obtain ⟨history, hhistory⟩ := hrange
  exact ⟨history, hhistory.symm⟩

end Runs

/-- Where the last claim was one of support for the stored user, it is what is read back. -/
theorem ofSettings_after_of_supported {s : Settings} {history : List Deposit} {claim : Entitlement}
    (hlast : (Deposit.claims history).getLast? = some claim) (hsupported : claim.supported = true)
    (huser : claim.userId = (Deposit.after s history).value Key.userId) :
    SupportClaim.ofSettings (Deposit.after s history) = claim := by
  obtain ⟨front, hfront⟩ := List.getLast?_eq_some_iff.mp hlast
  rw [ofSettings_after, hfront, lastSigned?_concat, List.getLast?_concat, if_pos hsupported, ← huser]
  rfl

theorem after_map_claim (s : Settings) (claims : List Entitlement) :
    Deposit.after s (claims.map .claim) =
      claims.foldl (fun s claim => s.merge (SupportClaim.changes claim)) s := by
  rw [Deposit.after, List.foldl_map]
  rfl

theorem claims_map_claim (claims : List Entitlement) :
    Deposit.claims (claims.map .claim) = claims := by
  rw [Deposit.claims, List.filterMap_map]
  exact List.filterMap_some

/-- Claims leave the stored user as it is. -/
theorem value_userId_after_claims (s : Settings) (claims : List Entitlement) :
    (Deposit.after s (claims.map .claim)).value Key.userId = s.value Key.userId := by
  induction claims using List.reverseRecOn with
  | nil => rfl
  | append_singleton claims claim ih =>
    rw [List.map_append, List.map_singleton, Deposit.after_concat, ← ih]
    exact Settings.value_merge_of_notMem (notMem_claim claim (by decide)) _

/-- Whatever claims are stored, the one that is read back speaks of the stored user, claims support
as the last of them did, and has signature and dates of the last claim of support; so it is worth
what that claim is worth. The same holds at every moment of every run, whatever else is stored. -/
theorem stored_claim_is_whole :
    (∀ (s : Settings) (claims : List Entitlement),
      SupportClaim.ofSettings
          (claims.foldl (fun s claim => s.merge (SupportClaim.changes claim)) s) =
        { (lastSigned? claims).getD (SupportClaim.ofSettings s) with
          userId := s.value Key.userId
          supported := (claims.getLast?.map Entitlement.supported).getD
            (SupportClaim.ofSettings s).supported }) ∧
    (∀ (s : Settings) (claims : List Entitlement) (claim : Entitlement),
      claims.getLast? = some claim → claim.supported = true → claim.userId = s.value Key.userId →
      ∀ (key : Except Disk.Fault String) (text : String) (today : Date),
        let record := SupportClaim.ofSettings
          (claims.foldl (fun s claim => s.merge (SupportClaim.changes claim)) s)
        License.KeyCache.check key record today = License.KeyCache.check key claim today ∧
          record.check text today = claim.check text today) ∧
    ∀ (ι : Type) [DecidableEq ι] (cfg : Config) (actions : ι → Action) (s : Shared)
      (log : Trace interface ι) (w : World interface Shared ι Unit), s.store.Takes →
      (∀ i p spares, actions i = .other p spares → Built p) →
      World.Reaches Shared.step (begun cfg actions s) log w →
      ∃ history : List Deposit, storedIn log = history.map Deposit.changes ∧
        SupportClaim.ofSettings w.state.store.settings =
          { (lastSigned? (Deposit.claims history)).getD
              (SupportClaim.ofSettings s.store.settings) with
            userId := w.state.store.settings.value Key.userId
            supported := ((Deposit.claims history).getLast?.map Entitlement.supported).getD
              (SupportClaim.ofSettings s.store.settings).supported } ∧
        ∀ claim today, (Deposit.claims history).getLast? = some claim → claim.supported = true →
          claim.userId = w.state.store.settings.value Key.userId →
          (∀ record, LicenseFile.read w.state.disk w.state.licenseDir ≠ .ok (some record)) →
          storedStatus w.state today = statusOf w.state claim today := by
  refine ⟨fun s claims => ?_, fun s claims claim hlast hsupported huser key text today => ?_, ?_⟩
  · rw [← after_map_claim, ofSettings_after, claims_map_claim, value_userId_after_claims]
  · have hrecord : SupportClaim.ofSettings (Deposit.after s (claims.map .claim)) = claim := by
      refine ofSettings_after_of_supported ?_ hsupported ?_
      · rw [claims_map_claim, hlast]
      · rw [value_userId_after_claims, huser]
    rw [after_map_claim] at hrecord
    show License.KeyCache.check key (SupportClaim.ofSettings _) today = _ ∧ _
    rw [hrecord]
    exact ⟨rfl, rfl⟩
  · intro ι _ cfg actions s log w htakes hbuilt h
    obtain ⟨history, hhistory⟩ := exists_history h hbuilt
    have hsettings : w.state.store.settings = Deposit.after s.store.settings history := by
      rw [(settings_of_reaches h htakes).2, hhistory, List.foldl_map]
      rfl
    refine ⟨history, hhistory, ?_, fun claim today hlast hsupported huser hlicense => ?_⟩
    · rw [hsettings, ofSettings_after]
    · have hclaim : claimUnder (LicenseFile.read w.state.disk w.state.licenseDir)
          w.state.store.settings = SupportClaim.ofSettings w.state.store.settings := by
        rcases hread : LicenseFile.read w.state.disk w.state.licenseDir with e | _ | record
        · rfl
        · rfl
        · exact absurd hread (hlicense record)
      rw [hsettings] at huser
      rw [storedStatus, hclaim, hsettings, ofSettings_after_of_supported hlast hsupported huser,
        statusOf]

end AccountGate.Account
