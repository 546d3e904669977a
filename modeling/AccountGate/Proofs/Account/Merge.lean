import AccountGate.Proofs.Account.Programs

/-!
What stored changes do to the settings. Main statements: a merge leaves the values under all other
keys; the user, the claim and the credentials are stored under keys of their own; and a claim depends
on the user's id and on its own keys only.
-/

namespace AccountGate.Account

namespace Settings

theorem get?_merge_of_notMem {key : String} {changes : Entries}
    (h : key ∉ changes.map Prod.fst) (s : Settings) : (s.merge changes).get? key = s.get? key := by
  induction changes generalizing s with
  | nil => rfl
  | cons change rest ih =>
    rw [List.map_cons, List.mem_cons, not_or] at h
    show ((s.insert change.1 change.2).merge rest).get? key = _
    rw [ih h.2, get?_insert, if_neg h.1]

theorem value?_merge_of_notMem {key : String} {changes : Entries}
    (h : key ∉ changes.map Prod.fst) (s : Settings) :
    (s.merge changes).value? key = s.value? key := by
  rw [value?, value?, get?_merge_of_notMem h]

theorem value_merge_of_notMem {key : String} {changes : Entries}
    (h : key ∉ changes.map Prod.fst) (s : Settings) :
    (s.merge changes).value key = s.value key := by
  rw [value, value, value?_merge_of_notMem h]

theorem value_of_get? {s : Settings} {key text : String} (h : s.get? key = some text) :
    s.value key = text := by
  rw [value, value?, h]
  cases hempty : text.isEmpty with
  | true =>
    rw [String.isEmpty_iff.mp hempty]
    rfl
  | false => simp [Option.filter, hempty]

/-- A value is there exactly where it is not empty. -/
theorem isSome_value?_iff {s : Settings} {key : String} :
    (s.value? key).isSome = true ↔ s.value key ≠ "" := by
  rw [value]
  cases hvalue : s.value? key with
  | none => simp
  | some text =>
    rw [value?, Option.filter_eq_some_iff] at hvalue
    simpa using hvalue.2

theorem isNone_value?_iff {s : Settings} {key : String} :
    (s.value? key).isNone = true ↔ s.value key = "" := by
  rw [Option.isNone_iff_eq_none, ← Option.not_isSome_iff_eq_none, isSome_value?_iff, ne_eq,
    Decidable.not_not]

theorem value?_of_ne {s : Settings} {key text : String} (h : s.get? key = some text)
    (htext : text ≠ "") : s.value? key = some text := by
  rw [value?, h, Option.filter_some, if_pos (by simpa using htext)]

theorem get?_merge_congr {a b : Settings} {key : String} (h : a.get? key = b.get? key)
    (changes : Entries) : (a.merge changes).get? key = (b.merge changes).get? key := by
  induction changes generalizing a b with
  | nil => exact h
  | cons change rest ih =>
    refine ih (a := a.insert change.1 change.2) (b := b.insert change.1 change.2) ?_
    rw [get?_insert, get?_insert, h]

/-- What is under a key that is merged does not depend on what was there. -/
theorem get?_merge_of_mem {key : String} {changes : Entries} (h : key ∈ changes.map Prod.fst)
    (a b : Settings) : (a.merge changes).get? key = (b.merge changes).get? key := by
  induction changes generalizing a b with
  | nil => exact absurd h List.not_mem_nil
  | cons change rest ih =>
    rcases List.mem_cons.mp h with rfl | hrest
    · refine get?_merge_congr (a := a.insert change.1 change.2) (b := b.insert change.1 change.2)
        ?_ rest
      rw [get?_insert, get?_insert, if_pos rfl, if_pos rfl]
    · exact ih hrest (a.insert change.1 change.2) (b.insert change.1 change.2)

/-- Changes under different keys may come in any order. -/
theorem merge_comm {a b : Entries} (h : ∀ key ∈ a.map Prod.fst, key ∉ b.map Prod.fst) (s : Settings) :
    (s.merge a).merge b = (s.merge b).merge a := by
  refine ext fun key => ?_
  by_cases hkey : key ∈ a.map Prod.fst
  · rw [get?_merge_of_notMem (h key hkey), get?_merge_of_mem hkey s (s.merge b)]
  · rw [get?_merge_of_notMem hkey, get?_merge_congr (get?_merge_of_notMem hkey s)]

theorem merge_self (changes : Entries) (s : Settings) :
    (s.merge changes).merge changes = s.merge changes := by
  refine ext fun key => ?_
  by_cases hkey : key ∈ changes.map Prod.fst
  · exact get?_merge_of_mem hkey _ _
  · exact get?_merge_of_notMem hkey _

/-- What is merged under different keys is found under each of them. -/
theorem get?_merge_of_nodup {changes : Entries} (h : (changes.map Prod.fst).Nodup)
    {key text : String} (hmem : (key, text) ∈ changes) (s : Settings) :
    (s.merge changes).get? key = some text := by
  induction changes generalizing s with
  | nil => exact absurd hmem List.not_mem_nil
  | cons change rest ih =>
    obtain ⟨hkey, hrest⟩ := List.nodup_cons.mp h
    show ((s.insert change.1 change.2).merge rest).get? key = some text
    rcases List.mem_cons.mp hmem with rfl | hmem
    · rw [get?_merge_of_notMem hkey, get?_insert, if_pos rfl]
    · exact ih hrest hmem _

/-- The user that is stored is found again. -/
theorem value_userId_merge_user (s : Settings) (user : User) :
    (s.merge user.changes).value Key.userId = user.userId := by
  refine value_of_get? (get?_merge_of_nodup ?_ List.mem_cons_self s)
  simp [Key.userId, Key.firstName, Key.lastName, Key.email, Key.roles]

end Settings

theorem keys_credentialChanges (properties : Auth.Properties) :
    (Program.credentialChanges properties).map Prod.fst =
      [Key.accessToken, Key.updateToken, Key.expiresIn] := rfl

/-- The user is stored under another key than the credentials. -/
theorem notMem_credentialChanges (properties : Auth.Properties) :
    Key.userId ∉ (Program.credentialChanges properties).map Prod.fst := by
  rw [keys_credentialChanges]
  decide

/-- What a claim depends on in the settings. -/
theorem claimUnder_congr {license : Except Error (Option Json)} {a b : Settings}
    (huser : a.value Key.userId = b.value Key.userId)
    (hrest : ∀ key ∈ [Key.startDate, Key.endDate, Key.sign, Key.supported],
      a.value? key = b.value? key) : claimUnder license a = claimUnder license b := by
  have hstored : SupportClaim.ofSettings a = SupportClaim.ofSettings b := by
    have hvalue (key : String) (hkey : key ∈ [Key.startDate, Key.endDate, Key.sign, Key.supported]) :
        a.value key = b.value key := by
      rw [Settings.value, Settings.value, hrest key hkey]
    rw [SupportClaim.ofSettings, SupportClaim.ofSettings, huser, hvalue Key.startDate (by simp),
      hvalue Key.endDate (by simp), hvalue Key.sign (by simp), hrest Key.supported (by simp)]
  rcases license with e | record
  · exact hstored
  · cases record with
    | none => exact hstored
    | some record => simp only [claimUnder, huser]

/-- A claim that is stored speaks of whichever user is stored. -/
theorem ofSettings_merge_user (s : Settings) (user : User) :
    SupportClaim.ofSettings (s.merge user.changes) =
      { SupportClaim.ofSettings s with userId := user.userId } := by
  have hvalue? (key : String) (h : key ∉ user.changes.map Prod.fst) :
      (s.merge user.changes).value? key = s.value? key := Settings.value?_merge_of_notMem h s
  have hstart := hvalue? Key.startDate (by simp [User.changes, Key.startDate, Key.userId,
    Key.firstName, Key.lastName, Key.email, Key.roles])
  have hend := hvalue? Key.endDate (by simp [User.changes, Key.endDate, Key.userId,
    Key.firstName, Key.lastName, Key.email, Key.roles])
  have hsign := hvalue? Key.sign (by simp [User.changes, Key.sign, Key.userId,
    Key.firstName, Key.lastName, Key.email, Key.roles])
  have hsupported := hvalue? Key.supported (by simp [User.changes, Key.supported, Key.userId,
    Key.firstName, Key.lastName, Key.email, Key.roles])
  rw [SupportClaim.ofSettings, Settings.value_userId_merge_user]
  simp only [SupportClaim.ofSettings, Settings.value, hstart, hend, hsign, hsupported]

end AccountGate.Account
