import AccountGate.Proofs.Account.Merge
import AccountGate.Proofs.Account.Moves

/-!
Signing out beside refreshes. Main statements: signing out clears the settings first and the session
last, and changes neither in between; and what every move of a refresh does to the stored user, to
the stored tokens and to the session.
-/

namespace AccountGate.Account

open License (Entitlement)
open Shared (Merged)

/-- How far signing out has come. -/
inductive Parting where
  | leaving
  | dropping
  | parted
  deriving DecidableEq

namespace Parting

def Allows : Parting → Call → Prop
  | .leaving, .apply changes => changes = Program.clearedEntries
  | .dropping, .auth _ => True
  | .dropping, .setSession session => session = {}
  | .parted, .emit _ => True
  | _, _ => False

def after : Parting → (c : Call) → Reply c → Parting
  | .leaving, .apply _, _ => .dropping
  | .dropping, .setSession _, _ => .parted
  | phase, _, _ => phase

end Parting

/-- The rules for signing out. -/
def parting : Conduct interface where
  Stage := Parting
  Allows := Parting.Allows
  Expects _ _ _ := True
  after := Parting.after

namespace Program

open Conduct

theorem leads_drop {α : Type} (p : Auth.Program α) :
    parting.Leads (fun _ s => s = .dropping) .dropping (ofAuth p) :=
  leads_expand fun _ => ⟨trivial, fun _ _ => rfl⟩

theorem leads_dropOrigins (origins : List String) :
    parting.Leads (fun _ s => s = .dropping) .dropping (dropOrigins origins) := by
  induction origins with
  | nil => rfl
  | cons origin rest ih =>
    refine (leads_drop _).bind fun _ s hs => ?_
    rw [hs]
    exact ih

theorem leads_dropCredentials (cfg : Config) :
    parting.Leads (fun _ s => s = .dropping) .dropping (dropCredentials cfg) := by
  rw [dropCredentials_eq]
  refine (leads_drop _).bind fun _ s hs => ?_
  rw [hs]
  exact leads_dropOrigins cfg.extraOrigins

/-- Signing out goes through its phases in order. -/
theorem leads_logout (cfg : Config) :
    parting.Leads (fun _ s => s = .parted) .leaving (logout cfg) := by
  rw [logout_eq]
  refine ⟨rfl, fun _ _ => (leads_dropCredentials cfg).bind fun _ s hs => ?_⟩
  rw [hs]
  exact ⟨rfl, fun _ _ => ⟨trivial, fun _ _ => ⟨trivial, fun _ _ => rfl⟩⟩⟩

/-- A sign-out whose outcome nobody waits for. -/
def signOut (cfg : Config) : Program Unit := (logout cfg).bind fun _ => .done ()

theorem leads_signOut (cfg : Config) :
    parting.Leads (fun _ s => s = .parted) .leaving (signOut cfg) :=
  (leads_logout cfg).bind fun _ _ hs => hs

end Program

/-- A step of signing out. -/
inductive Parts : Parting → Shared → AccountGate.Event interface → Parting → Shared → Prop
  | clear {s s'} : Merged Program.clearedEntries s s' →
      Parts .leaving s (.inner (.apply Program.clearedEntries) (.ok ())) .dropping s'
  | aside {phase s e s'} : Aside s s' → (∀ changes r, e ≠ .inner (.apply changes) r) →
      (∀ session r, e ≠ .inner (.setSession session) r) → Parts phase s e phase s'
  | reset (s : Shared) : Parts .dropping s (.inner (.setSession {}) ()) .parted { s with session := {} }

variable {phase phase' : Parting} {s s' : Shared} {e : AccountGate.Event interface}

theorem parts_of_inner {license : Except Error (Option Json)} {c : Call} {r : Reply c}
    (hallow : phase.Allows c) (hs : s.step c = .reply r s') (hserved : Served license c r) : Parts phase s (.inner c r) (phase.after c r) s' := by
  cases phase with
  | leaving =>
    cases c with
    | apply changes =>
      obtain rfl : changes = Program.clearedEntries := hallow
      obtain rfl : r = .ok () := hserved
      exact .clear (Shared.merged_of_apply hs)
    | _ => exact hallow.elim
  | dropping =>
    cases c with
    | auth c => exact .aside (aside_of_auth hs) (by simp) (by simp)
    | setSession session =>
      obtain rfl : session = {} := hallow
      obtain ⟨-, rfl⟩ := Outcome.reply.inj hs
      exact .reset s
    | _ => exact hallow.elim
  | parted =>
    cases c with
    | emit event =>
      obtain ⟨-, rfl⟩ := Outcome.reply.inj hs
      exact .aside ⟨rfl⟩ (by simp) (by simp)
    | _ => exact hallow.elim

theorem parts_of_answered {c : Call} {r : Reply c} (hallow : phase.Allows c)
    (houtside : ∃ v : Shared, v.step c = .outside) (s : Shared) :
    Parts phase s (.answered c r) (phase.after c r) s := by
  obtain ⟨v, hv⟩ := houtside
  cases c with
  | auth c =>
    cases phase with
    | dropping => exact .aside (.refl s) (by simp) (by simp)
    | _ => exact hallow.elim
  | _ => cases phase <;> first | exact hallow.elim | exact absurd hv (by simp [Shared.step])

namespace Settings

theorem get?_merge_fill {key : String} (text : String) {keys : List String} (hkey : key ∈ keys)
    (stored : Settings) :
    (stored.merge (keys.map fun key => (key, text))).get? key = some text := by
  induction keys generalizing stored with
  | nil => exact absurd hkey List.not_mem_nil
  | cons k rest ih =>
    show ((stored.insert k text).merge (rest.map fun key => (key, text))).get? key = some text
    -- A later entry overrules this one.
    by_cases hrest : key ∈ rest
    · exact ih hrest _
    · obtain rfl : key = k := (List.mem_cons.mp hkey).resolve_right hrest
      have hnone : key ∉ (rest.map fun key => (key, text)).map Prod.fst := by simpa using hrest
      rw [get?_merge_of_notMem hnone, get?_insert, if_pos rfl]

/-- After signing out, neither a user nor tokens are stored. -/
theorem value_merge_cleared {key : String}
    (hkey : key ∈ [Key.userId, Key.accessToken, Key.updateToken]) (stored : Settings) :
    (stored.merge Program.clearedEntries).value key = "" := by
  refine value_of_get? (get?_merge_fill "" ?_ stored)
  rcases List.mem_cons.mp hkey with rfl | hkey
  · simp
  · rcases List.mem_cons.mp hkey with rfl | hkey
    · simp
    · rw [List.mem_singleton.mp hkey]
      simp

end Settings

section Moves

variable {license : Except Error (Option Json)} {stage stage' : Stage}

theorem notMem_claim {key : String} (claim : Entitlement)
    (hkey : key ∉ [Key.supported, Key.sign, Key.startDate, Key.endDate]) :
    key ∉ (SupportClaim.changes claim).map Prod.fst := by
  intro hmem
  refine hkey ?_
  rw [SupportClaim.changes] at hmem
  split at hmem
  · exact hmem
  · exact List.mem_cons.mpr (.inl (List.mem_singleton.mp hmem))

/-- A move changes the stored user only by storing one. -/
theorem Move.userId_eq (hm : Move license stage s e stage' s') :
    s'.store.settings.value Key.userId = s.store.settings.value Key.userId ∨
    ∃ (user : User) (r : Except Error Unit), e = .inner (.apply user.changes) r ∧
      s'.store.settings.value Key.userId = user.userId := by
  cases hm with
  | aside haside _ => exact .inl (by rw [haside.rest_eq])
  | store user hmerged =>
    refine .inr ⟨user, _, rfl, ?_⟩
    rw [hmerged.settings_eq, Settings.value_userId_merge_user]
  | claim claim hmerged =>
    left
    rw [hmerged.settings_eq]
    exact Settings.value_merge_of_notMem (notMem_claim claim (by decide)) _
  | key heq => exact .inl (by rw [heq])
  | save properties hmerged =>
    have hdisjoint : Key.userId ∉ [Key.accessToken, Key.updateToken, Key.expiresIn] := by decide
    left
    rw [hmerged.settings_eq]
    exact Settings.value_merge_of_notMem hdisjoint _
  | _ => exact .inl rfl

/-- A move changes the stored tokens only by storing some. -/
theorem Move.tokens_eq (hm : Move license stage s e stage' s') :
    (∀ key ∈ [Key.accessToken, Key.updateToken],
      s'.store.settings.value key = s.store.settings.value key) ∨
    ∃ properties r, e = .inner (.apply (Program.credentialChanges properties)) r := by
  cases hm with
  | aside haside _ => exact .inl fun key _ => by rw [haside.rest_eq]
  | store user hmerged =>
    left
    intro key hkey
    have hdisjoint : ∀ key ∈ [Key.accessToken, Key.updateToken],
        key ∉ [Key.userId, Key.firstName, Key.lastName, Key.email, Key.roles] := by decide
    rw [hmerged.settings_eq]
    exact Settings.value_merge_of_notMem (hdisjoint key hkey) _
  | claim claim hmerged =>
    left
    intro key hkey
    rw [hmerged.settings_eq]
    have hdisjoint : ∀ key ∈ [Key.accessToken, Key.updateToken],
        key ∉ [Key.supported, Key.sign, Key.startDate, Key.endDate] := by decide
    exact Settings.value_merge_of_notMem (notMem_claim claim (hdisjoint key hkey)) _
  | key heq => exact .inl fun key _ => by rw [heq]
  | save properties hmerged => exact .inr ⟨properties, _, rfl⟩
  | _ => exact .inl fun _ _ => rfl

/-- A move changes the session only by telling it of the user or by judging the claim. -/
theorem Move.session_eq (hm : Move license stage s e stage' s') :
    s'.session = s.session ∨
    (∃ known found, stage = .looked known found ∧
      e = .inner (.setUser (userOf found).1 (userOf found).2) () ∧
      s'.session = ⟨(userOf found).1, s.session.supported, (userOf found).2⟩) ∨
    ∃ progress supported, stage = .checking progress ∧ progress.Says supported ∧
      e = .inner (.setSupported supported) () ∧ s'.session = { s.session with supported } := by
  cases hm with
  | aside haside _ => exact .inl (by rw [haside.rest_eq])
  | store user hmerged => exact .inl (by rw [hmerged.rest_eq])
  | tell _ => exact .inr (.inl ⟨_, _, rfl, rfl, rfl⟩)
  | claim claim hmerged => exact .inl (by rw [hmerged.rest_eq])
  | key heq => exact .inl (by rw [heq])
  | judge _ hjudged => exact .inr (.inr ⟨_, _, rfl, hjudged, rfl, rfl⟩)
  | save properties hmerged => exact .inl (by rw [hmerged.rest_eq])
  | _ => exact .inl rfl

end Moves

end AccountGate.Account
