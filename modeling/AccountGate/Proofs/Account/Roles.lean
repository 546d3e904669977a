import AccountGate.Proofs.Account.Vouching
import AccountGate.Proofs.Text.Pieces
import AccountGate.Proofs.Text.Trimmed

/-!
Users that are stored and read again. Main statement: the identity of a user comes back from any
settings, and each role comes back as the roles that it is a list of; so the roles are the same
exactly where each is a single one, as those of a comma-separated list always are.
-/

namespace AccountGate.Account

/-- A text that is one role of a comma-separated list, and nothing else. -/
structure IsRole (role : String) : Prop where
  filled : role ≠ ""
  unseparated : ',' ∉ role.toList
  trimmed : Text.trim role = role

theorem isRole_iff {role : String} :
    IsRole role ↔ role ≠ "" ∧ ',' ∉ role.toList ∧ Text.trim role = role :=
  ⟨fun h => ⟨h.filled, h.unseparated, h.trimmed⟩, fun ⟨h, h', h''⟩ => ⟨h, h', h''⟩⟩

instance (role : String) : Decidable (IsRole role) := decidable_of_iff _ isRole_iff.symm

theorem splitRoles_eq (list : String) : splitRoles list =
    ((Text.pieces ',' list.toList).map fun piece => String.ofList (Text.trimChars piece)).filter
      fun role => !role.isEmpty := by
  unfold splitRoles Text.split
  rw [List.map_map]
  congr 2
  funext piece
  simp [Text.trim]

theorem isRole_of_mem_splitRoles {list role : String} (h : role ∈ splitRoles list) : IsRole role := by
  rw [splitRoles_eq, List.mem_filter, List.mem_map] at h
  obtain ⟨⟨piece, hpiece, rfl⟩, hfilled⟩ := h
  refine ⟨by simpa using hfilled, fun hmem => ?_, ?_⟩
  · rw [String.toList_ofList] at hmem
    exact Text.not_mem_of_mem_pieces hpiece ((Text.trimChars_infix piece).subset hmem)
  · rw [Text.trim, String.toList_ofList, Text.trimChars_trimChars]

theorem splitRoles_eq_singleton_iff {role : String} : splitRoles role = [role] ↔ IsRole role := by
  constructor
  · intro h
    have hmem : role ∈ splitRoles role := by
      rw [h]
      exact List.mem_singleton_self role
    exact isRole_of_mem_splitRoles hmem
  · intro h
    have htrim : String.ofList (Text.trimChars role.toList) = role := h.trimmed
    rw [splitRoles_eq, Text.pieces_of_not_mem h.unseparated, List.map_singleton, htrim,
      List.filter_singleton, show role.isEmpty = false by simpa using h.filled]
    rfl

theorem splitRoles_empty : splitRoles "" = [] := by decide

/-- Roles that are joined come back as the roles that each of them is a list of. -/
theorem splitRoles_joinRoles (roles : List String) :
    splitRoles (User.joinRoles roles) = roles.flatMap splitRoles := by
  by_cases hroles : roles = []
  · subst hroles
    exact splitRoles_empty
  · have hpieces : Text.pieces ',' (User.joinRoles roles).toList =
        (roles.map String.toList).flatMap (Text.pieces ',') := by
      rw [User.joinRoles, String.toList_intercalate]
      exact Text.pieces_intercalate ',' (by simpa using hroles)
    rw [splitRoles_eq, hpieces, List.flatMap_map, List.map_flatMap, List.filter_flatMap]
    apply List.flatMap_congr
    intro role _
    rw [splitRoles_eq]

/-- Roles stay what they are exactly where each is a single one. -/
theorem flatMap_splitRoles_eq_self_iff {roles : List String} :
    roles.flatMap splitRoles = roles ↔ ∀ role ∈ roles, IsRole role := by
  constructor
  · intro h role hrole
    rw [← h, List.mem_flatMap] at hrole
    obtain ⟨list, -, hmem⟩ := hrole
    exact isRole_of_mem_splitRoles hmem
  · intro h
    have hone : ∀ role ∈ roles, splitRoles role = [role] :=
      fun role hrole => splitRoles_eq_singleton_iff.mpr (h role hrole)
    rw [List.flatMap_congr hone, List.flatMap_singleton']

namespace User

theorem nodup_changes (user : User) : (user.changes.map Prod.fst).Nodup := by
  simp [changes, Key.userId, Key.firstName, Key.lastName, Key.email, Key.roles]

/-- The user as the settings give it back. -/
def readBack (user : User) : User := { user with roles := user.roles.flatMap splitRoles }

theorem ofSettings_merge (stored : Settings) (user : User) :
    ofSettings (stored.merge user.changes) = user.readBack := by
  have hget (key text : String) (hmem : (key, text) ∈ user.changes) :
      (stored.merge user.changes).get? key = some text :=
    Settings.get?_merge_of_nodup user.nodup_changes hmem stored
  have hroles : ((stored.merge user.changes).value? Key.roles).map splitRoles =
      (some (joinRoles user.roles)).bind fun list =>
        if list = "" then none else some (splitRoles list) := by
    rw [Settings.value?, hget _ (joinRoles user.roles) (by simp [changes])]
    by_cases hempty : joinRoles user.roles = ""
    · simp [hempty]
    · simp [hempty]
  have hjoined : (((stored.merge user.changes).value? Key.roles).map splitRoles).getD [] =
      user.roles.flatMap splitRoles := by
    rw [hroles, ← splitRoles_joinRoles, Option.bind_some]
    by_cases hempty : joinRoles user.roles = ""
    · rw [if_pos hempty, hempty, splitRoles_empty]
      rfl
    · rw [if_neg hempty]
      rfl
  rw [ofSettings, hjoined, Settings.value_of_get? (hget _ user.userId (by simp [changes])),
    Settings.value_of_get? (hget _ user.firstName (by simp [changes])),
    Settings.value_of_get? (hget _ user.lastName (by simp [changes])),
    Settings.value_of_get? (hget _ user.email (by simp [changes]))]
  rfl

theorem readBack_eq_self_iff {user : User} :
    user.readBack = user ↔ ∀ role ∈ user.roles, IsRole role := by
  rw [← flatMap_splitRoles_eq_self_iff]
  constructor
  · intro h
    exact congrArg User.roles h
  · intro h
    unfold readBack
    rw [h]

end User

/-- Every text in a list of roles is a single role; a comma-separated list is always such. -/
def Separate (roles : Option Json) : Prop :=
  ∀ items, roles = some (.array items) → ∀ role, .text role ∈ items → IsRole role

theorem forall_mem_rolesOf_iff {roles : Option Json} :
    (∀ role ∈ rolesOf roles, IsRole role) ↔ Separate roles := by
  unfold Separate
  rcases roles with _ | json
  · simp [rolesOf]
  · cases json with
    | array items =>
      have hmem (role : String) : role ∈ rolesOf (some (.array items)) ↔ .text role ∈ items := by
        rw [rolesOf, List.mem_filterMap]
        constructor
        · rintro ⟨item, hitem, htext⟩
          cases item with
          | text s =>
            obtain rfl := Option.some.inj htext
            exact hitem
          | _ => exact absurd htext (by simp [Json.asText?])
        · intro hitem
          exact ⟨_, hitem, rfl⟩
      simp [hmem]
    | text list =>
      refine iff_of_true (fun role hrole => isRole_of_mem_splitRoles hrole) ?_
      simp
    | _ => simp [rolesOf]

/-- Where the claims of a token keep the roles. -/
def claimedRoles (claims : Json) : Option Json :=
  (claims.get? "roles").or ((claims.get? "realm_access").bind (Json.get? "roles"))

theorem roles_ofClaims (claims : Json) : (User.ofClaims claims).roles = rolesOf (claimedRoles claims) := by
  rw [claimedRoles, User.ofClaims]
  cases claims.get? "roles" <;> rfl

theorem readBack_ofRecord_iff {record : Json} :
    (User.ofRecord record).readBack = User.ofRecord record ↔ Separate (record.get? "roles") :=
  User.readBack_eq_self_iff.trans forall_mem_rolesOf_iff

theorem readBack_ofClaims_iff {claims : Json} :
    (User.ofClaims claims).readBack = User.ofClaims claims ↔ Separate (claimedRoles claims) := by
  rw [User.readBack_eq_self_iff, roles_ofClaims]
  exact forall_mem_rolesOf_iff

section Run

open AccountGate.Flow (Alone Makes alone_bind_iff alone_done_iff alone_ask_of_reply)

variable {α : Type} {s t : Shared} {xs : List (Exchange interface)} {cfg : Config}

/-- A call that leaves alone who is signed in. -/
def Call.KeepsUser (c : Call) : Prop := ∀ session : Session,
  (c.onSession session).authorized = session.authorized ∧ (c.onSession session).user = session.user

theorem Call.SparesSession.keepsUser {c : Call} (h : c.SparesSession) : c.KeepsUser := by
  intro session
  cases c with
  | setSession _ => exact h.elim
  | setUser _ _ => exact h.elim
  | setSupported _ => exact h.elim
  | _ => exact ⟨rfl, rfl⟩

theorem keepsUser_of_alone {p : Program α} {a : α} (hp : Makes Call.KeepsUser p)
    (h : Alone Shared.step p s xs a t) :
    t.session.authorized = s.session.authorized ∧ t.session.user = s.session.user := by
  apply h.solo.keeps hp _ ⟨rfl, rfl⟩
  intro v c r v' hc _ hv hstep
  rw [(Shared.frames_of_step hstep).session_eq]
  exact ⟨(hc v.session).1.trans hv.1, (hc v.session).2.trans hv.2⟩

namespace Program

theorem keepsUser_updateSupported : Makes Call.KeepsUser updateSupported := by
  rw [updateSupported_eq, checkStored_eq]
  have hcheck (claim : License.Entitlement) : Makes Call.KeepsUser (check claim) :=
    makes_check_of (fun _ => ⟨rfl, rfl⟩) (fun _ => ⟨rfl, rfl⟩) (fun _ _ => ⟨rfl, rfl⟩) claim
  refine ⟨fun _ => ⟨rfl, rfl⟩, fun _ => Makes.bind ?_ fun _ => ?_⟩
  · exact ⟨fun _ => ⟨rfl, rfl⟩, fun _ => ⟨fun _ => ⟨rfl, rfl⟩, fun _ => hcheck _⟩⟩
  · exact ⟨fun _ => ⟨rfl, rfl⟩, fun _ => ⟨fun _ => ⟨rfl, rfl⟩, fun _ => trivial⟩⟩

theorem keepsUser_saveIfChanged (cfg : Config) (before : TokenPair) :
    Makes Call.KeepsUser (saveIfChanged cfg before) :=
  (spares_saveIfChanged cfg before).mono fun _ hc => hc.keepsUser

/-- The session is told of the user that is stored, and that stays so to the end of the job. -/
theorem alone_tell {known : String} {before : TokenPair} {found : Settings}
    (h : Alone Shared.step (tell cfg known before found) s xs () t) :
    t.session.authorized = (userOf found).1 ∧ t.session.user = (userOf found).2 := by
  rw [tell, alone_ask_of_reply rfl, alone_ask_of_reply rfl] at h
  refine keepsUser_of_alone ?_ h
  split
  · exact keepsUser_saveIfChanged cfg before
  · refine keepsUser_updateSupported.bind fun _ => ⟨fun _ => ⟨rfl, rfl⟩, fun _ => ?_⟩
    exact keepsUser_saveIfChanged cfg before

end Program

/-- A user that a record of the service, a license or the claims of a token describe. -/
def User.IsDescribed (user : User) : Prop :=
  (∃ record, user = .ofRecord record) ∨ ∃ claims, user = .ofClaims claims

theorem isDescribed_of_tokenOutcome {properties : Auth.Properties} {user : User}
    (h : tokenOutcome properties = .ok (some user)) : user.IsDescribed := by
  unfold tokenOutcome at h
  split at h
  · exact absurd h (by simp)
  · next token _ =>
    cases hclaims : claims token with
    | error e => exact absurd (hclaims ▸ h) (by simp [Except.map])
    | ok value =>
      rw [hclaims, Except.map, Except.ok.injEq, Option.ite_none_left_eq_some] at h
      exact .inr ⟨value, (Option.some.inj h.2).symm⟩

theorem isDescribed_of_fetchUser {user : User}
    (h : Alone Shared.step (Program.fetchUser cfg).run s xs (.ok (some user)) t) :
    user.IsDescribed := by
  rw [Program.run_fetchUser, alone_ask_of_reply rfl] at h
  generalize LicenseFile.read s.disk s.licenseDir = license at h
  rcases license with e | _ | record
  · have hresult := (alone_done_iff.mp h).2.1
    exact absurd hresult (by simp)
  · obtain ⟨_, ys, body, u, _, _, h⟩ := alone_bind_iff.mp h
    cases body with
    | ok record =>
      obtain ⟨_, hresult, _⟩ := alone_done_iff.mp h
      exact .inl ⟨record, (Option.some.inj (Except.ok.inj hresult)).symm⟩
    | error e =>
      change Alone _ (ite (cfg.tokenClaims = true) _ _) _ _ _ _ at h
      split at h
      · rw [Program.run_userOfToken] at h
        obtain ⟨_, _, properties, _, _, _, h⟩ := alone_bind_iff.mp h
        exact isDescribed_of_tokenOutcome (alone_done_iff.mp h).2.1
      · have hresult := (alone_done_iff.mp h).2.1
        exact absurd hresult (by simp)
  · obtain ⟨_, hresult, _⟩ := alone_done_iff.mp h
    exact .inl ⟨record, (Option.some.inj (Except.ok.inj hresult)).symm⟩

/-- The user that the session has once this one has been stored. -/
def User.shown (user : User) : User := if user.isEmpty then {} else user.readBack

theorem userOf_merge (stored : Settings) (user : User) :
    userOf (stored.merge user.changes) = (!user.isEmpty, user.shown) := by
  have hthere : ((stored.merge user.changes).value? Key.userId).isSome = !user.isEmpty := by
    rw [Bool.eq_iff_iff, Settings.isSome_value?_iff, Settings.value_userId_merge_user]
    simp [User.isEmpty]
  rw [userOf, hthere, User.ofSettings_merge, User.shown]
  cases user.isEmpty <;> rfl

/-- What a job for the user tells the session of a user that it fetches, where the store takes it. -/
theorem alone_refreshUser (h : Alone Shared.step (Program.refreshUser cfg) s xs () t) :
    ∃ looked asked rest found result u v, xs = looked ++ (asked ++ rest) ∧
      Alone Shared.step (Program.look cfg) s looked found u ∧
      Alone Shared.step (Program.fetchUser cfg).run u asked result v ∧
      ∀ user, result = .ok (some user) → user.IsDescribed ∧
        ((v.store.apply v.disk user.changes).1 = .ok () →
          t.session.authorized = !user.isEmpty ∧ t.session.user = user.shown) := by
  rw [Program.refreshUser_eq_look] at h
  obtain ⟨looked, xs', found, u, rfl, hlook, h⟩ := alone_bind_iff.mp h
  obtain ⟨asked, rest, result, v, rfl, hfetch, h⟩ := alone_bind_iff.mp h
  refine ⟨looked, asked, rest, found, result, u, v, rfl, hlook, hfetch, ?_⟩
  rintro user rfl
  refine ⟨isDescribed_of_fetchUser hfetch, fun hstored => ?_⟩
  obtain ⟨stored, v', hstep⟩ : ∃ stored v', v.step (.apply user.changes) = .reply stored v' :=
    ⟨_, _, rfl⟩
  have hok : stored = .ok () := (Outcome.reply.inj hstep).1.symm.trans hstored
  subst hok
  change Alone _ (Flow.ask (I := interface) (Call.apply user.changes) fun _ =>
    .ask Call.settings (Program.tell cfg found.1 found.2)) _ _ _ _ at h
  rw [alone_ask_of_reply hstep, alone_ask_of_reply rfl,
    (Shared.merged_of_apply hstep).settings_eq] at h
  have htold := Program.alone_tell h
  rw [userOf_merge] at htold
  exact htold

end Run

/-- Users come back from the settings with the same identity, and with the roles that each role is a
list of: the same ones exactly where each text in an array of roles is a single role. So the session
has the user that the service, a license or a token describes, but for the roles that are none. -/
theorem stored_users_come_back_with_single_roles (cfg : Config) (stored : Settings) :
    (∀ user : User, User.ofSettings (stored.merge user.changes) =
      { user with roles := user.roles.flatMap splitRoles }) ∧
    (∀ record : Json,
      User.ofSettings (stored.merge (User.ofRecord record).changes) = User.ofRecord record ↔
        Separate (record.get? "roles")) ∧
    (∀ claims : Json,
      User.ofSettings (stored.merge (User.ofClaims claims).changes) = User.ofClaims claims ↔
        Separate (claimedRoles claims)) ∧
    ∀ (s t : Shared) (xs : List (Exchange interface)),
      Flow.Alone Shared.step (Program.refreshUser cfg) s xs () t →
      ∃ looked asked rest found result u v, xs = looked ++ (asked ++ rest) ∧
        Flow.Alone Shared.step (Program.look cfg) s looked found u ∧
        Flow.Alone Shared.step (Program.fetchUser cfg).run u asked result v ∧
        ∀ user, result = .ok (some user) → user.IsDescribed ∧
          ((v.store.apply v.disk user.changes).1 = .ok () →
            t.session.authorized = !user.isEmpty ∧
            t.session.user = if user.isEmpty then {} else
              { user with roles := user.roles.flatMap splitRoles }) :=
  ⟨User.ofSettings_merge stored,
    fun record => by rw [User.ofSettings_merge]; exact readBack_ofRecord_iff,
    fun claims => by rw [User.ofSettings_merge]; exact readBack_ofClaims_iff,
    fun _ _ _ h => alone_refreshUser h⟩

/-- A role with a comma comes back as two. -/
theorem role_with_comma_comes_back_as_two :
    let record : Json := .object [("user_id", .text "u1"), ("roles", .array [.text "a,b"])]
    (User.ofRecord record).roles = ["a,b"] ∧
    (User.ofSettings (.ofEntries (User.ofRecord record).changes)).roles = ["a", "b"] ∧
    User.ofSettings (.ofEntries (User.ofRecord record).changes) ≠ User.ofRecord record := by
  decide

end AccountGate.Account
