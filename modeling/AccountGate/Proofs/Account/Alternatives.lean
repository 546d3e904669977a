import AccountGate.Account.SupportClaim
import AccountGate.Proofs.Account.Roles

/-!
Fields that go by more than one name. Main statement: such a field is the first of its alternatives
that is usable, except where an empty text comes before all other texts, or roles that are neither a
list nor a text before those of the realm; these hide what comes after them.
-/

namespace AccountGate.Account

variable {value : Json} {name : String} {names : List String}

/-- A text that is not empty. -/
def usable : Option Json → Option String
  | some (.text s) => if s = "" then none else some s
  | _ => none

/-- The first usable text among the named members. -/
def firstUsable (value : Json) (names : List String) : Option String :=
  names.findSome? fun name => usable (value.get? name)

/-- The first text among the named members is empty, and one after it is usable. -/
def Hides (value : Json) (names : List String) : Prop :=
  ∃ before name after, names = before ++ name :: after ∧ value.get? name = some (.text "") ∧
    (∀ other ∈ before, ∀ s, value.get? other ≠ some (.text s)) ∧ firstUsable value after ≠ none

/-- What a field with these names holds, and what stands for it when none of them does. -/
structure Holds (value : Json) (names : List String) (otherwise field : String) : Prop where
  first : ¬ Hides value names → field = (firstUsable value names).getD otherwise
  hidden : Hides value names → field = otherwise ∧ firstUsable value names ≠ none

/-- A list or a text of roles. -/
def usableRoles : Option Json → Option Json
  | some (.array items) => some (.array items)
  | some (.text list) => some (.text list)
  | _ => none

/-- The roles of the realm that a token is for. -/
def realmRoles (claims : Json) : Option Json := (claims.get? "realm_access").bind (Json.get? "roles")

/-- There are roles, but no usable ones, and those of the realm would be. -/
def HidesRoles (claims : Json) : Prop :=
  claims.get? "roles" ≠ none ∧ usableRoles (claims.get? "roles") = none ∧
    usableRoles (realmRoles claims) ≠ none

section Text

variable {s : String}

theorem textField?_cons_text (h : value.get? name = some (.text s)) :
    textField? value (name :: names) = if s = "" then none else some s := by
  unfold textField?
  rw [List.findSome?_cons, h]
  by_cases hs : s = ""
  · rw [if_pos hs, hs]
    rfl
  · rw [if_neg hs]
    simp [Json.asText?, hs]

theorem firstUsable_cons_text (h : value.get? name = some (.text s)) :
    firstUsable value (name :: names) = if s = "" then firstUsable value names else some s := by
  unfold firstUsable
  rw [List.findSome?_cons, h, usable]
  by_cases hs : s = ""
  · rw [if_pos hs, if_pos hs]
  · rw [if_neg hs, if_neg hs]

theorem hides_cons_text (h : value.get? name = some (.text s)) :
    Hides value (name :: names) ↔ s = "" ∧ firstUsable value names ≠ none := by
  constructor
  · rintro ⟨before, found, after, hnames, hempty, hbefore, hafter⟩
    cases before with
    | nil =>
      obtain ⟨rfl, rfl⟩ := List.cons.inj hnames
      exact ⟨Json.text.inj (Option.some.inj (h.symm.trans hempty)), hafter⟩
    | cons other before =>
      obtain ⟨rfl, rfl⟩ := List.cons.inj hnames
      exact absurd h (hbefore _ List.mem_cons_self s)
  · rintro ⟨rfl, hafter⟩
    exact ⟨[], name, names, rfl, h, by simp, hafter⟩

end Text

section Other

variable (h : ∀ s, value.get? name ≠ some (.text s))

include h

theorem textField?_cons_other : textField? value (name :: names) = textField? value names := by
  have hnone : (value.get? name).bind Json.asText? = none := by
    rw [Option.bind_eq_none_iff]
    intro item hitem
    cases item with
    | text s => exact absurd hitem (h s)
    | _ => rfl
  unfold textField?
  rw [List.findSome?_cons, hnone]

theorem firstUsable_cons_other : firstUsable value (name :: names) = firstUsable value names := by
  have hnone : usable (value.get? name) = none := by
    unfold usable
    split
    · next s hs => exact absurd hs (h s)
    · rfl
  unfold firstUsable
  rw [List.findSome?_cons, hnone]

theorem hides_cons_other : Hides value (name :: names) ↔ Hides value names := by
  constructor
  · rintro ⟨before, found, after, hnames, hempty, hbefore, hafter⟩
    cases before with
    | nil =>
      obtain ⟨rfl, rfl⟩ := List.cons.inj hnames
      exact absurd hempty (h "")
    | cons other before =>
      obtain ⟨rfl, rfl⟩ := List.cons.inj hnames
      exact ⟨before, found, after, rfl, hempty, (List.forall_mem_cons.mp hbefore).2, hafter⟩
  · rintro ⟨before, found, after, rfl, hempty, hbefore, hafter⟩
    exact ⟨name :: before, found, after, rfl, hempty, List.forall_mem_cons.mpr ⟨h, hbefore⟩, hafter⟩

end Other

/-- Either the first usable text is found, or it is hidden and nothing is. -/
theorem textField?_eq (value : Json) (names : List String) :
    (¬ Hides value names → textField? value names = firstUsable value names) ∧
      (Hides value names → textField? value names = none ∧ firstUsable value names ≠ none) := by
  induction names with
  | nil =>
    refine ⟨fun _ => rfl, ?_⟩
    rintro ⟨before, name, after, hnames, -⟩
    exact absurd hnames (by simp)
  | cons name names ih =>
    by_cases htext : ∃ s, value.get? name = some (.text s)
    · obtain ⟨s, hs⟩ := htext
      rw [textField?_cons_text hs, firstUsable_cons_text hs, hides_cons_text hs]
      by_cases hempty : s = ""
      · -- The search ends here, whatever comes after.
        rw [if_pos hempty, if_pos hempty]
        refine ⟨fun hshown => ?_, fun hhidden => ⟨rfl, hhidden.2⟩⟩
        by_contra hfirst
        exact hshown ⟨hempty, fun hnone => hfirst hnone.symm⟩
      · rw [if_neg hempty, if_neg hempty]
        exact ⟨fun _ => rfl, fun hhidden => absurd hhidden.1 hempty⟩
    · rw [not_exists] at htext
      rw [textField?_cons_other htext, firstUsable_cons_other htext, hides_cons_other htext]
      exact ih

theorem holds_getD (value : Json) (names : List String) (otherwise : String) :
    Holds value names otherwise ((textField? value names).getD otherwise) where
  first hshown := by rw [(textField?_eq value names).1 hshown]
  hidden hhidden := by
    obtain ⟨hnone, hfirst⟩ := (textField?_eq value names).2 hhidden
    exact ⟨by rw [hnone]; rfl, hfirst⟩

theorem rolesOf_usableRoles (roles : Option Json) : rolesOf (usableRoles roles) = rolesOf roles := by
  rcases roles with _ | list
  · rfl
  · cases list <;> rfl

theorem rolesOf_of_unusable {roles : Option Json} (h : usableRoles roles = none) :
    rolesOf roles = [] := by
  rw [← rolesOf_usableRoles, h]
  rfl

theorem roles_of_shown (h : ¬ HidesRoles value) : rolesOf (claimedRoles value) =
    rolesOf ((usableRoles (value.get? "roles")).or (usableRoles (realmRoles value))) := by
  unfold HidesRoles at h
  rw [claimedRoles]
  cases hfound : value.get? "roles" with
  | none => exact (rolesOf_usableRoles _).symm
  | some list =>
    rw [hfound] at h
    rw [Option.some_or]
    cases husable : usableRoles (some list) with
    | some roles => rw [← rolesOf_usableRoles, husable, Option.some_or]
    | none =>
      have hrealm : usableRoles (realmRoles value) = none := by
        by_contra hrealm
        exact h ⟨by simp, husable, hrealm⟩
      rw [rolesOf_of_unusable husable, hrealm]
      rfl

theorem roles_of_hidden (h : HidesRoles value) : rolesOf (claimedRoles value) = [] := by
  obtain ⟨hthere, hunusable, -⟩ := h
  obtain ⟨list, hlist⟩ := Option.ne_none_iff_exists'.mp hthere
  rw [hlist] at hunusable
  rw [claimedRoles, hlist, Option.some_or]
  exact rolesOf_of_unusable hunusable

/-- The fields with alternatives, in a record of the service or a license, in a support claim and in
the claims of a token. Each text is the first usable one among its alternatives, and so an
alternative that is missing, null or no text never hides another; but where the first text of them is
empty and a later one is usable, the field is as if there were none. Roles are those of the first
alternative that is a list or a text, but where there are roles of another kind and the realm has
usable ones, there are none. -/
theorem alternatives_count_unless_hidden (value : Json) (known : String) :
    Holds value ["nextgis_guid", "user_id"] "" (User.ofRecord value).userId ∧
    Holds value ["nextgis_guid", "user_id"] known (SupportClaim.ofRecord value known).userId ∧
    Holds value ["given_name", "first_name"] "" (User.ofClaims value).firstName ∧
    Holds value ["family_name", "last_name"] "" (User.ofClaims value).lastName ∧
    (¬ HidesRoles value → (User.ofClaims value).roles =
      rolesOf ((usableRoles (value.get? "roles")).or (usableRoles (realmRoles value)))) ∧
    (HidesRoles value → (User.ofClaims value).roles = []) := by
  rw [roles_ofClaims]
  exact ⟨holds_getD value _ "", holds_getD value _ known, holds_getD value _ "",
    holds_getD value _ "", roles_of_shown, roles_of_hidden⟩

/-- An empty text hides the name of the user, and null hides the roles of the realm. -/
theorem empty_name_hides_user :
    let record : Json := .object [("nextgis_guid", .text ""), ("user_id", .text "u1")]
    let claims : Json := .object [("given_name", .text ""), ("first_name", .text "Ada"),
      ("realm_access", .object [("roles", .array [.text "admin"])]), ("roles", .null)]
    firstUsable record ["nextgis_guid", "user_id"] = some "u1" ∧
    (User.ofRecord record).userId = "" ∧ (SupportClaim.ofRecord record "u0").userId = "u0" ∧
    firstUsable claims ["given_name", "first_name"] = some "Ada" ∧
    (User.ofClaims claims).firstName = "" ∧
    rolesOf (usableRoles (realmRoles claims)) = ["admin"] ∧ (User.ofClaims claims).roles = [] := by
  decide

end AccountGate.Account
