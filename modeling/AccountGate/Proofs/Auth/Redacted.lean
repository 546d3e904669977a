import AccountGate.Proofs.Auth.Exchange
import AccountGate.Proofs.Json.Members

/-!
Bodies of the token server that differ in their tokens. A token is hidden behind one word, so that a
body tells whether there is one and no more. Main statement: what is read from two bodies that are
the same with their tokens hidden is the same with its tokens hidden.
-/

namespace AccountGate

/-- What stands in place of a token. -/
def hidden (token : String) : String := if token = "" then "" else "[REDACTED]"

/-- The members whose texts are tokens. -/
def tokenNames : List String := ["access_token", "refresh_token"]

theorem hidden_eq_empty_iff {token : String} : hidden token = "" ↔ token = "" := by
  rw [hidden]
  split <;> simp_all

namespace Json

mutual

/-- A value with the tokens in it hidden, at any depth; the value may be a token itself. -/
def redact (token : Bool) : Json → Json
  | .text s => .text (if token then hidden s else s)
  | .array items => .array (redactItems items)
  | .object members => .object (redactMembers members)
  | value => value

def redactItems : List Json → List Json
  | [] => []
  | item :: rest => redact false item :: redactItems rest

def redactMembers : List (String × Json) → List (String × Json)
  | [] => []
  | (name, value) :: rest => (name, redact (tokenNames.contains name) value) :: redactMembers rest

end

/-- A member as it is listed, with the tokens in it hidden. -/
def redactMember (member : String × Option Json) : String × Option Json :=
  (member.1, member.2.map (redact (tokenNames.contains member.1)))

end Json

namespace Auth

open Json (redact redactMember)
open Json.Record (Fields keep read? inOrder read?_eq_some_iff_of_not_object expect_object_of_array)

namespace TokenResponse

/-- The fields of a response in their order; the first two are the tokens. -/
def fieldNames : List String :=
  ["access_token", "refresh_token", "expires_in", "error", "error_description"]

/-- The fields in their order with the tokens hidden. -/
def redactPlaces (items : List Json) : List Json := items.mapIdx fun i => redact (i < 2)

def redactFields (fields : Fields) : Fields := fields.mapIdx fun i => Option.map (redact (i < 2))

/-- The response with its tokens hidden. -/
def redacted (t : TokenResponse) : TokenResponse :=
  { t with
    accessToken := t.accessToken.map hidden
    refreshToken := t.refreshToken.map hidden }

section Shown

variable (t : TokenResponse)

theorem rejection?_redacted : t.redacted.rejection? = t.rejection? := rfl

theorem shown_redacted : t.redacted.shown = t.shown := by
  have hword (s : Option String) :
      shownOption (fun _ => Text.quoted "[REDACTED]") (s.map hidden) =
        shownOption (fun _ => Text.quoted "[REDACTED]") s := by
    cases s with
    | none => rfl
    | some s => simp only [Option.map_some, shownOption]
  unfold shown
  dsimp only [redacted]
  rw [hword, hword]

theorem filled_map_hidden (s : Option String) : filled (s.map hidden) = (filled s).map hidden := by
  cases s with
  | none => rfl
  | some s =>
    by_cases hs : s = "" <;> simp [filled, Option.filter_some, hs, hidden]

end Shown

section Fields

variable {body : Bytes}

theorem text?_redact_token (value : Option Json) :
    text? (value.map (redact true)) = (text? value).map (Option.map hidden) := by
  rcases value with _ | _ | _ | _ | _ | _ | _ <;> rfl

theorem text?_redact (value : Option Json) : text? (value.map (redact false)) = text? value := by
  rcases value with _ | _ | _ | _ | _ | _ | _ <;> rfl

theorem seconds?_redact (value : Option Json) :
    (value.map (redact false)).bind seconds? = value.bind seconds? := by
  rcases value with _ | _ | _ | _ | _ | _ | _ <;> rfl

theorem getD_redactFields (fields : Fields) (i : Nat) :
    (redactFields fields).getD i none = (fields.getD i none).map (redact (i < 2)) := by
  rw [redactFields, List.getD_eq_getElem?_getD, List.getElem?_mapIdx, List.getD_eq_getElem?_getD]
  cases fields[i]? <;> rfl

/-- What the fields of a response say. -/
def ofFields? (fields : Fields) : Option TokenResponse := do
  return {
    accessToken := ← text? (fields.getD 0 none)
    refreshToken := ← text? (fields.getD 1 none)
    expiresIn := (fields.getD 2 none).bind seconds?
    error := ← text? (fields.getD 3 none)
    errorDescription := ← text? (fields.getD 4 none) }

theorem parse?_eq (body : Bytes) : parse? body = (read? fieldNames body).bind ofFields? := rfl

theorem ofFields?_redactFields (fields : Fields) :
    ofFields? (redactFields fields) = (ofFields? fields).map redacted := by
  simp only [ofFields?, getD_redactFields]
  simp only [Nat.reduceLT, decide_true, decide_false, text?_redact, seconds?_redact,
    text?_redact_token]
  cases text? (fields.getD 0 none) with
  | none => rfl
  | some access =>
    cases text? (fields.getD 1 none) with
    | none => rfl
    | some refresh =>
      cases text? (fields.getD 3 none) with
      | none => rfl
      | some error => cases text? (fields.getD 4 none) <;> rfl

/-- The names of the tokens come first. -/
theorem contains_tokenNames_get (i : Fin fieldNames.length) :
    tokenNames.contains (fieldNames.get i) = decide (i.val < 2) := by
  revert i
  decide

theorem contains_tokenNames_of_idxOf? {name : String} {i : Nat}
    (h : fieldNames.idxOf? name = some i) : tokenNames.contains name = decide (i < 2) := by
  obtain ⟨hlt, rfl, -⟩ := List.idxOf?_eq_some_iff.mp h
  exact contains_tokenNames_get ⟨i, hlt⟩

theorem redactFields_set (fields : Fields) (i : Nat) (value : Json) :
    redactFields (fields.set i (some value)) =
      (redactFields fields).set i (some (redact (i < 2) value)) := by
  refine List.ext_getElem? fun j => ?_
  simp only [redactFields, List.getElem?_mapIdx, List.getElem?_set, List.length_mapIdx]
  by_cases hij : i = j
  · subst hij
    by_cases hlt : i < fields.length <;> simp [hlt]
  · simp [hij]

/-- A member is kept as before when the tokens are hidden. -/
theorem keep_redactMember (fields : Fields) (member : String × Option Json) :
    keep fieldNames (redactFields fields) (redactMember member) =
      (keep fieldNames fields member).map redactFields := by
  obtain ⟨name, value⟩ := member
  simp only [keep, redactMember]
  cases hi : fieldNames.idxOf? name with
  | none => rfl
  | some i =>
    dsimp only
    rw [getD_redactFields, Option.isNone_map, contains_tokenNames_of_idxOf? hi]
    generalize (guard ((fields.getD i none).isNone = true) : Option Unit) = free
    cases free with
    | none => rfl
    | some _ =>
      cases value with
      | none => rfl
      | some value => exact congrArg some (redactFields_set fields i value).symm

/-- So are all members of an object. -/
theorem foldlM_keep_redactMember (fields : Fields) (members : List (String × Option Json)) :
    (members.map redactMember).foldlM (keep fieldNames) (redactFields fields) =
      (members.foldlM (keep fieldNames) fields).map redactFields := by
  induction members generalizing fields with
  | nil => rfl
  | cons member rest ih =>
    rw [List.map_cons, List.foldlM_cons, List.foldlM_cons, keep_redactMember]
    cases keep fieldNames fields member with
    | none => rfl
    | some taken => exact ih taken

theorem redactFields_inOrder (items : List Json) :
    redactFields (inOrder fieldNames.length items) =
      inOrder fieldNames.length (redactPlaces items) := by
  refine List.ext_getElem? fun j => ?_
  simp only [redactFields, redactPlaces, List.getElem?_mapIdx, inOrder, List.getElem?_append,
    List.getElem?_map, List.getElem?_replicate, List.length_map, List.length_mapIdx]
  by_cases hj : j < items.length
  · rw [if_pos hj, if_pos hj, List.getElem?_eq_getElem hj]
    rfl
  · rw [if_neg hj, if_neg hj]
    split <;> rfl

/-- The fields of an array of not too many items. -/
theorem read?_of_array {items : List Json} (h : Json.parse? body = some (.array items)) :
    read? fieldNames body =
      if items.length ≤ fieldNames.length then some (inOrder fieldNames.length items)
      else none := by
  ext fields
  rw [read?_eq_some_iff_of_not_object (expect_object_of_array h), h]
  simp only [Option.some.injEq, Json.array.injEq, exists_eq_left', Option.ite_none_right_eq_some]
  exact and_congr_right fun _ => eq_comm

end Fields

end TokenResponse

/-- Two bodies that differ in nothing but their tokens. -/
inductive BodiesAlike : Bytes → Bytes → Prop
  | same (body : Bytes) : BodiesAlike body body
  | objects {body body' : Bytes} {members members' : List (String × Option Json)} :
      Json.members? body = some members → Json.members? body' = some members' →
      members.map redactMember = members'.map redactMember → BodiesAlike body body'
  | arrays {body body' : Bytes} {items items' : List Json} :
      Json.parse? body = some (.array items) → Json.parse? body' = some (.array items') →
      TokenResponse.redactPlaces items = TokenResponse.redactPlaces items' →
      BodiesAlike body body'

theorem BodiesAlike.symm {body body' : Bytes} (h : BodiesAlike body body') :
    BodiesAlike body' body := by
  cases h with
  | same => exact .same _
  | objects hbody hbody' hsame => exact .objects hbody' hbody hsame.symm
  | arrays hbody hbody' hsame => exact .arrays hbody' hbody hsame.symm

/-- With its tokens hidden, the response is the same from both. -/
theorem BodiesAlike.parse? {body body' : Bytes} (h : BodiesAlike body body') :
    (TokenResponse.parse? body).map TokenResponse.redacted =
      (TokenResponse.parse? body').map TokenResponse.redacted := by
  have hmap (body : Bytes) : (TokenResponse.parse? body).map TokenResponse.redacted =
      ((read? TokenResponse.fieldNames body).map TokenResponse.redactFields).bind
        TokenResponse.ofFields? := by
    rw [TokenResponse.parse?_eq]
    cases read? TokenResponse.fieldNames body with
    | none => rfl
    | some fields => exact (TokenResponse.ofFields?_redactFields fields).symm
  rw [hmap, hmap]
  refine congrArg (Option.bind · _) ?_
  cases h with
  | same => rfl
  | objects hbody hbody' hsame =>
    rw [Json.Record.read?_of_members? hbody, Json.Record.read?_of_members? hbody',
      ← TokenResponse.foldlM_keep_redactMember, ← TokenResponse.foldlM_keep_redactMember, hsame]
  | arrays hbody hbody' hsame =>
    have hlength := congrArg List.length hsame
    rw [TokenResponse.redactPlaces, TokenResponse.redactPlaces, List.length_mapIdx,
      List.length_mapIdx] at hlength
    rw [TokenResponse.read?_of_array hbody, TokenResponse.read?_of_array hbody', hlength]
    split
    · rw [Option.map_some, Option.map_some, TokenResponse.redactFields_inOrder,
        TokenResponse.redactFields_inOrder, hsame]
    · rfl

end Auth

end AccountGate
