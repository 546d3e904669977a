import AccountGate.Json.Record
import AccountGate.Proofs.Json.Fuel

/-!
What records are read from. Main statements: an array is a record exactly when it has no more items
than there are names, and it gives them in order; and what is not an array is an object, whose
members say what the fields of their names are.
-/

namespace AccountGate.Json.Record

variable {bs rest : Bytes} {names : List String} {fields : Fields}

/-- Some fields in order, and nothing for the others. -/
def inOrder (count : Nat) (items : List Json) : Fields :=
  items.map some ++ List.replicate (count - items.length) none

theorem getD_inOrder {count i : Nat} {items : List Json} :
    (inOrder count items).getD i none = items[i]? := by
  rw [inOrder, List.getD_eq_getElem?_getD, List.getElem?_append]
  split
  · next hi =>
    rw [List.length_map] at hi
    simp [hi]
  · next hi =>
    rw [List.length_map] at hi
    rw [List.getElem?_eq_none (Nat.le_of_not_lt hi), List.getElem?_replicate]
    split <;> rfl

theorem readItems_eq_some_iff {left : Nat} : readItems left bs = some (fields, rest) ↔
    ∃ items, Json.readItems (fuelFor bs) (maxDepth - 1) bs = some (items, rest) ∧
      items.length ≤ left ∧ fields = inOrder left items := by
  induction left generalizing bs fields with
  | zero =>
    refine iff_of_false (by simp [readItems]) ?_
    rintro ⟨items, hitems, hlength, -⟩
    obtain ⟨v, more, -, ⟨back, vs, -, -, rfl⟩ | ⟨-, -, rfl⟩⟩ := readItems_fuelFor_iff.mp hitems
    · exact absurd hlength (by simp)
    · exact absurd hlength (by simp)
  | succ left ih =>
    rw [readItems]
    simp only [Option.bind_eq_bind, Option.bind_eq_some_iff]
    constructor
    · rintro ⟨⟨v, more⟩, hvalue, h⟩
      dsimp only at h
      cases hcomma : expect 44 more with
      | some back =>
        rw [hcomma] at h
        simp only [Option.bind_eq_some_iff] at h
        obtain ⟨⟨fields', rest'⟩, hitems, h⟩ := h
        obtain ⟨rfl, rfl⟩ := Prod.mk.inj (Option.some.inj h)
        obtain ⟨items, hread, hlength, rfl⟩ := ih.mp hitems
        refine ⟨v :: items, readItems_fuelFor_iff.mpr ⟨v, more, hvalue,
          .inl ⟨back, items, hcomma, hread, rfl⟩⟩, by simpa using hlength, ?_⟩
        simp [inOrder]
      | none =>
        rw [hcomma] at h
        simp only [Option.bind_eq_some_iff] at h
        obtain ⟨rest', hclose, h⟩ := h
        obtain ⟨rfl, rfl⟩ := Prod.mk.inj (Option.some.inj h)
        exact ⟨[v], readItems_fuelFor_iff.mpr ⟨v, more, hvalue, .inr ⟨hcomma, hclose, rfl⟩⟩,
          by simp, by simp [inOrder]⟩
    · rintro ⟨items, hitems, hlength, rfl⟩
      obtain ⟨v, more, hvalue, hcase⟩ := readItems_fuelFor_iff.mp hitems
      refine ⟨⟨v, more⟩, hvalue, ?_⟩
      rcases hcase with ⟨back, vs, hcomma, hread, rfl⟩ | ⟨hcomma, hclose, rfl⟩
      · have hless : vs.length ≤ left := by simpa using hlength
        simp only [hcomma, ih.mpr ⟨vs, hread, hless, rfl⟩, Option.bind_some]
        simp [inOrder]
      · simp [hcomma, hclose, inOrder]

/-- What starts with a bracket has one after its blanks. -/
theorem expect_eq_some_iff {b : UInt8} : expect b bs = some rest ↔ skipSpace bs = b :: rest := by
  rw [expect]
  cases skipSpace bs with
  | nil => simp
  | cons c more =>
    dsimp only
    split
    · next hc => simp [hc]
    · next hc => simp [hc]

/-- What is read as an array, without a bound on the steps. -/
theorem parse?_eq_array_iff {items : List Json} : Json.parse? bs = some (.array items) ↔
    ∃ rest back, expect 91 bs = some rest ∧ skipSpace back = [] ∧
      (expect 93 rest = some back ∧ items = [] ∨ expect 93 rest = none ∧
        Json.readItems (fuelFor rest) (maxDepth - 1) rest = some (items, back)) := by
  have hfuel : fuelFor bs = 2 * bs.length + 1 + 1 := rfl
  have hdepth : maxDepth = maxDepth - 1 + 1 := rfl
  have hparse : Json.parse? bs = some (.array items) ↔ ∃ back,
      readValue (fuelFor bs) maxDepth bs = some (.array items, back) ∧ skipSpace back = [] := by
    simp only [Json.parse?, Option.bind_eq_bind, Option.bind_eq_some_iff, Option.guard_eq_some']
    constructor
    · rintro ⟨⟨v, back⟩, hvalue, _, hrest, h⟩
      obtain rfl := Option.some.inj h
      exact ⟨back, hvalue, by simpa using hrest⟩
    · rintro ⟨back, hvalue, hrest⟩
      exact ⟨_, hvalue, (), by simpa using hrest, rfl⟩
  rw [hparse, hfuel, hdepth]
  simp only [readValue_succ_iff]
  constructor
  · rintro ⟨back, hvalue, hend⟩
    generalize hspace : skipSpace bs = opened at hvalue
    cases hvalue with
    | emptyArray hclose =>
      exact ⟨_, back, expect_eq_some_iff.mpr hspace, hend, .inl ⟨hclose, rfl⟩⟩
    | array hopen hitems =>
      exact ⟨_, back, expect_eq_some_iff.mpr hspace, hend, .inr ⟨hopen, readItems_fuelFor hitems⟩⟩
  · rintro ⟨rest, back, hopen, hend, hcase⟩
    refine ⟨back, ?_, hend⟩
    have hshort := length_of_expect hopen
    rw [expect_eq_some_iff.mp hopen]
    rcases hcase with ⟨hclose, rfl⟩ | ⟨hclose, hitems⟩
    · exact .emptyArray hclose
    · exact .array hclose (((enoughSteps _).items hitems).2 _ (by omega))

/-- Nothing but blanks stands after a record. -/
theorem ended_eq_some_iff {x : Option (Fields × Bytes)} :
    (x.bind fun p => (guard ((skipSpace p.2).isEmpty = true) : Option Unit).bind fun _ =>
      pure p.1) = some fields ↔ ∃ back, skipSpace back = [] ∧ x = some (fields, back) := by
  simp only [Option.bind_eq_some_iff, Option.guard_eq_some', List.isEmpty_iff]
  constructor
  · rintro ⟨⟨fields', back⟩, rfl, _, hblank, h⟩
    obtain rfl := Option.some.inj h
    exact ⟨back, hblank, rfl⟩
  · rintro ⟨back, hblank, rfl⟩
    exact ⟨_, rfl, (), hblank, rfl⟩

/-- A record that is written as an object. -/
theorem exists_of_read?_object (hopen : expect 123 bs = some rest)
    (h : read? names bs = some fields) : ∃ back, skipSpace back = [] ∧
      (expect 125 rest = some back ∧ fields = List.replicate names.length none ∨
        readMembers names (fuelFor bs) (List.replicate names.length none) rest =
          some (fields, back)) := by
  simp only [read?, hopen, Option.bind_eq_bind] at h
  cases hclose : expect 125 rest with
  | some back' =>
    simp only [hclose] at h
    obtain ⟨back, hblank, h⟩ := ended_eq_some_iff.mp h
    obtain ⟨rfl, rfl⟩ := Prod.mk.inj (Option.some.inj h)
    exact ⟨_, hblank, .inl ⟨rfl, rfl⟩⟩
  | none =>
    simp only [hclose] at h
    obtain ⟨back, hblank, h⟩ := ended_eq_some_iff.mp h
    exact ⟨back, hblank, .inr h⟩

/-- A record that is not written as an object is an array with no more items than there are
names. -/
theorem read?_eq_some_iff_of_not_object (hopen : expect 123 bs = none) :
    read? names bs = some fields ↔ ∃ items, Json.parse? bs = some (.array items) ∧
      items.length ≤ names.length ∧ fields = inOrder names.length items := by
  simp only [read?, hopen, Option.bind_eq_bind]
  constructor
  · intro h
    obtain ⟨rest, harray, h⟩ := Option.bind_eq_some_iff.mp h
    cases hclose : expect 93 rest with
    | some back' =>
      simp only [hclose] at h
      obtain ⟨back, hend, h⟩ := ended_eq_some_iff.mp h
      obtain ⟨rfl, rfl⟩ := Prod.mk.inj (Option.some.inj h)
      exact ⟨[], parse?_eq_array_iff.mpr ⟨rest, _, harray, hend, .inl ⟨hclose, rfl⟩⟩,
        Nat.zero_le _, by simp [inOrder]⟩
    | none =>
      simp only [hclose] at h
      obtain ⟨back, hend, h⟩ := ended_eq_some_iff.mp h
      obtain ⟨items, hitems, hlength, rfl⟩ := readItems_eq_some_iff.mp h
      exact ⟨items, parse?_eq_array_iff.mpr ⟨rest, back, harray, hend, .inr ⟨hclose, hitems⟩⟩,
        hlength, rfl⟩
  · rintro ⟨items, hparse, hlength, rfl⟩
    obtain ⟨rest, back, harray, hend, hcase⟩ := parse?_eq_array_iff.mp hparse
    refine Option.bind_eq_some_iff.mpr ⟨rest, harray, ?_⟩
    rcases hcase with ⟨hclose, rfl⟩ | ⟨hclose, hitems⟩
    · simp only [hclose]
      exact ended_eq_some_iff.mpr ⟨back, hend, by simp [inOrder]⟩
    · simp only [hclose]
      exact ended_eq_some_iff.mpr
        ⟨back, hend, readItems_eq_some_iff.mpr ⟨items, hitems, hlength, rfl⟩⟩

theorem expect_object_of_array {items : List Json} (h : Json.parse? bs = some (.array items)) :
    expect 123 bs = none := by
  obtain ⟨rest, -, harray, -⟩ := parse?_eq_array_iff.mp h
  rw [expect, expect_eq_some_iff.mp harray]
  exact if_neg (by decide)

/-- What the bytes between two quotes name. -/
def Names (raw : Bytes) (name : String) : Prop := readString (raw ++ [34]) = some (name, [])

/-- What the bytes of a value say, with blanks after them. -/
def Says (raw : Bytes) (value : Json) : Prop :=
  ∃ front after rest, raw = front ++ after ∧ Blank after ∧
    readValue (fuelFor (front ++ rest)) (maxDepth - 1) (front ++ rest) = some (value, rest)

theorem Says.after {raw after : Bytes} {value : Json} (h : Says raw value) (hafter : Blank after) :
    Says (raw ++ after) value := by
  obtain ⟨front, blanks, rest, rfl, hblanks, hread⟩ := h
  exact ⟨front, blanks ++ after, rest, List.append_assoc _ _ _, hblanks.append hafter, hread⟩

/-- Some bytes with any blanks around them. -/
def Padded (word raw : Bytes) : Prop :=
  ∃ before after, Blank before ∧ Blank after ∧ raw = before ++ (word ++ after)

theorem Says.padded {raw word : Bytes} {value : Json} (h : Says raw value)
    (hword : ∀ {fuel depth bs rest}, readValue fuel depth bs = some (value, rest) →
      ∃ w, Blank w ∧ bs = w ++ (word ++ rest)) : Padded word raw := by
  obtain ⟨front, after, rest, rfl, hafter, hread⟩ := h
  obtain ⟨w, hw, hfront⟩ := hword hread
  rw [← List.append_assoc, List.append_cancel_right_eq] at hfront
  exact ⟨w, after, hw, hafter, by rw [hfront, List.append_assoc]⟩

/-- Null and the empty text are written in one way each. -/
theorem Says.padded_null {raw : Bytes} (h : Says raw .null) : Padded (Text.bytes "null") raw :=
  h.padded exists_of_readValue_null

theorem Says.padded_empty {raw : Bytes} (h : Says raw (.text "")) : Padded [34, 34] raw :=
  h.padded exists_of_readValue_empty

theorem exists_form_of_readString {name : String} (h : readString bs = some (name, rest)) :
    ∃ raw, StringForm raw ∧ bs = raw ++ 34 :: rest ∧ Names raw name := by
  simp only [readString, Option.bind_eq_bind, Option.bind_eq_some_iff] at h
  obtain ⟨⟨body, rest'⟩, hbody, text, htext, h⟩ := h
  obtain ⟨rfl, rfl⟩ := Prod.mk.inj (Option.some.inj h)
  obtain ⟨raw, hraw, hbs, -, hread⟩ := exists_form_of_stringBody hbody
  refine ⟨raw, hraw, hbs, ?_⟩
  simp only [Names, readString, hread [], Option.bind_eq_bind, Option.bind_some]
  dsimp only at htext
  rw [htext]
  rfl

/-- One member is taken: its value is kept when its name is one of those looked for and has not
been met. -/
inductive Takes (names : List String) (fields : Fields) (bs : Bytes) : Fields → Bytes → Prop
  | known {opened closed back more : Bytes} {name : String} {i : Nat} {value : Json}
      (hopen : expect 34 bs = some opened) (hname : readString opened = some (name, closed))
      (hcolon : expect 58 closed = some back) (hi : names.idxOf? name = some i)
      (hfree : fields.getD i none = none)
      (hvalue : readValue (fuelFor back) (maxDepth - 1) back = some (value, more)) :
      Takes names fields bs (fields.set i (some value)) more
  | other {opened closed back more : Bytes} {name : String}
      (hopen : expect 34 bs = some opened) (hname : readString opened = some (name, closed))
      (hcolon : expect 58 closed = some back) (hi : names.idxOf? name = none)
      (hskip : skipValue (fuelFor back) back = some more) : Takes names fields bs fields more

theorem takes_of_readMembers {fuel : Nat} {fields' : Fields}
    (h : readMembers names (fuel + 1) fields bs = some (fields', rest)) :
    ∃ taken more, Takes names fields bs taken more ∧
      ((∃ next, expect 44 more = some next ∧
        readMembers names fuel taken next = some (fields', rest)) ∨
      expect 125 more = some rest ∧ fields' = taken) := by
  rw [readMembers] at h
  simp only [Option.bind_eq_bind, Option.bind_eq_some_iff] at h
  obtain ⟨opened, hopen, ⟨name, closed⟩, hname, back, hcolon, h⟩ := h
  obtain ⟨taken, more, htakes, hnext, hend⟩ : ∃ taken more, Takes names fields bs taken more ∧
      (∀ next, expect 44 more = some next →
        readMembers names fuel taken next = some (fields', rest)) ∧
      (expect 44 more = none →
        (expect 125 more).bind (fun rest => some (taken, rest)) = some (fields', rest)) := by
    cases hi : names.idxOf? name with
    | some i =>
      simp only [hi, Option.bind_eq_some_iff, Option.guard_eq_some'] at h
      obtain ⟨_, hfree, ⟨value, more⟩, hvalue, p, hp, h⟩ := h
      obtain rfl := Option.some.inj hp
      refine ⟨_, more,
        .known hopen hname hcolon hi (Option.isNone_iff_eq_none.mp hfree) hvalue,
        fun next hcomma => ?_, fun hcomma => ?_⟩
      · rwa [hcomma] at h
      · rwa [hcomma] at h
    | none =>
      simp only [hi, Option.bind_eq_some_iff] at h
      obtain ⟨more, hskip, p, hp, h⟩ := h
      obtain rfl := Option.some.inj hp
      refine ⟨_, more, .other hopen hname hcolon hi hskip, fun next hcomma => ?_,
        fun hcomma => ?_⟩
      · rwa [hcomma] at h
      · rwa [hcomma] at h
  refine ⟨taken, more, htakes, ?_⟩
  cases hcomma : expect 44 more with
  | some next => exact .inl ⟨next, rfl, hnext next hcomma⟩
  | none =>
    obtain ⟨rest', hclose, h⟩ := Option.bind_eq_some_iff.mp (hend hcomma)
    obtain ⟨rfl, rfl⟩ := Prod.mk.inj (Option.some.inj h)
    exact .inr ⟨hclose, rfl⟩

/-- A name that is looked for says what its field holds. -/
def Kept (names : List String) (members : List (Bytes × Bytes)) (fields : Fields) : Prop :=
  ∀ member ∈ members, ∀ name i, Names member.1 name → names.idxOf? name = some i →
    ∃ value, Says member.2 value ∧ fields.getD i none = some value

theorem getD_set {i j : Nat} {value : Json} (h : i < fields.length) :
    (fields.set i (some value)).getD j none = if i = j then some value else fields.getD j none := by
  rw [List.getD_eq_getElem?_getD, List.getElem?_set, List.getD_eq_getElem?_getD]
  by_cases hij : i = j
  · simp [hij, hij ▸ h]
  · simp [hij]

theorem lt_of_idxOf? {name : String} {i : Nat} (h : names.idxOf? name = some i) :
    i < names.length := by
  obtain ⟨hlt, -⟩ := List.idxOf?_eq_some_iff.mp h
  exact hlt

namespace Takes

variable {taken : Fields} {more : Bytes}

theorem length_eq (h : Takes names fields bs taken more) : taken.length = fields.length := by
  cases h with
  | known => exact List.length_set
  | other => rfl

/-- What a field holds it keeps. -/
theorem getD_eq (h : Takes names fields bs taken more) (hlength : fields.length = names.length)
    {i : Nat} {value : Json} (hi : fields.getD i none = some value) :
    taken.getD i none = some value := by
  cases h with
  | known hopen hname hcolon hi' hfree hvalue =>
    rw [getD_set (hlength ▸ lt_of_idxOf? hi'), if_neg, hi]
    rintro rfl
    exact absurd (hfree.symm.trans hi) (by simp)
  | other => exact hi

theorem exists_form (h : Takes names fields bs taken more)
    (hlength : fields.length = names.length) :
    ∃ raw p v, NameForm raw p ∧ ValueForm v ∧ bs = p ++ 58 :: (v ++ more) ∧
      Kept names [(raw, v)] taken := by
  -- The name of a member is one only.
  have hone {raw : Bytes} {name name' : String} (h : Names raw name) (h' : Names raw name') :
      name = name' := (Prod.mk.inj (Option.some.inj (h.symm.trans h'))).1
  cases h with
  | @known opened closed back more name i value hopen hname hcolon hi hfree hvalue =>
    obtain ⟨w, hw, rfl⟩ := exists_blank_of_expect hopen
    obtain ⟨raw, hraw, rfl, hnames⟩ := exists_form_of_readString hname
    obtain ⟨w', hw', rfl⟩ := exists_blank_of_expect hcolon
    obtain ⟨v, hv, rfl⟩ := exists_form_of_readValue hvalue
    refine ⟨raw, _, v, .mk hw hraw hw', hv, by simp, fun member hmem name' i' hname' hi' => ?_⟩
    obtain rfl := List.mem_singleton.mp hmem
    obtain rfl := hone hnames hname'
    obtain rfl := Option.some.inj (hi.symm.trans hi')
    refine ⟨value, ⟨v, [], more, (List.append_nil v).symm, blank_nil, hvalue⟩, ?_⟩
    rw [getD_set (hlength ▸ lt_of_idxOf? hi), if_pos rfl]
  | @other opened closed back more name hopen hname hcolon hi hskip =>
    obtain ⟨w, hw, rfl⟩ := exists_blank_of_expect hopen
    obtain ⟨raw, hraw, rfl, hnames⟩ := exists_form_of_readString hname
    obtain ⟨w', hw', rfl⟩ := exists_blank_of_expect hcolon
    obtain ⟨v, hv, rfl⟩ := (skipsForms _).value hskip
    refine ⟨raw, _, v, .mk hw hraw hw', hv, by simp, fun member hmem name' i' hname' hi' => ?_⟩
    obtain rfl := List.mem_singleton.mp hmem
    obtain rfl := hone hnames hname'
    exact absurd (hi.symm.trans hi') (by simp)

end Takes

theorem Kept.mono {members : List (Bytes × Bytes)} {fields fields' : Fields}
    (h : Kept names members fields)
    (hmono : ∀ {i value}, fields.getD i none = some value → fields'.getD i none = some value) :
    Kept names members fields' := by
  intro member hmem name i hname hi
  obtain ⟨value, hsays, hvalue⟩ := h member hmem name i hname hi
  exact ⟨value, hsays, hmono hvalue⟩

/-- The members of a record have the form of members, and say what is in its fields. -/
theorem exists_members_of_readMembers {fuel : Nat} {fields' : Fields}
    (hlength : fields.length = names.length)
    (h : readMembers names fuel fields bs = some (fields', rest)) :
    (∀ {i value}, fields.getD i none = some value → fields'.getD i none = some value) ∧
      ∃ members v, MembersForm members v ∧ bs = v ++ 125 :: rest ∧ Kept names members fields' := by
  induction fuel generalizing fields bs with
  | zero => simp [readMembers] at h
  | succ fuel ih =>
    obtain ⟨taken, more, htakes, hcase⟩ := takes_of_readMembers h
    obtain ⟨raw, p, v, hname, hv, rfl, hkept⟩ := htakes.exists_form hlength
    have hsaid {w : Bytes} (hw : Blank w) : Kept names [(raw, v ++ w)] taken := by
      intro member hmem name i hnames hi
      obtain rfl := List.mem_singleton.mp hmem
      obtain ⟨value, hsays, hvalue⟩ := hkept (raw, v) List.mem_cons_self name i hnames hi
      exact ⟨value, hsays.after hw, hvalue⟩
    rcases hcase with ⟨next, hcomma, hmembers⟩ | ⟨hclose, rfl⟩
    · obtain ⟨w, hw, rfl⟩ := exists_blank_of_expect hcomma
      obtain ⟨hmono, members, vs, hvs, rfl, hrest⟩ :=
        ih (htakes.length_eq.trans hlength) hmembers
      refine ⟨fun hi => hmono (htakes.getD_eq hlength hi), _, _, .cons hname (hv.after hw) hvs,
        by simp, fun member hmem => ?_⟩
      rcases List.mem_cons.mp hmem with rfl | hmem
      · exact (hsaid hw).mono hmono _ List.mem_cons_self
      · exact hrest member hmem
    · obtain ⟨w, hw, rfl⟩ := exists_blank_of_expect hclose
      exact ⟨fun hi => htakes.getD_eq hlength hi, _, _, .last hname (hv.after hw), by simp,
        hsaid hw⟩

/-- An object with the given members, and blanks around it. -/
inductive ObjectForm : List (Bytes × Bytes) → Bytes → Prop
  | empty {before w after : Bytes} (hbefore : Blank before) (hw : Blank w) (hafter : Blank after) :
      ObjectForm [] (before ++ 123 :: (w ++ 125 :: after))
  | mk {before v after : Bytes} {members : List (Bytes × Bytes)} (hbefore : Blank before)
      (h : MembersForm members v) (hafter : Blank after) :
      ObjectForm members (before ++ 123 :: (v ++ 125 :: after))

theorem ObjectForm.exists_expect {members : List (Bytes × Bytes)} (h : ObjectForm members bs) :
    ∃ rest, expect 123 bs = some rest := by
  have hopen {w back : Bytes} (hw : Blank w) : expect 123 (w ++ 123 :: back) = some back :=
    expect_eq_some_iff.mpr (List.dropWhile_append_of_pos hw)
  cases h with
  | empty hbefore _ _ => exact ⟨_, hopen hbefore⟩
  | mk hbefore _ _ => exact ⟨_, hopen hbefore⟩

theorem not_objectForm (h : expect 123 bs = none) : ¬ ∃ members, ObjectForm members bs := by
  rintro ⟨members, hform⟩
  obtain ⟨rest, hopen⟩ := hform.exists_expect
  exact absurd (h.symm.trans hopen) (by simp)

/-- A record that is not read from an array is read from an object, and its fields hold what the
members of their names say. -/
theorem exists_object_of_read? (hopen : expect 123 bs = some rest)
    (h : read? names bs = some fields) :
    ∃ members, ObjectForm members bs ∧ Kept names members fields := by
  obtain ⟨before, hbefore, rfl⟩ := exists_blank_of_expect hopen
  obtain ⟨back, hend, hcase⟩ := exists_of_read?_object hopen h
  obtain ⟨after, hafter, hback⟩ := exists_blank back
  rw [hend, List.append_nil] at hback
  rcases hcase with ⟨hclose, rfl⟩ | hmembers
  · obtain ⟨w, hw, rfl⟩ := exists_blank_of_expect hclose
    exact ⟨[], .empty hbefore hw (hback ▸ hafter), fun member hmem => absurd hmem (by simp)⟩
  · obtain ⟨-, members, v, hv, rfl, hkept⟩ :=
      exists_members_of_readMembers List.length_replicate hmembers
    exact ⟨members, .mk hbefore hv (hback ▸ hafter), hkept⟩

end AccountGate.Json.Record
