import AccountGate.Proofs.Json.Extent
import AccountGate.Proofs.Json.Members

/-!
Objects with one member more. Main statements: a member can be written between any two members of
an object, and is then listed there; and a record that lacks a field has the same in all others when
a member brings it.
-/

namespace AccountGate.Json

variable {bs rest next body : Bytes} {name : String} {value : Option Json}
  {members before after : List (String × Option Json)} {fuel : Nat}

/-- A member stands in front: its name, its value where that can be held, and what comes next. -/
def MemberAt (bs : Bytes) (name : String) (value : Option Json) (next : Bytes) : Prop :=
  ∃ opened closed back, expect 34 bs = some opened ∧ readString opened = some (name, closed) ∧
    expect 58 closed = some back ∧
    (readValue (fuelFor back) (maxDepth - 1) back).map Prod.fst = value ∧
    skipValue (fuelFor back) back = some next

/-- These bytes are a member before anything that does not go on with them, blanks aside. -/
def Written (raw : Bytes) (name : String) (value : Option Json) : Prop :=
  ∀ more, Ends more → ∃ w, Blank w ∧ MemberAt (raw ++ more) name value (w ++ more)

theorem listMembers_succ_iff : listMembers (fuel + 1) bs = some (members, rest) ↔
    ∃ name value next, MemberAt bs name value next ∧
      ((∃ back more, expect 44 next = some back ∧ listMembers fuel back = some (more, rest) ∧
          members = (name, value) :: more) ∨
        expect 44 next = none ∧ expect 125 next = some rest ∧ members = [(name, value)]) := by
  rw [listMembers]
  simp only [Option.bind_eq_bind, Option.bind_eq_some_iff]
  constructor
  · rintro ⟨opened, hopen, ⟨name, closed⟩, hname, back, hcolon, next, hskip, h⟩
    refine ⟨name, _, next, ⟨opened, closed, back, hopen, hname, hcolon, rfl, hskip⟩, ?_⟩
    cases hcomma : expect 44 next with
    | some after =>
      simp only [hcomma, Option.bind_eq_some_iff] at h
      obtain ⟨⟨more, rest'⟩, hmore, h⟩ := h
      obtain ⟨rfl, rfl⟩ := Prod.mk.inj (Option.some.inj h)
      exact .inl ⟨after, more, rfl, hmore, rfl⟩
    | none =>
      simp only [hcomma, Option.bind_eq_some_iff] at h
      obtain ⟨rest', hclose, h⟩ := h
      obtain ⟨rfl, rfl⟩ := Prod.mk.inj (Option.some.inj h)
      exact .inr ⟨rfl, hclose, rfl⟩
  · rintro ⟨name, value, next, ⟨opened, closed, back, hopen, hname, hcolon, rfl, hskip⟩, hcase⟩
    refine ⟨opened, hopen, _, hname, back, hcolon, next, hskip, ?_⟩
    rcases hcase with ⟨after, more, hcomma, hmore, rfl⟩ | ⟨hcomma, hclose, rfl⟩
    · simp [hcomma, hmore]
    · simp [hcomma, hclose]

/-- More steps than needed change nothing. -/
theorem listMembers_mono {fuel' : Nat} (hle : fuel ≤ fuel')
    (h : listMembers fuel bs = some (members, rest)) :
    listMembers fuel' bs = some (members, rest) := by
  induction fuel generalizing fuel' bs members with
  | zero => exact absurd h (by simp [listMembers])
  | succ fuel ih =>
    obtain ⟨n, rfl⟩ : ∃ n, fuel' = n + 1 := ⟨fuel' - 1, by omega⟩
    obtain ⟨name, value, next, hmember, hcase⟩ := listMembers_succ_iff.mp h
    refine listMembers_succ_iff.mpr ⟨name, value, next, hmember, hcase.imp_left ?_⟩
    rintro ⟨back, more, hcomma, hmore, rfl⟩
    exact ⟨back, more, hcomma, ih (by omega) hmore, rfl⟩

theorem MemberAt.expect_brace (h : MemberAt bs name value next) : expect 125 bs = none := by
  obtain ⟨opened, closed, back, hopen, -⟩ := h
  exact expect_of_expect hopen (by decide)

/-- What is held of a value is a matter of its own bytes. -/
theorem Skips.map_fst_readValue_iff {raw more : Bytes} {depth : Nat} {v : Json} (h : Skips raw)
    (hmore : Ends more) :
    (readValue (fuelFor (raw ++ more)) depth (raw ++ more)).map Prod.fst = some v ↔
      ReadsAs depth raw v := by
  have hfuel : 2 * raw.length + 1 ≤ fuelFor (raw ++ more) := by
    rw [fuelFor, List.length_append]
    omega
  constructor
  · intro hv
    obtain ⟨⟨v, rest⟩, hread, rfl⟩ := Option.map_eq_some_iff.mp hv
    -- What is read leaves what is left when it is stepped over.
    obtain rfl : more = rest :=
      Option.some.inj ((h more hmore _ hfuel).symm.trans ((readsForms _).value hread))
    obtain ⟨raw', hraw, hreads⟩ := (readsPart _).value hread
    rwa [List.append_cancel_right hraw]
  · intro hv
    rw [hv more hmore _ hfuel]
    rfl

theorem Skips.map_fst_readValue_eq {raw more more' : Bytes} {depth : Nat} (h : Skips raw)
    (hmore : Ends more) (hmore' : Ends more') :
    (readValue (fuelFor (raw ++ more)) depth (raw ++ more)).map Prod.fst =
      (readValue (fuelFor (raw ++ more')) depth (raw ++ more')).map Prod.fst :=
  Option.ext fun v => by
    rw [h.map_fst_readValue_iff hmore, h.map_fst_readValue_iff hmore']

/-- A member is the same before other bytes. -/
theorem MemberAt.exists_raw (h : MemberAt bs name value next) (hnext : Ends next) :
    ∃ raw, bs = raw ++ next ∧ ∀ more, Ends more → MemberAt (raw ++ more) name value more := by
  obtain ⟨opened, closed, back, hopen, hname, hcolon, rfl, hskip⟩ := h
  obtain ⟨w, hw, rfl⟩ := exists_blank_of_expect hopen
  obtain ⟨named, rfl, hnamed⟩ := exists_raw_of_readString hname
  obtain ⟨w', hw', rfl⟩ := exists_blank_of_expect hcolon
  obtain ⟨raw, rfl, hskips⟩ := (skipsPart _).value hskip
  refine ⟨w ++ 34 :: (named ++ (w' ++ 58 :: raw)), by simp, fun more hmore => ?_⟩
  have hsame : (w ++ 34 :: (named ++ (w' ++ 58 :: raw))) ++ more =
      w ++ 34 :: (named ++ (w' ++ 58 :: (raw ++ more))) := by simp
  rw [hsame]
  refine ⟨_, _, _, expect_mark hw (by decide) _, hnamed _, expect_mark hw' (by decide) _,
    hskips.map_fst_readValue_eq hmore hnext, hskips more hmore _ ?_⟩
  rw [fuelFor, List.length_append]
  omega

/-- A text of a value after the name is a member. -/
theorem written_of_says {text : Bytes} {v : Json} (h : Record.Says text v) (name : String) :
    Written (Text.bytesOf (stringChars name) ++ 58 :: text) name (some v) := by
  obtain ⟨front, after, rest, rfl, hafter, hread⟩ := h
  obtain ⟨raw, hraw, hreads⟩ := (readsPart _).value hread
  obtain rfl := List.append_cancel_right hraw
  intro more hmore
  have hends : Ends (after ++ more) := ends_blank hafter hmore
  have hvalue := hreads (after ++ more) hends (fuelFor (front ++ (after ++ more))) (by
    rw [fuelFor, List.length_append]
    omega)
  refine ⟨after, hafter, _, _, front ++ (after ++ more), ?_, readString_stringChars name,
    expect_self (by decide), by rw [hvalue]; rfl, (readsForms _).value hvalue⟩
  rw [bytesOf_stringChars]
  simp [expect_self (b := 34) (by decide)]

/-- Every value of whole numbers that a member may hold has a text. -/
theorem Exact.says_render {v : Json} (h : Exact (maxDepth - 1) v) :
    Record.Says (Text.bytes v.render) v := by
  obtain ⟨enough, hread⟩ := h.isReadBack [] (fun b hb => absurd hb (by simp))
  have hvalue := readValue_fuelFor (hread enough (Nat.le_refl _))
  refine ⟨Text.bytes v.render, [], [], (List.append_nil _).symm, blank_nil, ?_⟩
  rwa [render, Text.bytes_ofList]

section Insertion

variable {raw : Bytes}

/-- A member before others. -/
theorem listMembers_front (hraw : Written raw name value)
    (h : listMembers fuel bs = some (members, rest)) :
    listMembers (fuel + 1) (raw ++ 44 :: bs) = some ((name, value) :: members, rest) := by
  obtain ⟨w, hw, hmember⟩ := hraw (44 :: bs) (ends_cons (by decide))
  exact listMembers_succ_iff.mpr ⟨name, value, _, hmember,
    .inl ⟨bs, members, expect_mark hw (by decide) bs, h, rfl⟩⟩

/-- A member before the closing brace. -/
theorem listMembers_alone (hraw : Written raw name value) (hclose : expect 125 bs = some rest) :
    listMembers (fuel + 1) (raw ++ bs) = some ([(name, value)], rest) := by
  obtain ⟨w, hw, hmember⟩ := hraw bs (ends_of_expect (by decide) hclose)
  refine listMembers_succ_iff.mpr ⟨name, value, _, hmember, .inr ⟨?_, ?_, rfl⟩⟩
  · rw [expect_blank hw]
    exact expect_of_expect hclose (by decide)
  · rw [expect_blank hw, hclose]

/-- A member at any place among others, with a comma after it or, at the end, before it. -/
theorem exists_listMembers_insert (hraw : Written raw name value)
    (h : listMembers fuel bs = some (before ++ after, rest)) :
    ∃ front back lead trail, bs = front ++ back ∧ lead ++ trail = ([44] : Bytes) ∧
      listMembers (fuel + 1) (front ++ (lead ++ raw ++ trail) ++ back) =
        some (before ++ (name, value) :: after, rest) := by
  induction before generalizing fuel bs with
  | nil =>
    refine ⟨[], bs, [], [44], rfl, rfl, ?_⟩
    simpa using listMembers_front hraw h
  | cons member before ih =>
    cases fuel with
    | zero => exact absurd h (by simp [listMembers])
    | succ fuel =>
      obtain ⟨name', value', next, hmember, hcase⟩ := listMembers_succ_iff.mp h
      rcases hcase with ⟨back, more, hcomma, hmore, hlist⟩ | ⟨hcomma, hclose, hlist⟩
      · obtain ⟨rfl, rfl⟩ := List.cons.inj hlist
        obtain ⟨raw', rfl, hraw'⟩ := hmember.exists_raw (ends_of_expect (by decide) hcomma)
        obtain ⟨w, hw, rfl⟩ := exists_blank_of_expect hcomma
        obtain ⟨front, back, lead, trail, rfl, hcommas, hinserted⟩ := ih hmore
        refine ⟨raw' ++ (w ++ 44 :: front), back, lead, trail, by simp, hcommas, ?_⟩
        have hsame : raw' ++ (w ++ 44 :: front) ++ (lead ++ raw ++ trail) ++ back =
            raw' ++ (w ++ 44 :: (front ++ (lead ++ raw ++ trail) ++ back)) := by simp
        rw [hsame]
        exact listMembers_succ_iff.mpr ⟨name', value', _,
          hraw' _ (ends_blank hw (ends_cons (by decide))),
          .inl ⟨_, _, expect_mark hw (by decide) _, hinserted, rfl⟩⟩
      · obtain ⟨rfl, hnone⟩ := List.cons.inj hlist
        obtain ⟨rfl, rfl⟩ := List.append_eq_nil_iff.mp hnone
        obtain ⟨raw', rfl, hraw'⟩ := hmember.exists_raw (ends_of_expect (by decide) hclose)
        refine ⟨raw', next, [44], [], rfl, rfl, ?_⟩
        have hsame : raw' ++ ([44] ++ raw ++ []) ++ next = raw' ++ 44 :: (raw ++ next) := by simp
        rw [hsame]
        exact listMembers_succ_iff.mpr ⟨name', value', _, hraw' _ (ends_cons (by decide)),
          .inl ⟨_, _, expect_self (by decide), listMembers_alone hraw hclose, rfl⟩⟩

theorem members?_of_listMembers {back : Bytes} (hopen : expect 123 bs = some back)
    (hfuel : fuel ≤ fuelFor bs) (h : listMembers fuel back = some (members, rest))
    (hend : skipSpace rest = []) : members? bs = some members := by
  have hbrace : expect 125 back = none := by
    cases fuel with
    | zero => exact absurd h (by simp [listMembers])
    | succ fuel =>
      obtain ⟨name, value, next, hmember, -⟩ := listMembers_succ_iff.mp h
      exact hmember.expect_brace
  simp [members?, hopen, hbrace, listMembers_mono hfuel h, hend]

/-- A member can be written at any place among the members of an object. -/
theorem exists_members?_insert (hraw : Written raw name value)
    (h : members? body = some (before ++ after)) :
    ∃ front back lead trail, body = front ++ back ∧
      (lead = [] ∨ lead = [44]) ∧ (trail = [] ∨ trail = [44]) ∧
      members? (front ++ (lead ++ raw ++ trail) ++ back) =
        some (before ++ (name, value) :: after) := by
  simp only [members?, Option.bind_eq_bind] at h
  obtain ⟨opened, hopen, h⟩ := Option.bind_eq_some_iff.mp h
  obtain ⟨w, hw, rfl⟩ := exists_blank_of_expect hopen
  -- The opening brace stays where it is.
  have hbrace (front back lead trail : Bytes) :
      w ++ 123 :: front ++ (lead ++ raw ++ trail) ++ back =
        w ++ 123 :: (front ++ (lead ++ raw ++ trail) ++ back) := by simp
  cases hclose : expect 125 opened with
  | some rest =>
    simp only [hclose, Option.bind_some, Option.bind_eq_some_iff, Option.guard_eq_some',
      List.isEmpty_iff] at h
    obtain ⟨_, hend, hnone⟩ := h
    obtain ⟨rfl, rfl⟩ := List.append_eq_nil_iff.mp (Option.some.inj hnone).symm
    have hlist : listMembers 1 ([] ++ ([] ++ raw ++ []) ++ opened) =
        some ([(name, value)], rest) := by
      simpa using listMembers_alone hraw hclose
    refine ⟨w ++ [123], opened, [], [], by simp, by simp, by simp, ?_⟩
    rw [hbrace]
    exact members?_of_listMembers (expect_mark hw (by decide) _) (by simp [fuelFor]) hlist hend
  | none =>
    simp only [hclose, Option.bind_eq_some_iff, Option.guard_eq_some', List.isEmpty_iff] at h
    obtain ⟨⟨members, rest⟩, hmembers, _, hend, hlist⟩ := h
    obtain rfl := Option.some.inj hlist
    obtain ⟨front, back, lead, trail, rfl, hcommas, hinserted⟩ :=
      exists_listMembers_insert hraw hmembers
    refine ⟨w ++ 123 :: front, back, lead, trail, by simp, ?_, ?_, ?_⟩
    · rcases List.append_eq_singleton_iff.mp hcommas with ⟨h, -⟩ | ⟨h, -⟩ <;> simp [h]
    · rcases List.append_eq_singleton_iff.mp hcommas with ⟨-, h⟩ | ⟨-, h⟩ <;> simp [h]
    · rw [hbrace]
      refine members?_of_listMembers (expect_mark hw (by decide) _) ?_ hinserted hend
      have hlength := congrArg List.length hcommas
      simp only [List.length_append, List.length_singleton] at hlength
      simp only [fuelFor, List.length_append, List.length_cons]
      omega

end Insertion

namespace Record

variable {names : List String} {fields taken : Fields} {i : Nat} {v : Json}

/-- The members of a record that is read are listed. -/
theorem exists_listMembers_of_readMembers
    (h : readMembers names fuel fields bs = some (taken, rest)) :
    ∃ members, listMembers fuel bs = some (members, rest) := by
  induction fuel generalizing fields bs with
  | zero => exact absurd h (by simp [readMembers])
  | succ fuel ih =>
    obtain ⟨kept, next, htakes, hcase⟩ := takes_of_readMembers h
    obtain ⟨name, value, hmember⟩ : ∃ name value, MemberAt bs name value next := by
      cases htakes with
      | known hopen hname hcolon _ _ hvalue =>
        exact ⟨_, _, _, _, _, hopen, hname, hcolon, rfl, (readsForms _).value hvalue⟩
      | other hopen hname hcolon _ hskip =>
        exact ⟨_, _, _, _, _, hopen, hname, hcolon, rfl, hskip⟩
    rcases hcase with ⟨back, hcomma, hmore⟩ | ⟨hclose, -⟩
    · obtain ⟨members, hmembers⟩ := ih hmore
      exact ⟨_, listMembers_succ_iff.mpr ⟨name, value, next, hmember,
        .inl ⟨back, members, hcomma, hmembers, rfl⟩⟩⟩
    · exact ⟨_, listMembers_succ_iff.mpr ⟨name, value, next, hmember,
        .inr ⟨expect_of_expect hclose (by decide), hclose, rfl⟩⟩⟩

theorem exists_members?_of_read? (hopen : expect 123 bs = some rest)
    (h : read? names bs = some fields) : ∃ members, members? bs = some members := by
  obtain ⟨back, hend, ⟨hclose, -⟩ | hmembers⟩ := exists_of_read?_object hopen h
  · exact ⟨[], by simp [members?, hopen, hclose, hend]⟩
  · obtain ⟨members, hlist⟩ := exists_listMembers_of_readMembers hmembers
    exact ⟨members, members?_of_listMembers hopen (Nat.le_refl _) hlist hend⟩

theorem eq_of_idxOf?_eq {name' : String} (h : names.idxOf? name = some i)
    (h' : names.idxOf? name' = some i) : name = name' := by
  obtain ⟨_, hname, -⟩ := List.idxOf?_eq_some_iff.mp h
  obtain ⟨_, hname', -⟩ := List.idxOf?_eq_some_iff.mp h'
  exact hname.symm.trans hname'

/-- A member of another name leaves a field as it is, and does not look at it. -/
theorem keep_set {member : String × Option Json} (hi : names.idxOf? name = some i)
    (hne : member.1 ≠ name) : keep names (fields.set i (some v)) member =
      (keep names fields member).map (·.set i (some v)) := by
  simp only [keep]
  cases hj : names.idxOf? member.1 with
  | none => rfl
  | some j =>
    have hij : i ≠ j := fun heq => hne (eq_of_idxOf?_eq hj (heq ▸ hi))
    have hsame : (fields.set i (some v)).getD j none = fields.getD j none := by
      rw [List.getD_eq_getElem?_getD, List.getElem?_set_ne hij, List.getD_eq_getElem?_getD]
    dsimp only
    rw [hsame]
    generalize (guard ((fields.getD j none).isNone = true) : Option Unit) = free
    cases free with
    | none => rfl
    | some _ =>
      cases member.2 with
      | none => rfl
      | some value => exact congrArg some (List.set_comm _ _ hij)

theorem getD_of_keep {member : String × Option Json} (hi : names.idxOf? name = some i)
    (hne : member.1 ≠ name) (h : keep names fields member = some taken) :
    taken.getD i none = fields.getD i none := by
  rw [keep] at h
  cases hj : names.idxOf? member.1 with
  | none =>
    rw [hj] at h
    rw [Option.some.inj h]
  | some j =>
    have hji : j ≠ i := fun heq => hne (eq_of_idxOf?_eq hj (heq ▸ hi))
    simp only [hj, Option.bind_eq_bind, Option.bind_eq_some_iff] at h
    obtain ⟨-, -, value, -, h⟩ := h
    obtain rfl := Option.some.inj h
    rw [List.getD_eq_getElem?_getD, List.getElem?_set_ne hji, List.getD_eq_getElem?_getD]

theorem foldlM_keep_set (hi : names.idxOf? name = some i)
    (hother : ∀ member ∈ members, member.1 ≠ name) :
    members.foldlM (keep names) (fields.set i (some v)) =
      (members.foldlM (keep names) fields).map (·.set i (some v)) := by
  induction members generalizing fields with
  | nil => rfl
  | cons member more ih =>
    obtain ⟨hne, hmore⟩ := List.forall_mem_cons.mp hother
    rw [List.foldlM_cons, List.foldlM_cons, keep_set hi hne]
    cases keep names fields member with
    | none => rfl
    | some taken => exact ih hmore

/-- A member that comes first of its name fills its field, wherever it stands. -/
theorem foldlM_keep_insert (hi : names.idxOf? name = some i) (hfree : fields.getD i none = none)
    (hother : ∀ member ∈ before ++ after, member.1 ≠ name) :
    (before ++ (name, some v) :: after).foldlM (keep names) fields =
      ((before ++ after).foldlM (keep names) fields).map (·.set i (some v)) := by
  induction before generalizing fields with
  | nil =>
    have hkeep : keep names fields (name, some v) = some (fields.set i (some v)) := by
      simp only [keep, hi, hfree]
      rfl
    rw [List.nil_append, List.foldlM_cons, hkeep]
    exact foldlM_keep_set hi hother
  | cons member more ih =>
    obtain ⟨hne, hmore⟩ := List.forall_mem_cons.mp hother
    rw [List.cons_append, List.cons_append, List.foldlM_cons, List.foldlM_cons]
    cases hkeep : keep names fields member with
    | none => rfl
    | some taken => exact ih ((getD_of_keep hi hne hkeep).trans hfree) hmore

theorem length_of_keep {member : String × Option Json} (h : keep names fields member = some taken) :
    taken.length = fields.length := by
  rw [keep] at h
  cases hj : names.idxOf? member.1 with
  | none =>
    rw [hj] at h
    rw [Option.some.inj h]
  | some j =>
    simp only [hj, Option.bind_eq_bind, Option.bind_eq_some_iff] at h
    obtain ⟨-, -, value, -, h⟩ := h
    rw [← Option.some.inj h, List.length_set]

theorem length_of_foldlM_keep (h : members.foldlM (keep names) fields = some taken) :
    taken.length = fields.length := by
  induction members generalizing fields with
  | nil => rw [Option.some.inj h]
  | cons member more ih =>
    rw [List.foldlM_cons] at h
    obtain ⟨kept, hkeep, hmore⟩ := Option.bind_eq_some_iff.mp h
    rw [ih hmore, length_of_keep hkeep]

theorem length_of_read? (h : members? bs = some members) (hread : read? names bs = some fields) :
    fields.length = names.length := by
  rw [read?_of_members? h] at hread
  rw [length_of_foldlM_keep hread, List.length_replicate]

/-- A record with one field more than before has the same in all others. -/
theorem read?_of_insert {body' : Bytes} (hi : names.idxOf? name = some i)
    (h : members? body = some (before ++ after))
    (h' : members? body' = some (before ++ (name, some v) :: after))
    (hother : ∀ member ∈ before ++ after, member.1 ≠ name) :
    read? names body' = (read? names body).map (·.set i (some v)) := by
  rw [read?_of_members? h, read?_of_members? h']
  refine foldlM_keep_insert hi ?_ hother
  rw [List.getD_eq_getElem?_getD, List.getElem?_replicate]
  split <;> rfl

end Record

end AccountGate.Json
