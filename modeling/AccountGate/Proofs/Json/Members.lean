import AccountGate.Proofs.Json.Records

/-!
The members of an object as they are written. A value that cannot be held, for its depth or for its
parts, is listed without what it is. Main statement: what a record has in its fields is a matter of
the list alone.
-/

namespace AccountGate.Json

variable {bs rest : Bytes} {members : List (String × Option Json)}

/-- Members up to the closing brace, each with its value where that can be held. -/
def listMembers : Nat → Bytes → Option (List (String × Option Json) × Bytes)
  | 0, _ => none
  | fuel + 1, bs => do
    let (name, rest) ← readString (← expect 34 bs)
    let rest ← expect 58 rest
    let value := (readValue (fuelFor rest) (maxDepth - 1) rest).map Prod.fst
    let rest ← skipValue (fuelFor rest) rest
    match expect 44 rest with
    | some rest =>
      let (members, rest) ← listMembers fuel rest
      return ((name, value) :: members, rest)
    | none => return ([(name, value)], ← expect 125 rest)

/-- The members of an object, whatever stands in them. -/
def members? (bs : Bytes) : Option (List (String × Option Json)) := do
  let rest ← expect 123 bs
  let (members, rest) ← match expect 125 rest with
    | some rest => some ([], rest)
    | none => listMembers (fuelFor bs) rest
  guard (skipSpace rest).isEmpty
  return members

/-- The members of an object in which there are nothing but texts. -/
def texts? (bs : Bytes) : Option (List (String × String)) := do
  (← members? bs).mapM fun
    | (name, some (.text s)) => some (name, s)
    | _ => none

theorem members?_of_texts? {texts : List (String × String)} (h : texts? bs = some texts) :
    members? bs = some (texts.map fun text => (text.1, some (.text text.2))) := by
  obtain ⟨members, hmembers, htexts⟩ := Option.bind_eq_some_iff.mp h
  rw [hmembers]
  refine congrArg some ?_
  clear h hmembers
  induction members generalizing texts with
  | nil =>
    obtain rfl := Option.some.inj htexts
    rfl
  | cons member rest ih =>
    obtain ⟨text, htext, hrest⟩ := Option.bind_eq_some_iff.mp (List.mapM_cons.symm.trans htexts)
    obtain ⟨more, hmore, heq⟩ := Option.bind_eq_some_iff.mp hrest
    obtain rfl := Option.some.inj heq
    rw [List.map_cons, ← ih hmore]
    obtain ⟨name, value⟩ := member
    match value, htext with
    | some (.text s), htext =>
      obtain rfl := Option.some.inj htext
      rfl

/-- What is read of a value leaves what is left when it is stepped over. -/
theorem readValue_of_skipValue {fuel depth : Nat} (h : skipValue fuel bs = some rest) :
    readValue fuel depth bs = ((readValue fuel depth bs).map Prod.fst).map (·, rest) := by
  cases hread : readValue fuel depth bs with
  | none => rfl
  | some read =>
    obtain rfl := Option.some.inj (h.symm.trans ((readsForms fuel).value hread))
    rfl

namespace Record

variable {names : List String} {fields : Fields}

/-- The fields after one more member. A name that is looked for comes once, and with a value that
can be held. -/
def keep (names : List String) (fields : Fields) (member : String × Option Json) : Option Fields :=
  match names.idxOf? member.1 with
  | none => some fields
  | some i => do
    guard (fields.getD i none).isNone
    return fields.set i (some (← member.2))

/-- The members of a record are kept one after the other. -/
theorem readMembers_of_listMembers {fuel : Nat} (h : listMembers fuel bs = some (members, rest)) :
    readMembers names fuel fields bs = (members.foldlM (keep names) fields).map (·, rest) := by
  induction fuel generalizing bs fields members with
  | zero => exact absurd h (by simp [listMembers])
  | succ fuel ih =>
    rw [listMembers] at h
    simp only [Option.bind_eq_bind, Option.bind_eq_some_iff] at h
    obtain ⟨opened, hopen, ⟨name, closed⟩, hname, back, hcolon, more, hskip, h⟩ := h
    have hvalue : readValue (fuelFor back) (maxDepth - 1) back =
        ((readValue (fuelFor back) (maxDepth - 1) back).map Prod.fst).map (·, more) :=
      readValue_of_skipValue hskip
    generalize (readValue (fuelFor back) (maxDepth - 1) back).map Prod.fst = value at h hvalue
    -- The rest is read with the fields that the member leaves.
    have hmember (read : Fields → Option (Fields × Bytes))
        (hread : ∀ fields, read fields = (match expect 44 more with
          | some rest => readMembers names fuel fields rest
          | none => (expect 125 more).bind fun rest => some (fields, rest))) :
        readMembers names (fuel + 1) fields bs = (keep names fields (name, value)).bind read := by
      rw [readMembers, keep]
      simp only [Option.bind_eq_bind, hopen, hname, hcolon, hvalue, hskip, Option.bind_some]
      cases names.idxOf? name with
      | none => exact (hread fields).symm
      | some i =>
        dsimp only
        generalize (guard ((fields.getD i none).isNone = true) : Option Unit) = free
        cases free with
        | none => rfl
        | some _ =>
          cases value with
          | none => rfl
          | some value => exact (hread _).symm
    cases hcomma : expect 44 more with
    | some next =>
      simp only [hcomma, Option.bind_eq_some_iff] at h hmember
      obtain ⟨⟨members', rest'⟩, hmembers, h⟩ := h
      obtain ⟨rfl, rfl⟩ := Prod.mk.inj (Option.some.inj h)
      rw [hmember _ fun _ => rfl, List.foldlM_cons, Option.bind_eq_bind, Option.map_bind]
      exact congrArg _ (funext fun taken => ih hmembers)
    | none =>
      simp only [hcomma, Option.bind_eq_some_iff] at h hmember
      obtain ⟨rest', hclose, h⟩ := h
      obtain ⟨rfl, rfl⟩ := Prod.mk.inj (Option.some.inj h)
      rw [hmember _ fun _ => rfl, List.foldlM_cons, Option.bind_eq_bind, Option.map_bind, hclose]
      rfl

/-- What a record has in its fields is what its members leave in them. -/
theorem read?_of_members? (h : members? bs = some members) :
    read? names bs = members.foldlM (keep names) (List.replicate names.length none) := by
  simp only [members?, Option.bind_eq_bind] at h
  obtain ⟨opened, hopen, h⟩ := Option.bind_eq_some_iff.mp h
  simp only [read?, hopen, Option.bind_eq_bind]
  cases hclose : expect 125 opened with
  | some back =>
    simp only [hclose, Option.bind_some] at h ⊢
    obtain ⟨_, hblank, h⟩ := Option.bind_eq_some_iff.mp h
    obtain rfl := Option.some.inj h
    rw [hblank]
    rfl
  | none =>
    simp only [hclose] at h ⊢
    obtain ⟨⟨members', back⟩, hmembers, h⟩ := Option.bind_eq_some_iff.mp h
    obtain ⟨_, hblank, h⟩ := Option.bind_eq_some_iff.mp h
    obtain rfl := Option.some.inj h
    rw [readMembers_of_listMembers hmembers]
    cases members'.foldlM (keep names) _ with
    | none => rfl
    | some fields =>
      rw [Option.map_some, Option.bind_some, hblank]
      rfl

end Record

end AccountGate.Json
