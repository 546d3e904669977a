import AccountGate.Proofs.Json.Records

/-!
How large whole numbers are when they are read. Main statement: a whole number in a field of a record
is one that 64 bits hold, with a sign or without.
-/

namespace AccountGate.Json

/-- If this is a whole number, 64 bits hold it. -/
def Word : Json → Prop
  | .number (.int n) => -(minMagnitude : Int) ≤ n ∧ n ≤ maxWord
  | _ => True

theorem word_of_number? {n : Numeral} {number : Number} (h : n.number? = some number) :
    Word (.number number) := by
  have hfloat (hreal : n.float?.map .real = some number) : Word (.number number) := by
    obtain ⟨x, -, rfl⟩ := Option.map_eq_some_iff.mp hreal
    trivial
  rw [Numeral.number?] at h
  split at h
  · dsimp only at h
    split at h
    · split at h
      · next hsmall =>
        obtain rfl := Option.some.inj h
        exact ⟨by have := hsmall.2; omega, by simp only [maxWord]; omega⟩
      · exact hfloat h
    · split at h
      · next hsmall =>
        obtain rfl := Option.some.inj h
        exact ⟨by omega, by omega⟩
      · exact hfloat h
  · exact hfloat h

variable {bs rest : Bytes}

theorem word_of_readValue {fuel depth : Nat} {v : Json}
    (h : readValue fuel depth bs = some (v, rest)) : Word v := by
  cases fuel with
  | zero => exact absurd h (by simp [readValue])
  | succ fuel =>
    have hstep := readValue_succ_iff.mp h
    generalize skipSpace bs = opened at hstep
    cases hstep with
    | numeral _ _ hnumber => exact word_of_number? hnumber
    | _ => trivial

theorem word_of_readItems {fuel depth : Nat} {vs : List Json}
    (h : readItems fuel depth bs = some (vs, rest)) : ∀ v ∈ vs, Word v := by
  induction fuel generalizing bs vs with
  | zero => exact absurd h (by simp [readItems])
  | succ fuel ih =>
    obtain ⟨v, more, hvalue, hcase⟩ := readItems_succ_iff.mp h
    have hfirst : Word v := word_of_readValue hvalue
    rcases hcase with ⟨back, vs', -, hitems, rfl⟩ | ⟨-, -, rfl⟩
    · exact List.forall_mem_cons.mpr ⟨hfirst, ih hitems⟩
    · exact List.forall_mem_singleton.mpr hfirst

namespace Record

variable {names : List String} {fields fields' : Fields}

/-- Every field that is there holds such a value. -/
def Words (fields : Fields) : Prop := ∀ i v, fields.getD i none = some v → Word v

theorem Takes.words {more : Bytes} (h : Takes names fields bs fields' more)
    (hlength : fields.length = names.length) (hfields : Words fields) : Words fields' := by
  cases h with
  | @known _ _ _ _ _ i value _ _ _ hi _ hvalue =>
    intro j v hv
    rw [getD_set (hlength ▸ lt_of_idxOf? hi)] at hv
    split at hv
    · obtain rfl := Option.some.inj hv
      exact word_of_readValue hvalue
    · exact hfields j v hv
  | other => exact hfields

theorem words_of_readMembers {fuel : Nat} (hlength : fields.length = names.length)
    (hfields : Words fields) (h : readMembers names fuel fields bs = some (fields', rest)) :
    Words fields' := by
  induction fuel generalizing fields bs with
  | zero => simp [readMembers] at h
  | succ fuel ih =>
    obtain ⟨taken, more, htakes, ⟨next, -, hmembers⟩ | ⟨-, rfl⟩⟩ := takes_of_readMembers h
    · exact ih (htakes.length_eq.trans hlength) (htakes.words hlength hfields) hmembers
    · exact htakes.words hlength hfields

theorem words_nothing (count : Nat) : Words (List.replicate count none) := by
  intro i v hv
  rw [List.getD_eq_getElem?_getD, List.getElem?_replicate] at hv
  split at hv <;> exact absurd hv (by simp)

/-- A whole number in a field of a record is one that 64 bits hold. -/
theorem words_of_read? (h : read? names bs = some fields) : Words fields := by
  cases hopen : expect 123 bs with
  | some rest =>
    obtain ⟨back, -, ⟨-, rfl⟩ | hmembers⟩ := exists_of_read?_object hopen h
    · exact words_nothing names.length
    · exact words_of_readMembers List.length_replicate (words_nothing names.length) hmembers
  | none =>
    obtain ⟨items, hparse, -, rfl⟩ := (read?_eq_some_iff_of_not_object hopen).mp h
    intro i v hv
    rw [getD_inOrder] at hv
    obtain ⟨rest, back, -, -, ⟨-, rfl⟩ | ⟨-, hitems⟩⟩ := parse?_eq_array_iff.mp hparse
    · exact absurd hv (by simp)
    · exact word_of_readItems hitems v (List.mem_of_getElem? hv)

end Record

end AccountGate.Json
