/-!
Lists of entries under keys. Main statements: taking the entries of one key away leaves nothing under
that key, and all that is under the others.
-/

namespace AccountGate.Assoc

variable {κ ν : Type} [BEq κ] [LawfulBEq κ]

theorem lookup_filter_self (key : κ) (entries : List (κ × ν)) :
    (entries.filter fun e => e.1 != key).lookup key = none := by
  rw [List.lookup_eq_none_iff]
  intro e he
  have h := (List.mem_filter.1 he).2
  rw [bne_iff_ne] at h ⊢
  exact Ne.symm h

theorem lookup_filter_ne {key other : κ} (h : other ≠ key) (entries : List (κ × ν)) :
    (entries.filter fun e => e.1 != key).lookup other = entries.lookup other := by
  induction entries with
  | nil => rfl
  | cons e rest ih =>
    obtain ⟨k, value⟩ := e
    by_cases hk : k = key
    · subst hk
      have ho : (other == k) = false := beq_false_of_ne h
      rw [List.filter_cons_of_neg (by simp), ih, List.lookup_cons, ho]
    · rw [List.filter_cons_of_pos (by simp [hk]), List.lookup_cons, List.lookup_cons, ih]

end AccountGate.Assoc
