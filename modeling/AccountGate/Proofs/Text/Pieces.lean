import AccountGate.Text.Blank
import Mathlib.Data.List.Basic

/-!
Texts in pieces. Main statement: the pieces of a text are the texts without the separator that it is
joined from.
-/

namespace AccountGate.Text

variable {sep : Char} {cs piece next : List Char} {more : List (List Char)}

theorem pieces_of_not_mem (h : sep ∉ cs) : pieces sep cs = [cs] := by
  induction cs with
  | nil => rfl
  | cons c rest ih =>
    have hc : (c == sep) = false := beq_false_of_ne fun heq => h (heq ▸ List.mem_cons_self)
    rw [pieces, hc, ih fun hmem => h (List.mem_cons_of_mem c hmem)]
    rfl

theorem pieces_append (sep : Char) (cs ds : List Char) :
    pieces sep (cs ++ sep :: ds) = pieces sep cs ++ pieces sep ds := by
  induction cs with
  | nil => simp [pieces]
  | cons c rest ih =>
    rw [List.cons_append, pieces, pieces, ih]
    by_cases hc : (c == sep) = true
    · simp [hc]
    · rw [if_neg hc, if_neg hc]
      cases hp : pieces sep rest with
      | nil => exact absurd hp (pieces_ne_nil sep rest)
      | cons first others => rfl

/-- The first piece ends where the separator is met first. -/
theorem pieces_cases (sep : Char) (cs : List Char) : sep ∉ cs ∧ pieces sep cs = [cs] ∨
    ∃ front back, sep ∉ front ∧ cs = front ++ sep :: back ∧
      pieces sep cs = front :: pieces sep back := by
  by_cases hmem : sep ∈ cs
  · obtain ⟨front, back, rfl, hfront⟩ := List.eq_append_cons_of_mem hmem
    exact .inr ⟨front, back, hfront, rfl, by rw [pieces_append, pieces_of_not_mem hfront]; rfl⟩
  · exact .inl ⟨hmem, pieces_of_not_mem hmem⟩

theorem pieces_eq_singleton_iff : pieces sep cs = [piece] ↔ sep ∉ piece ∧ cs = piece := by
  constructor
  · intro h
    rcases pieces_cases sep cs with ⟨hmem, hone⟩ | ⟨front, back, -, -, hcons⟩
    · obtain rfl := List.singleton_inj.mp (hone.symm.trans h)
      exact ⟨hmem, rfl⟩
    · have htail := (List.cons.inj (hcons.symm.trans h)).2
      exact absurd htail (pieces_ne_nil sep back)
  · rintro ⟨hmem, rfl⟩
    exact pieces_of_not_mem hmem

theorem pieces_eq_cons_cons_iff : pieces sep cs = piece :: next :: more ↔
    sep ∉ piece ∧ ∃ back, cs = piece ++ sep :: back ∧ pieces sep back = next :: more := by
  constructor
  · intro h
    rcases pieces_cases sep cs with ⟨-, hone⟩ | ⟨front, back, hfront, hcs, hcons⟩
    · exact absurd (hone.symm.trans h) (by simp)
    · obtain ⟨rfl, htail⟩ := List.cons.inj (hcons.symm.trans h)
      exact ⟨hfront, back, hcs, htail⟩
  · rintro ⟨hmem, back, rfl, hback⟩
    rw [pieces_append, pieces_of_not_mem hmem, hback]
    rfl

/-- No piece has the separator in it. -/
theorem not_mem_of_mem_pieces (h : piece ∈ pieces sep cs) : sep ∉ piece := by
  induction cs generalizing piece with
  | nil =>
    rw [List.mem_singleton.mp h]
    exact List.not_mem_nil
  | cons c rest ih =>
    rw [pieces] at h
    split at h
    · rcases List.mem_cons.mp h with rfl | h
      · exact List.not_mem_nil
      · exact ih h
    · next hc =>
      have hne : sep ≠ c := fun heq => hc (beq_iff_eq.mpr heq.symm)
      split at h
      · next hnone => exact absurd hnone (pieces_ne_nil sep rest)
      · next first others hsome =>
        rw [hsome] at ih
        rcases List.mem_cons.mp h with rfl | h
        · exact List.not_mem_cons_of_ne_of_not_mem hne (ih List.mem_cons_self)
        · exact ih (List.mem_cons_of_mem _ h)

theorem pieces_intercalate (sep : Char) {rows : List (List Char)} (h : rows ≠ []) :
    pieces sep ([sep].intercalate rows) = rows.flatMap (pieces sep) := by
  induction rows with
  | nil => exact absurd rfl h
  | cons row rest ih =>
    cases rest with
    | nil => simp [List.intercalate]
    | cons next more =>
      have hsplit : [sep].intercalate (row :: next :: more) =
          row ++ sep :: [sep].intercalate (next :: more) := by simp [List.intercalate]
      rw [hsplit, pieces_append, ih (List.cons_ne_nil _ _)]
      exact List.flatMap_cons.symm

/-- Three pieces are what two separators leave. -/
theorem split_eq_three_iff {s head middle tail : String} : split sep s = [head, middle, tail] ↔
    s.toList = head.toList ++ sep :: (middle.toList ++ sep :: tail.toList) ∧
      sep ∉ head.toList ∧ sep ∉ middle.toList ∧ sep ∉ tail.toList := by
  have hpieces : split sep s = [head, middle, tail] ↔
      pieces sep s.toList = [head.toList, middle.toList, tail.toList] := by
    have hmap : [head, middle, tail] =
        [head.toList, middle.toList, tail.toList].map String.ofList := by simp
    rw [split, hmap]
    exact (List.map_injective_iff.mpr fun _ _ => String.ofList_injective).eq_iff
  rw [hpieces]
  simp only [pieces_eq_cons_cons_iff, pieces_eq_singleton_iff]
  constructor
  · rintro ⟨hhead, back, hs, hmiddle, back', rfl, htail, rfl⟩
    exact ⟨hs, hhead, hmiddle, htail⟩
  · rintro ⟨hs, hhead, hmiddle, htail⟩
    exact ⟨hhead, _, hs, hmiddle, _, rfl, htail, rfl⟩

end AccountGate.Text
