import AccountGate.Text.Blank
import Mathlib.Data.List.DropRight

/-!
Texts without a character at their end, and without the blanks around them. Main statements: what is
trimmed at the end is a row of that character, and what is left does not end in it; and a text that
neither starts nor ends with a blank is left when blanks around it are trimmed.
-/

namespace AccountGate.Text

variable {c : Char} {s t : String}

theorem toList_trimEndOf (c : Char) (s : String) :
    (trimEndOf c s).toList = s.toList.rdropWhile (· == c) := String.toList_ofList

theorem not_suffix_trimEndOf (c : Char) (s : String) : ¬ [c] <:+ (trimEndOf c s).toList := by
  rintro ⟨front, hfront⟩
  rw [toList_trimEndOf] at hfront
  have hne : s.toList.rdropWhile (· == c) ≠ [] := by simp [← hfront]
  have hlast := List.rdropWhile_last_not _ s.toList hne
  simp [← hfront] at hlast

theorem exists_toList_eq (c : Char) (s : String) :
    ∃ n, s.toList = (trimEndOf c s).toList ++ List.replicate n c := by
  refine ⟨(s.toList.rtakeWhile (· == c)).length, ?_⟩
  have hrow : s.toList.rtakeWhile (· == c) =
      List.replicate (s.toList.rtakeWhile (· == c)).length c :=
    List.eq_replicate_of_mem fun d hd => by simpa using List.mem_rtakeWhile_imp hd
  rw [toList_trimEndOf, ← hrow, List.rdropWhile_append_rtakeWhile]

theorem trimEndOf_append (c : Char) (s t : String) : trimEndOf c (s ++ t) =
    if trimEndOf c t = "" then trimEndOf c s else s ++ trimEndOf c t := by
  have hempty : trimEndOf c t = "" ↔ (t.toList.reverse.dropWhile (· == c)).isEmpty = true := by
    simp [← String.toList_inj, toList_trimEndOf, List.rdropWhile]
  rw [← String.toList_inj, toList_trimEndOf, String.toList_append, List.rdropWhile,
    List.reverse_append, List.dropWhile_append]
  by_cases h : (t.toList.reverse.dropWhile (· == c)).isEmpty = true
  · rw [if_pos h, if_pos (hempty.mpr h), toList_trimEndOf, List.rdropWhile]
  · rw [if_neg h, if_neg (mt hempty.mp h), String.toList_append, toList_trimEndOf,
      List.rdropWhile, List.reverse_append, List.reverse_reverse]

theorem trimEndOf_eq_iff :
    trimEndOf c s = t ↔ ¬ [c] <:+ t.toList ∧ ∃ n, s.toList = t.toList ++ List.replicate n c := by
  constructor
  · rintro rfl
    exact ⟨not_suffix_trimEndOf c s, exists_toList_eq c s⟩
  · rintro ⟨hend, n, hs⟩
    rw [← String.toList_inj, toList_trimEndOf, hs]
    clear hs
    induction n with
    | zero =>
      rw [List.replicate_zero, List.append_nil, List.rdropWhile_eq_self_iff]
      intro hne hlast
      refine hend ⟨t.toList.dropLast, ?_⟩
      rw [← beq_iff_eq.mp hlast, List.dropLast_append_getLast]
    | succ n ih =>
      rw [List.replicate_succ', ← List.append_assoc, List.rdropWhile_concat_pos _ _ _ (by simp), ih]

section Blanks

variable {before cs after : List Char}

theorem dropWhile_blanks (hbefore : ∀ c ∈ before, isBlank c = true)
    (hfirst : ∀ c ∈ cs.head?, isBlank c = false) : (before ++ cs).dropWhile isBlank = cs := by
  rw [List.dropWhile_append_of_pos hbefore]
  cases cs with
  | nil => rfl
  | cons c cs => exact List.dropWhile_cons_of_neg (by simp [hfirst c rfl])

theorem trimChars_blanks (hbefore : ∀ c ∈ before, isBlank c = true)
    (hafter : ∀ c ∈ after, isBlank c = true) (hfirst : ∀ c ∈ cs.head?, isBlank c = false)
    (hlast : ∀ c ∈ cs.getLast?, isBlank c = false) : trimChars (before ++ (cs ++ after)) = cs := by
  cases cs with
  | nil =>
    have hall : ∀ c ∈ before ++ after, isBlank c = true := List.forall_mem_append.mpr ⟨hbefore, hafter⟩
    have hnone : (before ++ after ++ []).dropWhile isBlank = [] := dropWhile_blanks hall (by simp)
    rw [List.append_nil] at hnone
    rw [trimChars, trimStart, List.nil_append, hnone]
    rfl
  | cons c cs =>
    have hstart : (before ++ (c :: cs ++ after)).dropWhile isBlank = c :: cs ++ after :=
      dropWhile_blanks hbefore hfirst
    have hend : (after.reverse ++ (c :: cs).reverse).dropWhile isBlank = (c :: cs).reverse :=
      dropWhile_blanks (by simpa using hafter) (by rwa [List.head?_reverse])
    rw [trimChars, trimStart, hstart, trimEnd, List.reverse_append, hend, List.reverse_reverse]

theorem trimChars_of_ends (hfirst : ∀ c ∈ cs.head?, isBlank c = false)
    (hlast : ∀ c ∈ cs.getLast?, isBlank c = false) : trimChars cs = cs := by
  have htrim : trimChars ([] ++ (cs ++ [])) = cs :=
    trimChars_blanks (by simp) (by simp) hfirst hlast
  rwa [List.nil_append, List.append_nil] at htrim

theorem trimChars_eq_self (h : ∀ c ∈ cs, isBlank c = false) : trimChars cs = cs :=
  trimChars_of_ends (fun c hc => h c (List.mem_of_head? hc))
    (fun c hc => h c (List.mem_of_getLast? hc))

theorem trimChars_infix (cs : List Char) : trimChars cs <:+: cs := by
  have hstart : trimStart cs <:+ cs := List.dropWhile_suffix _
  have hend : trimEnd (trimStart cs) <+: trimStart cs := List.rdropWhile_prefix _ _
  exact hend.isInfix.trans hstart.isInfix

/-- What is trimmed stays as it is. -/
theorem trimChars_trimChars (cs : List Char) : trimChars (trimChars cs) = trimChars cs := by
  have hfirst : ∀ c ∈ (trimChars cs).head?, isBlank c = false := by
    intro c hc
    have hprefix : trimChars cs <+: trimStart cs := List.rdropWhile_prefix _ _
    have hhead : (trimStart cs).head? = some c := by
      obtain ⟨rest, hrest⟩ := hprefix
      rw [← hrest, List.head?_append, Option.mem_def.mp hc, Option.some_or]
    have hnot := List.head?_dropWhile_not isBlank cs
    rw [show cs.dropWhile isBlank = trimStart cs from rfl, hhead] at hnot
    simpa using hnot
  have hlast : ∀ c ∈ (trimChars cs).getLast?, isBlank c = false := by
    intro c hc
    have hnot := List.head?_dropWhile_not isBlank (trimStart cs).reverse
    rw [← List.reverse_reverse ((trimStart cs).reverse.dropWhile isBlank), List.head?_reverse,
      show ((trimStart cs).reverse.dropWhile isBlank).reverse = trimChars cs from rfl,
      Option.mem_def.mp hc] at hnot
    simpa using hnot
  exact trimChars_of_ends hfirst hlast

end Blanks

end AccountGate.Text
