import AccountGate.Calendar.Date
import Mathlib.Tactic.Linarith
import Mathlib.Tactic.Ring

/-!
The order of dates and the reading of plain dates. Main statements: a text of up to four digits, a
dash, two digits, a dash and two digits reads as the date of those numbers when there is such a
date; and without its first digit it reads as an earlier date, leap days aside.
-/

namespace AccountGate.Date

theorem le_iff {a b : Date} : a ≤ b ↔ a.year < b.year ∨ (a.year = b.year ∧
    (a.month < b.month ∨ (a.month = b.month ∧ a.day ≤ b.day))) := by
  show a.le b = true ↔ _
  simp [Date.le]

theorem le_refl (a : Date) : a ≤ a := by
  rw [le_iff]
  omega

theorem le_trans {a b c : Date} (hab : a ≤ b) (hbc : b ≤ c) : a ≤ c := by
  rw [le_iff] at *
  omega

/-- The number that a string of digits writes, after the digits read before. -/
def valueOf (acc : Nat) (cs : List Char) : Nat :=
  cs.foldl (fun n c => n * 10 + (c.toNat - 48)) acc

theorem digit_le {c : Char} (h : isDigit c = true) : c.toNat - 48 ≤ 9 := by
  simp only [isDigit, Bool.and_eq_true, decide_eq_true_eq] at h
  have hle : c.toNat ≤ '9'.toNat := h.2
  have h9 : '9'.toNat = 57 := rfl
  omega

theorem not_isBlank_of_isDigit {c : Char} (h : isDigit c = true) : Text.isBlank c = false := by
  simp only [isDigit, Bool.and_eq_true, decide_eq_true_eq] at h
  have hge : '0'.toNat ≤ c.toNat := h.1
  have hle : c.toNat ≤ '9'.toNat := h.2
  have h0 : '0'.toNat = 48 := rfl
  have h9 : '9'.toNat = 57 := rfl
  simp only [Text.isBlank, Bool.or_eq_false_iff, Bool.and_eq_false_iff, decide_eq_false_iff_not,
    beq_eq_false_iff_ne]
  omega

theorem valueOf_lt {cs : List Char} (hd : ∀ c ∈ cs, isDigit c = true) (acc : Nat) :
    valueOf acc cs < (acc + 1) * 10 ^ cs.length := by
  induction cs generalizing acc with
  | nil => simp [valueOf]
  | cons c rest ih =>
    have hc := digit_le (hd c (by simp))
    have hstep := ih (fun x hx => hd x (by simp [hx])) (acc * 10 + (c.toNat - 48))
    calc valueOf acc (c :: rest) < (acc * 10 + (c.toNat - 48) + 1) * 10 ^ rest.length := hstep
      _ ≤ ((acc + 1) * 10) * 10 ^ rest.length := Nat.mul_le_mul_right _ (by omega)
      _ = (acc + 1) * 10 ^ (c :: rest).length := by rw [List.length_cons, pow_succ]; ring

/-- Digits are read up to the width or to what is no digit. -/
theorem digits_append {ds rest : List Char} {width acc : Nat}
    (hd : ∀ c ∈ ds, isDigit c = true) (hw : ds.length ≤ width)
    (hstop : ds.length = width ∨ ∀ c ∈ rest.head?, isDigit c = false)
    (hmax : (acc + 1) * 10 ^ ds.length ≤ maxNumber) :
    digits acc width (ds ++ rest) = .ok (valueOf acc ds, rest) := by
  induction ds generalizing acc width with
  | nil =>
    cases width with
    | zero => simp [digits, valueOf]
    | succ width =>
      cases rest with
      | nil => simp [digits, valueOf]
      | cons c rest =>
        have hc : isDigit c = false := by simpa using hstop
        simp [digits, hc, valueOf]
  | cons d ds ih =>
    obtain ⟨width, rfl⟩ : ∃ w, width = w + 1 := ⟨width - 1, by simp at hw; omega⟩
    have hdig := hd d (by simp)
    have hle := digit_le hdig
    have hnext : (acc * 10 + (d.toNat - 48) + 1) * 10 ^ ds.length ≤ maxNumber := by
      have hmul : (acc * 10 + (d.toNat - 48) + 1) * 10 ^ ds.length ≤
          ((acc + 1) * 10) * 10 ^ ds.length := Nat.mul_le_mul_right _ (by omega)
      rw [List.length_cons, pow_succ] at hmax
      linarith [mul_comm (10 ^ ds.length) 10, mul_assoc (acc + 1) 10 (10 ^ ds.length)]
    have hsmall : ¬ maxNumber < acc * 10 + (d.toNat - 48) := by
      have hpos : 1 ≤ 10 ^ ds.length := Nat.one_le_pow _ _ (by decide)
      nlinarith
    have hih := ih (fun x hx => hd x (by simp [hx])) (by simpa using hw)
      (by simpa using hstop) hnext
    rw [List.cons_append, digits, if_pos hdig]
    simp only [if_neg hsmall, hih]
    rfl

theorem number_append {ds : List Char} {width : Nat} (rest : List Char)
    (hd : ∀ c ∈ ds, isDigit c = true) (hne : ds ≠ []) (hw : ds.length ≤ width)
    (hstop : ds.length = width ∨ ∀ c ∈ rest.head?, isDigit c = false) (hshort : ds.length ≤ 18) :
    number width (ds ++ rest) = .ok (valueOf 0 ds, rest) := by
  have hmax : (0 + 1) * 10 ^ ds.length ≤ maxNumber := by
    have hpow : 10 ^ ds.length ≤ 10 ^ 18 := Nat.pow_le_pow_right (by decide) hshort
    have hbound : 10 ^ 18 ≤ maxNumber := by decide
    omega
  obtain ⟨d, ds, rfl⟩ := List.exists_cons_of_ne_nil hne
  rw [List.cons_append, number]
  simp only [hd d (by simp), if_true]
  exact digits_append hd hw hstop hmax

/-- Year, month and day in digits with dashes between them. -/
def plain (year month day : List Char) : List Char := year ++ '-' :: (month ++ '-' :: day)

/-- One to four digits for the year and two for the month and for the day. -/
structure IsPlain (year month day : List Char) : Prop where
  year_digits : ∀ c ∈ year, isDigit c = true
  month_digits : ∀ c ∈ month, isDigit c = true
  day_digits : ∀ c ∈ day, isDigit c = true
  year_length : 1 ≤ year.length ∧ year.length ≤ 4
  month_length : month.length = 2
  day_length : day.length = 2

variable {year month day : List Char}

theorem trimStart_of_digit {c : Char} (rest : List Char) (h : isDigit c = true) :
    Text.trimStart (c :: rest) = c :: rest := by
  simp [Text.trimStart, not_isBlank_of_isDigit h]

theorem trimStart_of_digits {ds : List Char} (rest : List Char)
    (hd : ∀ c ∈ ds, isDigit c = true) (hne : ds ≠ []) :
    Text.trimStart (ds ++ rest) = ds ++ rest := by
  obtain ⟨d, ds, rfl⟩ := List.exists_cons_of_ne_nil hne
  exact trimStart_of_digit _ (hd d (by simp))

theorem trimEnd_of_digits {ds : List Char} (start : List Char)
    (hd : ∀ c ∈ ds, isDigit c = true) (hne : ds ≠ []) :
    Text.trimEnd (start ++ ds) = start ++ ds := by
  -- The end is trimmed as the start of the text read backwards.
  have hback : ds.reverse ≠ [] := by simpa using hne
  have hkeep := trimStart_of_digits start.reverse (fun c hc => hd c (by simpa using hc)) hback
  rw [Text.trimEnd, List.reverse_append]
  show (Text.trimStart (ds.reverse ++ start.reverse)).reverse = start ++ ds
  rw [hkeep]
  simp

theorem IsPlain.trimChars_eq (h : IsPlain year month day) :
    Text.trimChars (plain year month day) = plain year month day := by
  have hy : year ≠ [] := List.ne_nil_of_length_pos h.year_length.1
  have hd : day ≠ [] := List.ne_nil_of_length_pos (by rw [h.day_length]; decide)
  have hstart := trimStart_of_digits ('-' :: (month ++ '-' :: day)) h.year_digits hy
  have hend := trimEnd_of_digits (year ++ '-' :: (month ++ ['-'])) h.day_digits hd
  rw [plain, Text.trimChars, hstart]
  simpa using hend

theorem IsPlain.readYear_eq (h : IsPlain year month day) (rest : List Char) :
    readYear (year ++ '-' :: rest) = .ok ((valueOf 0 year : Int), '-' :: rest) := by
  obtain ⟨hpos, hle⟩ := h.year_length
  have hne : year ≠ [] := List.ne_nil_of_length_pos hpos
  have hnum := number_append ('-' :: rest) h.year_digits hne hle
    (.inr (by simp; decide)) (by omega)
  have hval := valueOf_lt h.year_digits 0
  have hpow : 10 ^ year.length ≤ 10 ^ 4 := Nat.pow_le_pow_right (by decide) hle
  have hrange : -2147483648 ≤ (valueOf 0 year : Int) ∧ (valueOf 0 year : Int) < 2147483648 := by
    constructor <;> omega
  have htrim := trimStart_of_digits ('-' :: rest) h.year_digits hne
  obtain ⟨c, cs, rfl⟩ := List.exists_cons_of_ne_nil hne
  have hc : isDigit c = true := h.year_digits c (by simp)
  have hminus : c ≠ '-' := by rintro rfl; exact absurd hc (by decide)
  have hplus : c ≠ '+' := by rintro rfl; exact absurd hc (by decide)
  rw [readYear]
  simp only [htrim]
  rw [List.cons_append] at hnum ⊢
  split
  · next heq => simp_all
  · next heq => simp_all
  · simp only [hnum, Except.map, bind, Except.bind, if_pos hrange]

theorem readPart_append {ds : List Char} (limit : Nat) (rest : List Char)
    (hd : ∀ c ∈ ds, isDigit c = true) (hl : ds.length = 2) :
    readPart limit (ds ++ rest) =
      if 1 ≤ valueOf 0 ds ∧ valueOf 0 ds ≤ limit then .ok (valueOf 0 ds, rest)
      else .error .outOfRange := by
  have hne : ds ≠ [] := List.ne_nil_of_length_pos (by omega)
  have hnum := number_append rest hd hne (by omega) (.inl hl) (by omega)
  rw [readPart, trimStart_of_digits rest hd hne, hnum]
  rfl

theorem daysIn_le (year : Int) (month : Nat) : daysIn year month ≤ 31 := by
  unfold daysIn
  split
  · split <;> decide
  · split <;> decide

theorem isValid_iff {d : Date} : d.isValid = true ↔ (minYear ≤ d.year ∧ d.year ≤ maxYear) ∧
    (1 ≤ d.month ∧ d.month ≤ 12) ∧ 1 ≤ d.day ∧ d.day ≤ daysIn d.year d.month := by
  simp only [isValid, Bool.and_eq_true, decide_eq_true_eq, and_assoc]

theorem bounds_of_isValid {d : Date} (h : d.isValid = true) :
    (1 ≤ d.month ∧ d.month ≤ 12) ∧ 1 ≤ d.day ∧ d.day ≤ 31 := by
  obtain ⟨_, hmonth, hpos, hdays⟩ := isValid_iff.mp h
  exact ⟨hmonth, hpos, hdays.trans (daysIn_le d.year d.month)⟩

/-- A plain date reads as the date of its numbers. -/
theorem IsPlain.parse_eq (h : IsPlain year month day) :
    parse (String.ofList (plain year month day)) =
      let d : Date := ⟨valueOf 0 year, valueOf 0 month, valueOf 0 day⟩
      if d.isValid then .ok d else .error .outOfRange := by
  rw [parse, String.toList_ofList, h.trimChars_eq, plain, h.readYear_eq]
  have hm := readPart_append 12 ('-' :: day) h.month_digits h.month_length
  have hd := readPart_append 31 [] h.day_digits h.day_length
  rw [List.append_nil] at hd
  simp only [bind, Except.bind, readDash, if_true, hm]
  by_cases hmonth : 1 ≤ valueOf 0 month ∧ valueOf 0 month ≤ 12
  · simp only [if_pos hmonth, if_true, hd]
    by_cases hday : 1 ≤ valueOf 0 day ∧ valueOf 0 day ≤ 31
    · simp [hday]
    · have hbad : ¬ (⟨valueOf 0 year, valueOf 0 month, valueOf 0 day⟩ : Date).isValid = true :=
        fun hv => hday (bounds_of_isValid hv).2
      simp only [if_neg hday, if_neg hbad]
  · have hbad : ¬ (⟨valueOf 0 year, valueOf 0 month, valueOf 0 day⟩ : Date).isValid = true :=
      fun hv => hmonth (bounds_of_isValid hv).1
    simp only [if_neg hmonth, if_neg hbad]

theorem valueOf_cons (c : Char) (cs : List Char) :
    valueOf 0 cs ≤ valueOf 0 (c :: cs) := by
  have hmono : ∀ (cs : List Char) (m n : Nat), m ≤ n → valueOf m cs ≤ valueOf n cs := by
    intro cs
    induction cs with
    | nil => exact fun _ _ h => h
    | cons c cs ih =>
      intro m n h
      have hstep : m * 10 + (c.toNat - 48) ≤ n * 10 + (c.toNat - 48) := by omega
      exact ih _ _ hstep
  exact hmono cs 0 _ (Nat.zero_le _)

/-- Only the 29th of February depends on the year. -/
theorem le_daysIn {year year' : Int} {month day : Nat} (h : day ≤ daysIn year month)
    (hleap : ¬ (month = 2 ∧ day = 29)) : day ≤ daysIn year' month := by
  unfold daysIn at *
  by_cases hm : month = 2
  · -- Any February has 28 days.
    have hday : day ≤ 28 := by
      simp only [hm, beq_self_eq_true, if_true] at h
      split at h <;> omega
    simp only [hm, beq_self_eq_true, if_true]
    split <;> omega
  · simpa [hm] using h

/-- Without the first digit of its year a plain date still reads as a date, and an earlier one,
unless it is a leap day. -/
theorem IsPlain.parse_tail {c : Char} {d : Date} (h : IsPlain (c :: year) month day)
    (hy : year ≠ []) (hp : parse (String.ofList (plain (c :: year) month day)) = .ok d)
    (hleap : ¬ (d.month = 2 ∧ d.day = 29)) :
    ∃ d', parse (String.ofList (plain year month day)) = .ok d' ∧ d' ≤ d := by
  have htail : IsPlain year month day :=
    { h with
      year_digits := fun x hx => h.year_digits x (by simp [hx])
      year_length := ⟨List.length_pos_iff.mpr hy, Nat.le_of_succ_le h.year_length.2⟩ }
  have hsmall := valueOf_cons c year
  have hyear := valueOf_lt h.year_digits 0
  have hpow : 10 ^ (c :: year).length ≤ 10 ^ 4 :=
    Nat.pow_le_pow_right (by decide) h.year_length.2
  simp only [h.parse_eq] at hp
  split at hp
  · next hv =>
    obtain rfl := Except.ok.inj hp
    obtain ⟨_, hmonth, hpos, hdays⟩ := isValid_iff.mp hv
    have hrange : minYear ≤ (valueOf 0 year : Int) ∧ (valueOf 0 year : Int) ≤ maxYear := by
      simp only [minYear, maxYear]
      omega
    have hvalid : (⟨valueOf 0 year, valueOf 0 month, valueOf 0 day⟩ : Date).isValid = true :=
      isValid_iff.mpr ⟨hrange, hmonth, hpos, le_daysIn hdays hleap⟩
    refine ⟨⟨valueOf 0 year, valueOf 0 month, valueOf 0 day⟩, ?_, ?_⟩
    · simp only [htail.parse_eq, if_pos hvalid]
    · rw [le_iff]
      rcases Nat.lt_or_eq_of_le hsmall with hlt | heq
      · exact .inl (Int.ofNat_lt.mpr hlt)
      · exact .inr ⟨congrArg Int.ofNat heq, .inr ⟨rfl, Nat.le_refl _⟩⟩
  · exact absurd hp (by simp)

end AccountGate.Date
