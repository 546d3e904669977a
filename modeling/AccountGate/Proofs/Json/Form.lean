import AccountGate.Proofs.Json.Texts
import Mathlib.Data.List.TakeWhile

/-!
The form of JSON texts, as a grammar over their bytes. Main statements: what is stepped over is a
value of this form, and so is what is read; and whatever is read is stepped over in the same way.
-/

namespace AccountGate.Json

def Blank (bs : Bytes) : Prop := ∀ b ∈ bs, isSpace b = true

def IsHex (b : UInt8) : Prop := 48 ≤ b ∧ b ≤ 57 ∨ 97 ≤ b ∧ b ≤ 102 ∨ 65 ≤ b ∧ b ≤ 70

/-- What stands between the quotes of a string. Bytes beyond ASCII stand there as they are. -/
inductive StringForm : Bytes → Prop
  | nil : StringForm []
  | plain {b : UInt8} {rest : Bytes} (hquote : b ≠ 34) (hslash : b ≠ 92) (hcontrol : ¬ b < 32)
      (h : StringForm rest) : StringForm (b :: rest)
  | escape {e : UInt8} {rest : Bytes} (he : e ∈ [34, 92, 47, 98, 102, 110, 114, 116])
      (h : StringForm rest) : StringForm (92 :: e :: rest)
  | code {a b c d : UInt8} {rest : Bytes} (ha : IsHex a) (hb : IsHex b) (hc : IsHex c)
      (hd : IsHex d) (h : StringForm rest) : StringForm (92 :: 117 :: a :: b :: c :: d :: rest)

def DigitsForm (bs : Bytes) : Prop := bs ≠ [] ∧ ∀ b ∈ bs, isDigit b = true

inductive FractionForm : Bytes → Prop
  | none : FractionForm []
  | some {digits : Bytes} (h : DigitsForm digits) : FractionForm (46 :: digits)

inductive ExponentForm : Bytes → Prop
  | none : ExponentForm []
  | some {e : UInt8} {sign digits : Bytes} (he : e = 101 ∨ e = 69)
      (hsign : sign = [] ∨ sign = [45] ∨ sign = [43]) (h : DigitsForm digits) :
      ExponentForm (e :: (sign ++ digits))

/-- A numeral; a zero at its front stands alone before the point. -/
inductive NumeralForm : Bytes → Prop
  | mk {sign whole fraction exponent : Bytes} (hsign : sign = [] ∨ sign = [45])
      (hwhole : DigitsForm whole) (hzero : whole.head? = some 48 → whole = [48])
      (hfraction : FractionForm fraction) (hexponent : ExponentForm exponent) :
      NumeralForm (sign ++ (whole ++ (fraction ++ exponent)))

/-- The name of a member, with the blanks around it. -/
inductive NameForm (name : Bytes) : Bytes → Prop
  | mk {before after : Bytes} (hbefore : Blank before) (hname : StringForm name)
      (hafter : Blank after) : NameForm name (before ++ 34 :: (name ++ 34 :: after))

mutual

/-- A value, with any blanks around it. -/
inductive ValueForm : Bytes → Prop
  | null : ValueForm (Text.bytes "null")
  | yes : ValueForm (Text.bytes "true")
  | no : ValueForm (Text.bytes "false")
  | string {s : Bytes} (h : StringForm s) : ValueForm (34 :: (s ++ [34]))
  | numeral {n : Bytes} (h : NumeralForm n) : ValueForm n
  | emptyArray {w : Bytes} (h : Blank w) : ValueForm (91 :: (w ++ [93]))
  | array {bs : Bytes} (h : ItemsForm bs) : ValueForm (91 :: (bs ++ [93]))
  | emptyObject {w : Bytes} (h : Blank w) : ValueForm (123 :: (w ++ [125]))
  | object {members : List (Bytes × Bytes)} {bs : Bytes} (h : MembersForm members bs) :
      ValueForm (123 :: (bs ++ [125]))
  | padded {before v after : Bytes} (hbefore : Blank before) (h : ValueForm v)
      (hafter : Blank after) : ValueForm (before ++ (v ++ after))

/-- Values with commas between them. -/
inductive ItemsForm : Bytes → Prop
  | last {v : Bytes} (h : ValueForm v) : ItemsForm v
  | cons {v rest : Bytes} (h : ValueForm v) (hrest : ItemsForm rest) : ItemsForm (v ++ 44 :: rest)

/-- Names and values of some members, and the bytes that they are written with. -/
inductive MembersForm : List (Bytes × Bytes) → Bytes → Prop
  | last {name p v : Bytes} (hname : NameForm name p) (h : ValueForm v) :
      MembersForm [(name, v)] (p ++ 58 :: v)
  | cons {name p v rest : Bytes} {members : List (Bytes × Bytes)} (hname : NameForm name p)
      (h : ValueForm v) (hrest : MembersForm members rest) :
      MembersForm ((name, v) :: members) (p ++ 58 :: (v ++ 44 :: rest))

end

section Blanks

variable {b : UInt8} {bs rest : Bytes}

theorem exists_blank (bs : Bytes) : ∃ w, Blank w ∧ bs = w ++ skipSpace bs :=
  ⟨bs.takeWhile isSpace, fun _ => List.mem_takeWhile_imp, (List.takeWhile_append_dropWhile).symm⟩

theorem exists_blank_of_expect (h : expect b bs = some rest) :
    ∃ w, Blank w ∧ bs = w ++ b :: rest := by
  obtain ⟨w, hw, hbs⟩ := exists_blank bs
  rw [expect] at h
  cases hskip : skipSpace bs with
  | nil => simp [hskip] at h
  | cons c more =>
    rw [hskip] at h hbs
    dsimp only at h
    split at h
    · next hc => exact ⟨w, hw, by rw [hbs, hc, Option.some.inj h]⟩
    · exact absurd h (by simp)

theorem Blank.append {w w' : Bytes} (h : Blank w) (h' : Blank w') : Blank (w ++ w') :=
  fun b hb => (List.mem_append.mp hb).elim (h b) (h' b)

theorem blank_nil : Blank [] := fun _ h => absurd h List.not_mem_nil

end Blanks

section Strings

variable {bs rest : Bytes}

theorem isHex_of_hexValue? {b : UInt8} (h : (hexValue? b).isSome) : IsHex b := by
  rw [hexValue?] at h
  split at h
  · next hb => exact .inl hb
  · split at h
    · next hb => exact .inr (.inl hb)
    · split at h
      · next hb => exact .inr (.inr hb)
      · exact absurd h (by simp)

theorem isHex_of_hex4? {a b c d : UInt8} (h : (hex4? a b c d).isSome) :
    IsHex a ∧ IsHex b ∧ IsHex c ∧ IsHex d := by
  obtain ⟨n, hn⟩ := Option.isSome_iff_exists.mp h
  simp only [hex4?, Option.bind_eq_bind, Option.bind_eq_some_iff] at hn
  obtain ⟨x, hx, y, hy, z, hz, w, hw, -⟩ := hn
  exact ⟨isHex_of_hexValue? (by simp [hx]), isHex_of_hexValue? (by simp [hy]),
    isHex_of_hexValue? (by simp [hz]), isHex_of_hexValue? (by simp [hw])⟩

theorem mem_of_escape? {e : UInt8} (h : (escape? e).isSome) :
    e ∈ [34, 92, 47, 98, 102, 110, 114, 116] := by
  have hall : ∀ n < 256, (escape? (.ofNat n)).isSome →
      UInt8.ofNat n ∈ [34, 92, 47, 98, 102, 110, 114, 116] := by
    decide +kernel
  revert h
  exact Text.forall_byte (P := fun e => (escape? e).isSome → e ∈ _) hall e

/-- What is stepped over is a string up to its closing quote. -/
theorem exists_form_of_skipString (h : skipString bs = some rest) :
    ∃ s, StringForm s ∧ bs = s ++ 34 :: rest := by
  fun_induction skipString bs with
  | case2 more => exact ⟨[], .nil, by rw [Option.some.inj h]; rfl⟩
  | case4 a b c d more hhex _ ih =>
    obtain ⟨s, hs, rfl⟩ := ih h
    obtain ⟨ha, hb, hc, hd⟩ := isHex_of_hex4? hhex
    exact ⟨_, .code ha hb hc hd hs, rfl⟩
  | case7 e more _ hescape _ ih =>
    obtain ⟨s, hs, rfl⟩ := ih h
    exact ⟨_, .escape (mem_of_escape? hescape) hs, rfl⟩
  | case10 b more hquote hslash hcontrol ih =>
    obtain ⟨s, hs, rfl⟩ := ih h
    exact ⟨_, .plain hquote hslash hcontrol hs, rfl⟩
  | _ => exact absurd h (by simp)

/-- What is read as a string has the form of one, and reads the same with anything after it. -/
theorem exists_form_of_stringBody {acc body : Bytes}
    (h : stringBody acc bs = some (body, rest)) : ∃ s, StringForm s ∧ bs = s ++ 34 :: rest ∧
      skipString bs = some rest ∧
      ∀ more, stringBody acc (s ++ 34 :: more) = some (body, more) := by
  fun_induction stringBody acc bs with
  | case2 acc more =>
    obtain ⟨rfl, rfl⟩ := Prod.mk.inj (Option.some.inj h)
    refine ⟨[], .nil, rfl, ?_, fun more => ?_⟩
    · rw [skipString.eq_def]
      rfl
    · exact stringBody_quote
  | case6 acc a b c d u hu hhigh s v a' b' c' d' more w hw hlow _ ih =>
    obtain ⟨s, hs, rfl, hskip, hread⟩ := ih h
    obtain ⟨rfl, rfl, hlow⟩ := hlow
    obtain ⟨ha, hb, hc, hd⟩ := isHex_of_hex4? (by rw [hu]; rfl)
    obtain ⟨ha', hb', hc', hd'⟩ := isHex_of_hex4? (by rw [hw]; rfl)
    refine ⟨_, .code ha hb hc hd (.code ha' hb' hc' hd' hs), rfl, ?_, fun more => ?_⟩
    · simp [skipString, hu, hw, hskip]
    · simp [stringBody, hu, hw, hhigh, hlow, hread]
  | case10 acc a b c d more u hu hhigh hlow _ ih =>
    obtain ⟨s, hs, rfl, hskip, hread⟩ := ih h
    obtain ⟨ha, hb, hc, hd⟩ := isHex_of_hex4? (by rw [hu]; rfl)
    refine ⟨_, .code ha hb hc hd hs, rfl, ?_, fun more => ?_⟩
    · simp [skipString, hu, hskip]
    · simp only [List.cons_append, stringBody, hu, if_neg hhigh, if_neg hlow, hread]
      simp
  | case12 acc e more he c hc _ ih =>
    obtain ⟨s, hs, rfl, hskip, hread⟩ := ih h
    refine ⟨_, .escape (mem_of_escape? (by rw [hc]; rfl)) hs, rfl, ?_, fun more => ?_⟩
    · rw [skipString.eq_def]
      simp [he, hc, hskip]
    · show stringBody acc (92 :: e :: (s ++ 34 :: more)) = _
      rw [stringBody_escape he hc, hread]
  | case15 acc b more hquote hslash hcontrol ih =>
    obtain ⟨s, hs, rfl, hskip, hread⟩ := ih h
    refine ⟨_, .plain hquote hslash hcontrol hs, rfl, ?_, fun more => ?_⟩
    · rw [skipString.eq_def]
      simp [hquote, hslash, hcontrol, hskip]
    · exact ((stringBody_step acc _).2.1 b ⟨hquote, hslash, hcontrol⟩).trans (hread more)
  | _ => exact absurd h (by simp)

theorem length_lt_length_pushChar (n : Nat) (acc : Bytes) :
    acc.length < (pushChar n acc).length := by
  have hpos : 0 < (String.utf8EncodeChar (Char.ofNat n)).length :=
    List.length_pos_iff.mpr String.utf8EncodeChar_ne_nil
  simp only [pushChar, List.length_append, List.length_reverse]
  omega

/-- Reading a string adds to what has been read, unless the quote closes at once. -/
theorem length_lt_of_stringBody {acc body : Bytes} (h : stringBody acc bs = some (body, rest)) :
    bs = 34 :: rest ∧ body = acc.reverse ∨ acc.length < body.length := by
  have hlonger {acc acc' more : Bytes} (hlength : acc.length < acc'.length)
      (h : more = 34 :: rest ∧ body = acc'.reverse ∨ acc'.length < body.length) :
      acc.length < body.length := by
    rcases h with ⟨-, rfl⟩ | h
    · simpa using hlength
    · exact hlength.trans h
  fun_induction stringBody acc bs with
  | case2 acc more =>
    obtain ⟨rfl, rfl⟩ := Prod.mk.inj (Option.some.inj h)
    exact .inl ⟨rfl, rfl⟩
  | case6 _ _ _ _ _ _ _ _ _ _ _ _ _ _ _ _ _ _ _ ih =>
    exact .inr (hlonger (length_lt_length_pushChar _ _) (ih h))
  | case10 _ _ _ _ _ _ _ _ _ _ _ ih =>
    exact .inr (hlonger (length_lt_length_pushChar _ _) (ih h))
  | case12 _ _ _ _ _ _ _ ih => exact .inr (hlonger (Nat.lt_succ_self _) (ih h))
  | case15 _ _ _ _ _ _ ih => exact .inr (hlonger (Nat.lt_succ_self _) (ih h))
  | _ => exact absurd h (by simp)

/-- The empty text is written by two quotes only. -/
theorem eq_of_readString_empty (h : readString bs = some ("", rest)) : bs = 34 :: rest := by
  simp only [readString, Option.bind_eq_bind, Option.bind_eq_some_iff] at h
  obtain ⟨⟨body, rest'⟩, hbody, text, htext, h⟩ := h
  obtain ⟨rfl, rfl⟩ := Prod.mk.inj (Option.some.inj h)
  obtain rfl := Text.decode?_eq_empty_iff.mp htext
  rcases length_lt_of_stringBody hbody with ⟨hbs, -⟩ | hlength
  · exact hbs
  · exact absurd hlength (by simp)

end Strings

section Numerals

variable {bs rest : Bytes}

/-- Digits are taken from the front; where there are none, nothing is taken. -/
theorem exists_form_of_takeDigits (bs : Bytes) : ∃ raw, bs = raw ++ (takeDigits bs).2 ∧
    (takeDigits bs).1 = raw.map digitOf ∧ ((takeDigits bs).1 ≠ [] → DigitsForm raw) := by
  refine ⟨bs.takeWhile isDigit, (List.takeWhile_append_dropWhile).symm, rfl, fun hne => ⟨?_, ?_⟩⟩
  · intro hnil
    exact hne (by rw [takeDigits, hnil]; rfl)
  · exact fun b hb => List.mem_takeWhile_imp hb

/-- Digits that there must be. -/
theorem exists_form_of_some_digits {α : Type} {f : List Nat → α} {a : α}
    (h : (match takeDigits bs with
      | ([], _) => none
      | (digits, rest) => some (f digits, rest)) = some (a, rest)) :
    ∃ raw, DigitsForm raw ∧ bs = raw ++ rest := by
  obtain ⟨raw, hbs, -, hform⟩ := exists_form_of_takeDigits bs
  split at h
  · exact absurd h (by simp)
  · next digits more hne htake =>
    obtain ⟨-, rfl⟩ := Prod.mk.inj (Option.some.inj h)
    rw [htake] at hbs hform
    exact ⟨raw, hform hne, hbs⟩

theorem exists_form_of_readFraction {fraction : Option (List Nat)}
    (h : Numeral.readFraction bs = some (fraction, rest)) :
    ∃ raw, FractionForm raw ∧ bs = raw ++ rest := by
  cases bs with
  | nil =>
    obtain ⟨-, rfl⟩ := Prod.mk.inj (Option.some.inj h)
    exact ⟨[], .none, rfl⟩
  | cons b more =>
    rw [Numeral.readFraction] at h
    split at h
    · next hpoint =>
      obtain ⟨raw, hraw, rfl⟩ := exists_form_of_some_digits h
      exact ⟨_, .some hraw, by rw [hpoint]; rfl⟩
    · obtain ⟨-, rfl⟩ := Prod.mk.inj (Option.some.inj h)
      exact ⟨[], .none, rfl⟩

theorem exists_form_of_readExponent {exponent : Option (Bool × List Nat)}
    (h : Numeral.readExponent bs = some (exponent, rest)) :
    ∃ raw, ExponentForm raw ∧ bs = raw ++ rest := by
  cases bs with
  | nil =>
    obtain ⟨-, rfl⟩ := Prod.mk.inj (Option.some.inj h)
    exact ⟨[], .none, rfl⟩
  | cons b more =>
    simp only [Numeral.readExponent] at h
    split at h
    · next he =>
      have hsigned {sign back : Bytes} {negative : Bool}
          (hsign : sign = [] ∨ sign = [45] ∨ sign = [43]) (hmore : more = sign ++ back)
          (h : (match takeDigits back with
            | ([], _) => none
            | (digits, rest) => some (some (negative, digits), rest)) = some (exponent, rest)) :
          ∃ raw, ExponentForm raw ∧ b :: more = raw ++ rest := by
        obtain ⟨raw, hraw, rfl⟩ := exists_form_of_some_digits h
        exact ⟨_, .some he hsign hraw, by rw [hmore]; simp⟩
      cases more with
      | nil => exact absurd h (by simp [takeDigits])
      | cons s back =>
        dsimp only at h
        by_cases hminus : s = 45
        · rw [if_pos hminus] at h
          exact hsigned (.inr (.inl rfl)) (by rw [hminus]; rfl) h
        · rw [if_neg hminus] at h
          by_cases hplus : s = 43
          · rw [if_pos hplus] at h
            exact hsigned (.inr (.inr rfl)) (by rw [hplus]; rfl) h
          · rw [if_neg hplus] at h
            exact hsigned (.inl rfl) rfl h
    · obtain ⟨-, rfl⟩ := Prod.mk.inj (Option.some.inj h)
      exact ⟨[], .none, rfl⟩

theorem exists_form_of_parts {sign back more : Bytes} {fraction : Option (List Nat)}
    {exponent : Option (Bool × List Nat)} (hsign : sign = [] ∨ sign = [45])
    (hwhole : (takeDigits back).1 ≠ [] ∧
      ((takeDigits back).1.head? = some 0 → (takeDigits back).1.length = 1))
    (hfraction : Numeral.readFraction (takeDigits back).2 = some (fraction, more))
    (hexponent : Numeral.readExponent more = some (exponent, rest)) :
    ∃ raw, NumeralForm raw ∧ sign ++ back = raw ++ rest := by
  obtain ⟨whole, hback, hdigits, hform⟩ := exists_form_of_takeDigits back
  obtain ⟨raw, hraw, hmore⟩ := exists_form_of_readFraction hfraction
  obtain ⟨raw', hraw', hrest⟩ := exists_form_of_readExponent hexponent
  refine ⟨_, .mk hsign (hform hwhole.1) (fun hhead => ?_) hraw hraw', ?_⟩
  · obtain ⟨tail, rfl⟩ := List.head?_eq_some_iff.mp hhead
    rw [hdigits] at hwhole
    have hnil : tail = [] := by simpa using hwhole.2 rfl
    rw [hnil]
  · rw [hback, hmore, hrest]
    simp only [List.append_assoc]

/-- What is read as a numeral has the form of one. -/
theorem exists_form_of_readNumeral {n : Numeral} (h : Numeral.read bs = some (n, rest)) :
    ∃ raw, NumeralForm raw ∧ bs = raw ++ rest := by
  simp only [Numeral.read, Option.bind_eq_bind, Option.bind_eq_some_iff,
    Option.guard_eq_some'] at h
  obtain ⟨-, hwhole, ⟨fraction, more⟩, hfraction, ⟨exponent, rest'⟩, hexponent, h⟩ := h
  obtain ⟨-, rfl⟩ := Prod.mk.inj (Option.some.inj h)
  cases bs with
  | nil => exact exists_form_of_parts (.inl rfl) hwhole hfraction hexponent
  | cons b more =>
    dsimp only at hwhole hfraction
    by_cases hminus : b = 45
    · rw [if_pos hminus] at hwhole hfraction
      rw [hminus]
      exact exists_form_of_parts (.inr rfl) hwhole hfraction hexponent
    · rw [if_neg hminus] at hwhole hfraction
      exact exists_form_of_parts (.inl rfl) hwhole hfraction hexponent

end Numerals

section Values

variable {bs rest : Bytes}

theorem ValueForm.before {w v : Bytes} (h : ValueForm v) (hw : Blank w) : ValueForm (w ++ v) := by
  simpa using ValueForm.padded hw h blank_nil

theorem ValueForm.after {v w : Bytes} (h : ValueForm v) (hw : Blank w) : ValueForm (v ++ w) := by
  simpa using ValueForm.padded blank_nil h hw

theorem exists_of_word? {w : String} (h : word? w bs = some rest) : bs = Text.bytes w ++ rest := by
  simp only [word?] at h
  split at h
  · next hprefix =>
    obtain ⟨more, rfl⟩ := List.isPrefixOf_iff_prefix.mp hprefix
    rw [List.drop_left] at h
    rw [Option.some.inj h]
  · exact absurd h (by simp)

/-- What is stepped over within a number of steps has the form that it should have. -/
structure SkipsForms (fuel : Nat) : Prop where
  value : ∀ {bs rest}, skipValue fuel bs = some rest → ∃ v, ValueForm v ∧ bs = v ++ rest
  items : ∀ {bs rest}, skipItems fuel bs = some rest → ∃ v, ItemsForm v ∧ bs = v ++ 93 :: rest
  members : ∀ {bs rest}, skipMembers fuel bs = some rest →
    ∃ members v, MembersForm members v ∧ bs = v ++ 125 :: rest

namespace SkipsForms

variable {fuel : Nat}

theorem value_succ (h : SkipsForms fuel) (hskip : skipValue (fuel + 1) bs = some rest) :
    ∃ v, ValueForm v ∧ bs = v ++ rest := by
  obtain ⟨w, hw, hbs⟩ := exists_blank bs
  rw [skipValue] at hskip
  split at hskip
  · exact absurd hskip (by simp)
  · next b more hspace =>
    rw [hspace] at hbs
    have hfound {v : Bytes} (hv : ValueForm v) (hmore : b :: more = v ++ rest) :
        ∃ v, ValueForm v ∧ bs = v ++ rest :=
      ⟨w ++ v, hv.before hw, by rw [hbs, hmore, List.append_assoc]⟩
    have hword {c : UInt8} {word : String} (hb : b = c) (hrest : word? word more = some rest)
        (hv : ValueForm (c :: Text.bytes word)) : ∃ v, ValueForm v ∧ bs = v ++ rest :=
      hfound hv (by rw [hb, exists_of_word? hrest, List.cons_append])
    split at hskip
    · next hb => exact hword hb hskip .null
    split at hskip
    · next hb => exact hword hb hskip .yes
    split at hskip
    · next hb => exact hword hb hskip .no
    split at hskip
    · next hb =>
      obtain ⟨s, hs, rfl⟩ := exists_form_of_skipString hskip
      exact hfound (.string hs) (by rw [hb]; simp)
    split at hskip
    · next hb =>
      split at hskip
      · next rest' hclose =>
        obtain rfl := Option.some.inj hskip
        obtain ⟨w, hw, rfl⟩ := exists_blank_of_expect hclose
        exact hfound (.emptyArray hw) (by rw [hb]; simp)
      · obtain ⟨v, hv, rfl⟩ := h.items hskip
        exact hfound (.array hv) (by rw [hb]; simp)
    split at hskip
    · next hb =>
      split at hskip
      · next rest' hclose =>
        obtain rfl := Option.some.inj hskip
        obtain ⟨w, hw, rfl⟩ := exists_blank_of_expect hclose
        exact hfound (.emptyObject hw) (by rw [hb]; simp)
      · obtain ⟨members, v, hv, rfl⟩ := h.members hskip
        exact hfound (.object hv) (by rw [hb]; simp)
    · obtain ⟨⟨n, rest'⟩, hread, rfl⟩ := Option.map_eq_some_iff.mp hskip
      obtain ⟨raw, hraw, hmore⟩ := exists_form_of_readNumeral hread
      exact hfound (.numeral hraw) hmore

theorem items_succ (h : SkipsForms fuel) (hskip : skipItems (fuel + 1) bs = some rest) :
    ∃ v, ItemsForm v ∧ bs = v ++ 93 :: rest := by
  rw [skipItems] at hskip
  simp only [Option.bind_eq_bind, Option.bind_eq_some_iff] at hskip
  obtain ⟨more, hvalue, hskip⟩ := hskip
  obtain ⟨v, hv, rfl⟩ := h.value hvalue
  split at hskip
  · next back hcomma =>
    obtain ⟨w, hw, rfl⟩ := exists_blank_of_expect hcomma
    obtain ⟨vs, hvs, rfl⟩ := h.items hskip
    exact ⟨_, .cons (hv.after hw) hvs, by simp⟩
  · obtain ⟨w, hw, rfl⟩ := exists_blank_of_expect hskip
    exact ⟨_, .last (hv.after hw), by simp⟩

theorem members_succ (h : SkipsForms fuel) (hskip : skipMembers (fuel + 1) bs = some rest) :
    ∃ members v, MembersForm members v ∧ bs = v ++ 125 :: rest := by
  rw [skipMembers] at hskip
  simp only [Option.bind_eq_bind, Option.bind_eq_some_iff] at hskip
  obtain ⟨opened, hopen, closed, hname, back, hcolon, more, hvalue, hskip⟩ := hskip
  obtain ⟨w, hw, rfl⟩ := exists_blank_of_expect hopen
  obtain ⟨name, hs, rfl⟩ := exists_form_of_skipString hname
  obtain ⟨w', hw', rfl⟩ := exists_blank_of_expect hcolon
  obtain ⟨v, hv, rfl⟩ := h.value hvalue
  have hform : NameForm name _ := .mk hw hs hw'
  split at hskip
  · next back hcomma =>
    obtain ⟨x, hx, rfl⟩ := exists_blank_of_expect hcomma
    obtain ⟨members, vs, hvs, rfl⟩ := h.members hskip
    exact ⟨_, _, .cons hform (hv.after hx) hvs, by simp⟩
  · obtain ⟨x, hx, rfl⟩ := exists_blank_of_expect hskip
    exact ⟨_, _, .last hform (hv.after hx), by simp⟩

end SkipsForms

theorem skipsForms (fuel : Nat) : SkipsForms fuel := by
  induction fuel with
  | zero => exact ⟨fun h => by simp [skipValue] at h, fun h => by simp [skipItems] at h,
      fun h => by simp [skipMembers] at h⟩
  | succ fuel ih => exact ⟨ih.value_succ, ih.items_succ, ih.members_succ⟩

theorem skipString_of_readString {s : String} (h : readString bs = some (s, rest)) :
    skipString bs = some rest := by
  simp only [readString, Option.bind_eq_bind, Option.bind_eq_some_iff] at h
  obtain ⟨⟨body, rest'⟩, hbody, s', -, h⟩ := h
  obtain ⟨-, rfl⟩ := Prod.mk.inj (Option.some.inj h)
  obtain ⟨-, -, -, hskip, -⟩ := exists_form_of_stringBody hbody
  exact hskip

/-- One step of the reader of values, by the first byte. -/
inductive ValueStep (fuel : Nat) : Nat → Bytes → Json → Bytes → Prop
  | null {depth : Nat} {bs rest : Bytes} : word? "ull" bs = some rest →
      ValueStep fuel depth (110 :: bs) .null rest
  | yes {depth : Nat} {bs rest : Bytes} : word? "rue" bs = some rest →
      ValueStep fuel depth (116 :: bs) (.bool true) rest
  | no {depth : Nat} {bs rest : Bytes} : word? "alse" bs = some rest →
      ValueStep fuel depth (102 :: bs) (.bool false) rest
  | text {depth : Nat} {bs rest : Bytes} {s : String} : readString bs = some (s, rest) →
      ValueStep fuel depth (34 :: bs) (.text s) rest
  | emptyArray {depth : Nat} {bs rest : Bytes} : expect 93 bs = some rest →
      ValueStep fuel (depth + 1) (91 :: bs) (.array []) rest
  | array {depth : Nat} {bs rest : Bytes} {items : List Json} : expect 93 bs = none →
      readItems fuel depth bs = some (items, rest) →
      ValueStep fuel (depth + 1) (91 :: bs) (.array items) rest
  | emptyObject {depth : Nat} {bs rest : Bytes} : expect 125 bs = some rest →
      ValueStep fuel (depth + 1) (123 :: bs) (.object []) rest
  | object {depth : Nat} {bs rest : Bytes} {ms : List (String × Json)} : expect 125 bs = none →
      readMembers fuel depth bs = some (ms, rest) →
      ValueStep fuel (depth + 1) (123 :: bs) (ofMembers ms) rest
  | numeral {depth : Nat} {b : UInt8} {bs rest : Bytes} {n : Numeral} {number : Number} :
      b ∉ ([110, 116, 102, 34, 91, 123] : Bytes) → Numeral.read (b :: bs) = some (n, rest) →
      n.number? = some number → ValueStep fuel depth (b :: bs) (.number number) rest

section Steps

variable {fuel depth : Nat}

theorem readValue_succ_iff {v : Json} : readValue (fuel + 1) depth bs = some (v, rest) ↔
    ValueStep fuel depth (skipSpace bs) v rest := by
  rw [readValue]
  constructor
  · intro h
    split at h
    · exact absurd h (by simp)
    · next b more hspace =>
      rw [hspace]
      split at h
      · next hb =>
        obtain ⟨_, hword, hv⟩ := Option.map_eq_some_iff.mp h
        obtain ⟨rfl, rfl⟩ := Prod.mk.inj hv
        exact hb ▸ .null hword
      split at h
      · next hb =>
        obtain ⟨_, hword, hv⟩ := Option.map_eq_some_iff.mp h
        obtain ⟨rfl, rfl⟩ := Prod.mk.inj hv
        exact hb ▸ .yes hword
      split at h
      · next hb =>
        obtain ⟨_, hword, hv⟩ := Option.map_eq_some_iff.mp h
        obtain ⟨rfl, rfl⟩ := Prod.mk.inj hv
        exact hb ▸ .no hword
      split at h
      · next hb =>
        obtain ⟨⟨s, back⟩, hstring, hv⟩ := Option.map_eq_some_iff.mp h
        obtain ⟨rfl, rfl⟩ := Prod.mk.inj hv
        exact hb ▸ .text hstring
      split at h
      · next hb =>
        cases depth with
        | zero => exact absurd h (by simp)
        | succ depth =>
          dsimp only at h
          split at h
          · next hclose =>
            obtain ⟨rfl, rfl⟩ := Prod.mk.inj (Option.some.inj h)
            exact hb ▸ .emptyArray hclose
          · next hopen =>
            obtain ⟨⟨items, back⟩, hitems, hv⟩ := Option.map_eq_some_iff.mp h
            obtain ⟨rfl, rfl⟩ := Prod.mk.inj hv
            exact hb ▸ .array hopen hitems
      split at h
      · next hb =>
        cases depth with
        | zero => exact absurd h (by simp)
        | succ depth =>
          dsimp only at h
          split at h
          · next hclose =>
            obtain ⟨rfl, rfl⟩ := Prod.mk.inj (Option.some.inj h)
            exact hb ▸ .emptyObject hclose
          · next hopen =>
            obtain ⟨⟨ms, back⟩, hmembers, hv⟩ := Option.map_eq_some_iff.mp h
            obtain ⟨rfl, rfl⟩ := Prod.mk.inj hv
            exact hb ▸ .object hopen hmembers
      · simp only [Option.bind_eq_bind, Option.bind_eq_some_iff] at h
        obtain ⟨⟨n, back⟩, hread, number, hnumber, h⟩ := h
        obtain ⟨rfl, rfl⟩ := Prod.mk.inj (Option.some.inj h)
        exact .numeral (by simp [*]) hread hnumber
  · intro h
    generalize skipSpace bs = opened at h ⊢
    cases h with
    | null hword => simp [hword]
    | yes hword => simp [hword]
    | no hword => simp [hword]
    | text hstring => simp [hstring]
    | emptyArray hclose => simp [hclose]
    | array hopen hitems => simp [hopen, hitems]
    | emptyObject hclose => simp [hclose]
    | object hopen hmembers => simp [hopen, hmembers]
    | numeral hb hread hnumber =>
      simp only [List.mem_cons, List.not_mem_nil, or_false, not_or] at hb
      simp [hb, hread, hnumber]

theorem readItems_succ_iff {vs : List Json} : readItems (fuel + 1) depth bs = some (vs, rest) ↔
    ∃ v more, readValue fuel depth bs = some (v, more) ∧
      ((∃ back vs', expect 44 more = some back ∧ readItems fuel depth back = some (vs', rest) ∧
          vs = v :: vs') ∨
        expect 44 more = none ∧ expect 93 more = some rest ∧ vs = [v]) := by
  rw [readItems]
  simp only [Option.bind_eq_bind, Option.bind_eq_some_iff]
  constructor
  · rintro ⟨⟨v, more⟩, hvalue, h⟩
    refine ⟨v, more, hvalue, ?_⟩
    dsimp only at h
    cases hcomma : expect 44 more with
    | some back =>
      rw [hcomma] at h
      obtain ⟨⟨vs', rest'⟩, hitems, h⟩ := Option.bind_eq_some_iff.mp h
      obtain ⟨rfl, rfl⟩ := Prod.mk.inj (Option.some.inj h)
      exact .inl ⟨back, vs', rfl, hitems, rfl⟩
    | none =>
      rw [hcomma] at h
      obtain ⟨rest', hclose, h⟩ := Option.bind_eq_some_iff.mp h
      obtain ⟨rfl, rfl⟩ := Prod.mk.inj (Option.some.inj h)
      exact .inr ⟨rfl, hclose, rfl⟩
  · rintro ⟨v, more, hvalue, ⟨back, vs', hcomma, hitems, rfl⟩ | ⟨hcomma, hclose, rfl⟩⟩
    · exact ⟨_, hvalue, by simp [hcomma, hitems]⟩
    · exact ⟨_, hvalue, by simp [hcomma, hclose]⟩

theorem readMembers_succ_iff {ms : List (String × Json)} :
    readMembers (fuel + 1) depth bs = some (ms, rest) ↔
    ∃ opened name closed back v more, expect 34 bs = some opened ∧
      readString opened = some (name, closed) ∧ expect 58 closed = some back ∧
      readValue fuel depth back = some (v, more) ∧
      ((∃ back ms', expect 44 more = some back ∧ readMembers fuel depth back = some (ms', rest) ∧
          ms = (name, v) :: ms') ∨
        expect 44 more = none ∧ expect 125 more = some rest ∧ ms = [(name, v)]) := by
  rw [readMembers]
  simp only [Option.bind_eq_bind, Option.bind_eq_some_iff]
  constructor
  · rintro ⟨opened, hopen, ⟨name, closed⟩, hname, back, hcolon, ⟨v, more⟩, hvalue, h⟩
    refine ⟨opened, name, closed, back, v, more, hopen, hname, hcolon, hvalue, ?_⟩
    dsimp only at h
    cases hcomma : expect 44 more with
    | some back' =>
      rw [hcomma] at h
      obtain ⟨⟨ms', rest'⟩, hmembers, h⟩ := Option.bind_eq_some_iff.mp h
      obtain ⟨rfl, rfl⟩ := Prod.mk.inj (Option.some.inj h)
      exact .inl ⟨back', ms', rfl, hmembers, rfl⟩
    | none =>
      rw [hcomma] at h
      obtain ⟨rest', hclose, h⟩ := Option.bind_eq_some_iff.mp h
      obtain ⟨rfl, rfl⟩ := Prod.mk.inj (Option.some.inj h)
      exact .inr ⟨rfl, hclose, rfl⟩
  · rintro ⟨opened, name, closed, back, v, more, hopen, hname, hcolon, hvalue, hcase⟩
    refine ⟨opened, hopen, _, hname, back, hcolon, _, hvalue, ?_⟩
    rcases hcase with ⟨back', ms', hcomma, hmembers, rfl⟩ | ⟨hcomma, hclose, rfl⟩
    · simp [hcomma, hmembers]
    · simp [hcomma, hclose]

end Steps

/-- What is read within a number of steps is stepped over within the same number. -/
structure ReadsForms (fuel : Nat) : Prop where
  value : ∀ {depth bs v rest}, readValue fuel depth bs = some (v, rest) →
    skipValue fuel bs = some rest
  items : ∀ {depth bs vs rest}, readItems fuel depth bs = some (vs, rest) →
    skipItems fuel bs = some rest
  members : ∀ {depth bs ms rest}, readMembers fuel depth bs = some (ms, rest) →
    skipMembers fuel bs = some rest

namespace ReadsForms

variable {fuel depth : Nat}

theorem value_succ (h : ReadsForms fuel) {v : Json}
    (hread : readValue (fuel + 1) depth bs = some (v, rest)) :
    skipValue (fuel + 1) bs = some rest := by
  rw [readValue_succ_iff] at hread
  rw [skipValue]
  generalize skipSpace bs = opened at hread ⊢
  cases hread with
  | null hword => simpa using hword
  | yes hword => simpa using hword
  | no hword => simpa using hword
  | text hstring => simpa using skipString_of_readString hstring
  | emptyArray hclose => simp [hclose]
  | array hopen hitems => simpa [hopen] using h.items hitems
  | emptyObject hclose => simp [hclose]
  | object hopen hmembers => simpa [hopen] using h.members hmembers
  | numeral hb hnumeral hnumber =>
    simp only [List.mem_cons, List.not_mem_nil, or_false, not_or] at hb
    simp [hb, hnumeral]

theorem items_succ (h : ReadsForms fuel) {vs : List Json}
    (hread : readItems (fuel + 1) depth bs = some (vs, rest)) :
    skipItems (fuel + 1) bs = some rest := by
  obtain ⟨v, more, hvalue, hcase⟩ := readItems_succ_iff.mp hread
  rw [skipItems, h.value hvalue]
  rcases hcase with ⟨back, vs', hcomma, hitems, -⟩ | ⟨hcomma, hclose, -⟩
  · simpa [hcomma] using h.items hitems
  · simpa [hcomma] using hclose

theorem members_succ (h : ReadsForms fuel) {ms : List (String × Json)}
    (hread : readMembers (fuel + 1) depth bs = some (ms, rest)) :
    skipMembers (fuel + 1) bs = some rest := by
  obtain ⟨opened, name, closed, back, v, more, hopen, hname, hcolon, hvalue, hcase⟩ :=
    readMembers_succ_iff.mp hread
  rw [skipMembers]
  simp only [hopen, skipString_of_readString hname, hcolon, h.value hvalue, Option.bind_eq_bind,
    Option.bind_some]
  rcases hcase with ⟨back', ms', hcomma, hmembers, -⟩ | ⟨hcomma, hclose, -⟩
  · simpa [hcomma] using h.members hmembers
  · simpa [hcomma] using hclose

end ReadsForms

theorem readsForms (fuel : Nat) : ReadsForms fuel := by
  induction fuel with
  | zero => exact ⟨fun h => by simp [readValue] at h, fun h => by simp [readItems] at h,
      fun h => by simp [readMembers] at h⟩
  | succ fuel ih => exact ⟨ih.value_succ, ih.items_succ, ih.members_succ⟩

/-- What is read as a value has the form of one. -/
theorem exists_form_of_readValue {fuel depth : Nat} {v : Json}
    (h : readValue fuel depth bs = some (v, rest)) : ∃ raw, ValueForm raw ∧ bs = raw ++ rest :=
  (skipsForms fuel).value ((readsForms fuel).value h)

theorem exists_of_readValue_null {fuel depth : Nat}
    (h : readValue fuel depth bs = some (.null, rest)) :
    ∃ w, Blank w ∧ bs = w ++ (Text.bytes "null" ++ rest) := by
  cases fuel with
  | zero => exact absurd h (by simp [readValue])
  | succ fuel =>
    obtain ⟨w, hw, hbs⟩ := exists_blank bs
    rw [readValue_succ_iff] at h
    refine ⟨w, hw, ?_⟩
    generalize skipSpace bs = opened at h hbs
    cases h with
    | null hword =>
      rw [hbs, exists_of_word? hword]
      rfl

theorem exists_of_readValue_empty {fuel depth : Nat}
    (h : readValue fuel depth bs = some (.text "", rest)) :
    ∃ w, Blank w ∧ bs = w ++ ([34, 34] ++ rest) := by
  cases fuel with
  | zero => exact absurd h (by simp [readValue])
  | succ fuel =>
    obtain ⟨w, hw, hbs⟩ := exists_blank bs
    rw [readValue_succ_iff] at h
    refine ⟨w, hw, ?_⟩
    generalize skipSpace bs = opened at h hbs
    cases h with
    | text hread =>
      rw [hbs, eq_of_readString_empty hread]
      rfl

end Values

end AccountGate.Json
