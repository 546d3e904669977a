import AccountGate.Proofs.Json.Printed
import AccountGate.Proofs.Json.Records

/-!
How far a value reaches. Main statement: what is read as a value, or stepped over as one, takes some
bytes from the front, and these are taken in the same way before anything that does not go on with
them, in as many steps as they need.
-/

namespace AccountGate.Json

variable {bs rest : Bytes}

section Marks

variable {b x : UInt8} {w : Bytes}

theorem skipSpace_blank (hw : Blank w) (rest : Bytes) : skipSpace (w ++ rest) = skipSpace rest :=
  List.dropWhile_append_of_pos hw

theorem not_isSpace_of_skipSpace (h : skipSpace bs = b :: rest) : isSpace b = false := by
  have hnot := List.head?_dropWhile_not isSpace bs
  rw [show bs.dropWhile isSpace = b :: rest from h] at hnot
  simpa using hnot

theorem expect_blank (hw : Blank w) (rest : Bytes) : expect b (w ++ rest) = expect b rest := by
  rw [expect, expect, skipSpace_blank hw]

theorem expect_mark (hw : Blank w) (hb : isSpace b = false) (rest : Bytes) :
    expect b (w ++ b :: rest) = some rest := by
  rw [expect_blank hw, expect_self hb]

theorem expect_mark_append (hw : Blank w) (hb : isSpace b = false) (rest : Bytes) :
    expect b ((w ++ [b]) ++ rest) = some rest := by
  rw [List.append_assoc]
  exact expect_mark hw hb rest

theorem expect_other_mark (hw : Blank w) (hb : isSpace b = false) (hne : b ≠ x) (rest : Bytes) :
    expect x (w ++ b :: rest) = none := by
  rw [expect_blank hw, expect_other hb hne]

/-- Blanks do not go on with a value, and neither does what ends it. -/
theorem ends_blank (hw : Blank w) (h : Ends rest) : Ends (w ++ rest) := by
  cases w with
  | nil => exact h
  | cons c w =>
    intro d hd
    obtain rfl := Option.some.inj hd
    have hall : ∀ n < 256, isSpace (.ofNat n) = true → isDigit (.ofNat n) = false ∧
        UInt8.ofNat n ≠ 46 ∧ UInt8.ofNat n ≠ 101 ∧ UInt8.ofNat n ≠ 69 := by
      decide +kernel
    exact Text.forall_byte
      (P := fun b => isSpace b = true → isDigit b = false ∧ b ≠ 46 ∧ b ≠ 101 ∧ b ≠ 69) hall c
      (hw c List.mem_cons_self)

theorem ends_of_expect (hb : b = 44 ∨ b = 93 ∨ b = 125) (h : expect b bs = some rest) :
    Ends bs := by
  obtain ⟨w, hw, rfl⟩ := exists_blank_of_expect h
  exact ends_blank hw (ends_cons hb)

end Marks

section Words

theorem word?_self (w : String) (rest : Bytes) : word? w (Text.bytes w ++ rest) = some rest := by
  rw [word?, if_pos (List.isPrefixOf_iff_prefix.mpr (List.prefix_append _ _)), List.drop_left]

theorem exists_raw_of_readString {s : String} (h : readString bs = some (s, rest)) :
    ∃ raw, bs = raw ++ rest ∧ ∀ more, readString (raw ++ more) = some (s, more) := by
  simp only [readString, Option.bind_eq_bind, Option.bind_eq_some_iff] at h
  obtain ⟨⟨body, rest'⟩, hbody, text, htext, h⟩ := h
  obtain ⟨rfl, rfl⟩ := Prod.mk.inj (Option.some.inj h)
  obtain ⟨raw, -, rfl, -, hread⟩ := exists_form_of_stringBody hbody
  refine ⟨raw ++ [34], by simp, fun more => ?_⟩
  rw [List.append_assoc, readString, List.singleton_append, hread more]
  dsimp only at htext
  simp only [Option.bind_eq_bind, Option.bind_some, htext]
  rfl

theorem exists_raw_of_skipString (h : skipString bs = some rest) :
    ∃ raw, bs = raw ++ rest ∧ ∀ more, skipString (raw ++ more) = some more := by
  fun_induction skipString bs with
  | case2 more =>
    obtain rfl := Option.some.inj h
    exact ⟨[34], rfl, fun more => by rw [List.singleton_append, skipString.eq_def]; rfl⟩
  | case4 a b c d more hhex _ ih =>
    obtain ⟨raw, rfl, hraw⟩ := ih h
    exact ⟨92 :: 117 :: a :: b :: c :: d :: raw, rfl, fun more => by
      simp [skipString, hhex, hraw]⟩
  | case7 e more he hescape _ ih =>
    obtain ⟨raw, rfl, hraw⟩ := ih h
    refine ⟨92 :: e :: raw, rfl, fun more => ?_⟩
    rw [List.cons_append, List.cons_append, skipString.eq_def]
    simp [he, hescape, hraw]
  | case10 b more hquote hslash hcontrol ih =>
    obtain ⟨raw, rfl, hraw⟩ := ih h
    refine ⟨b :: raw, rfl, fun more => ?_⟩
    rw [List.cons_append, skipString.eq_def]
    simp [hquote, hslash, hcontrol, hraw]
  | _ => exact absurd h (by simp)

end Words

section Numerals

variable {more : Bytes}

/-- No digit stands in front. -/
def Undigited (rest : Bytes) : Prop := ∀ b ∈ rest.head?, isDigit b = false

theorem Ends.undigited (h : Ends rest) : Undigited rest := fun b hb => (h b hb).1

theorem takeDigits_append {digits : Bytes} (hdigits : ∀ b ∈ digits, isDigit b = true)
    (h : Undigited rest) : takeDigits (digits ++ rest) = (digits.map digitOf, rest) := by
  have hnone : rest.takeWhile isDigit = [] ∧ rest.dropWhile isDigit = rest := by
    cases rest with
    | nil => exact ⟨rfl, rfl⟩
    | cons b more =>
      have hb : ¬ isDigit b = true := by simp [h b rfl]
      exact ⟨List.takeWhile_cons_of_neg hb, List.dropWhile_cons_of_neg hb⟩
  rw [takeDigits, List.takeWhile_append_of_pos hdigits, List.dropWhile_append_of_pos hdigits,
    hnone.1, hnone.2, List.append_nil]

theorem takeDigits_eq (bs : Bytes) : ∃ digits, (∀ b ∈ digits, isDigit b = true) ∧
    bs = digits ++ (takeDigits bs).2 ∧ (takeDigits bs).1 = digits.map digitOf :=
  ⟨bs.takeWhile isDigit, fun _ => List.mem_takeWhile_imp,
    (List.takeWhile_append_dropWhile).symm, rfl⟩

/-- Digits that there must be. -/
theorem exists_raw_of_some_digits {α : Type} {f : List Nat → α} {a : α}
    (h : (match takeDigits bs with
      | ([], _) => none
      | (digits, rest) => some (f digits, rest)) = some (a, rest)) :
    ∃ raw, DigitsForm raw ∧ bs = raw ++ rest ∧ a = f (raw.map digitOf) := by
  obtain ⟨raw, hdigits, hbs, htake⟩ := takeDigits_eq bs
  split at h
  · exact absurd h (by simp)
  · next digits back hne hread =>
    obtain ⟨rfl, rfl⟩ := Prod.mk.inj (Option.some.inj h)
    rw [hread] at hbs htake
    dsimp only at hbs htake
    subst htake
    exact ⟨raw, ⟨fun hnil => hne (by rw [hnil]; rfl), hdigits⟩, hbs, rfl⟩

theorem some_digits_append {α : Type} (f : List Nat → α) {raw : Bytes} (hraw : DigitsForm raw)
    (h : Undigited more) : (match takeDigits (raw ++ more) with
      | ([], _) => none
      | (digits, rest) => some (f digits, rest)) = some (f (raw.map digitOf), more) := by
  rw [takeDigits_append hraw.2 h]
  obtain ⟨b, raw, rfl⟩ := List.exists_cons_of_ne_nil hraw.1
  rfl

theorem exists_raw_of_readFraction {fraction : Option (List Nat)}
    (h : Numeral.readFraction bs = some (fraction, rest)) :
    ∃ raw, bs = raw ++ rest ∧ (∀ b ∈ raw.head?, b = 46) ∧
      ∀ more, Undigited more → (∀ b ∈ more.head?, b ≠ 46) →
        Numeral.readFraction (raw ++ more) = some (fraction, more) := by
  have hnone : ∀ more : Bytes, (∀ b ∈ more.head?, b ≠ 46) →
      Numeral.readFraction more = some (none, more) := by
    intro more hmore
    cases more with
    | nil => rfl
    | cons b more => exact if_neg (hmore b rfl)
  cases bs with
  | nil =>
    obtain ⟨rfl, rfl⟩ := Prod.mk.inj (Option.some.inj h)
    exact ⟨[], rfl, by simp, fun more _ hmore => hnone more hmore⟩
  | cons b back =>
    rw [Numeral.readFraction] at h
    split at h
    · next hpoint =>
      obtain ⟨raw, hraw, rfl, rfl⟩ := exists_raw_of_some_digits h
      refine ⟨b :: raw, rfl, by simp [hpoint], fun more hmore _ => ?_⟩
      rw [List.cons_append, Numeral.readFraction, if_pos hpoint]
      exact some_digits_append _ hraw hmore
    · obtain ⟨rfl, rfl⟩ := Prod.mk.inj (Option.some.inj h)
      exact ⟨[], rfl, by simp, fun more _ hmore => hnone more hmore⟩

/-- An exponent with its sign. -/
theorem readExponent_signed {e : UInt8} {sign raw : Bytes} (he : e = 101 ∨ e = 69)
    (hsign : sign = [] ∨ sign = [45] ∨ sign = [43]) (hraw : DigitsForm raw)
    (h : Undigited more) : Numeral.readExponent (e :: (sign ++ (raw ++ more))) =
      some (some (decide (sign = [45]), raw.map digitOf), more) := by
  have hdigits := some_digits_append (fun digits => some (decide (sign = [45]), digits)) hraw h
  simp only [Numeral.readExponent, if_pos he]
  rcases hsign with rfl | rfl | rfl
  · obtain ⟨d, raw, rfl⟩ := List.exists_cons_of_ne_nil hraw.1
    have hd := hraw.2 d List.mem_cons_self
    have hminus : d ≠ 45 := by
      rintro rfl
      exact absurd hd (by decide)
    have hplus : d ≠ 43 := by
      rintro rfl
      exact absurd hd (by decide)
    simp only [List.nil_append, List.cons_append, if_neg hminus, if_neg hplus]
    exact hdigits
  · exact hdigits
  · exact hdigits

theorem exists_raw_of_readExponent {exponent : Option (Bool × List Nat)}
    (h : Numeral.readExponent bs = some (exponent, rest)) :
    ∃ raw, bs = raw ++ rest ∧ (∀ b ∈ raw.head?, b = 101 ∨ b = 69) ∧
      ∀ more, Ends more → Numeral.readExponent (raw ++ more) = some (exponent, more) := by
  cases bs with
  | nil =>
    obtain ⟨rfl, rfl⟩ := Prod.mk.inj (Option.some.inj h)
    exact ⟨[], rfl, by simp, fun more hmore => readExponent_of_ends hmore⟩
  | cons e back =>
    by_cases he : e = 101 ∨ e = 69
    · obtain ⟨sign, next, hsign, rfl, hdigits⟩ : ∃ sign next : Bytes,
          (sign = [] ∨ sign = [45] ∨ sign = [43]) ∧ back = sign ++ next ∧
          (match takeDigits next with
            | ([], _) => none
            | (digits, rest) => some (some (decide (sign = [45]), digits), rest)) =
              some (exponent, rest) := by
        simp only [Numeral.readExponent, if_pos he] at h
        cases back with
        | nil => exact absurd h (by simp [takeDigits])
        | cons s next =>
          dsimp only at h
          by_cases hminus : s = 45
          · rw [if_pos hminus] at h
            exact ⟨[45], next, by simp, by rw [hminus]; rfl, h⟩
          · rw [if_neg hminus] at h
            by_cases hplus : s = 43
            · rw [if_pos hplus] at h
              exact ⟨[43], next, by simp, by rw [hplus]; rfl, h⟩
            · rw [if_neg hplus] at h
              exact ⟨[], s :: next, by simp, rfl, h⟩
      obtain ⟨raw, hraw, rfl, rfl⟩ := exists_raw_of_some_digits hdigits
      refine ⟨e :: (sign ++ raw), by simp, by simpa using he, fun more hmore => ?_⟩
      rw [List.cons_append, List.append_assoc]
      exact readExponent_signed he hsign hraw hmore.undigited
    · simp only [Numeral.readExponent, if_neg he] at h
      obtain ⟨rfl, rfl⟩ := Prod.mk.inj (Option.some.inj h)
      exact ⟨[], rfl, by simp, fun more hmore => readExponent_of_ends hmore⟩

/-- A numeral after its sign. -/
def Numeral.readUnsigned (negative : Bool) (bs : Bytes) : Option (Numeral × Bytes) := do
  let (whole, bs) := takeDigits bs
  guard (whole ≠ [] ∧ (whole.head? = some 0 → whole.length = 1))
  let (fraction, bs) ← readFraction bs
  let (exponent, bs) ← readExponent bs
  return (⟨negative, whole, fraction, exponent⟩, bs)

theorem readNumeral_cons (b : UInt8) (bs : Bytes) : Numeral.read (b :: bs) =
    if b = 45 then Numeral.readUnsigned true bs else Numeral.readUnsigned false (b :: bs) := by
  by_cases hb : b = 45 <;> simp only [Numeral.read, hb, if_true, if_false] <;> rfl

theorem exists_raw_of_readUnsigned {negative : Bool} {n : Numeral}
    (h : Numeral.readUnsigned negative bs = some (n, rest)) :
    ∃ d raw, isDigit d = true ∧ bs = d :: raw ++ rest ∧
      ∀ more, Ends more → Numeral.readUnsigned negative (d :: raw ++ more) = some (n, more) := by
  simp only [Numeral.readUnsigned, Option.bind_eq_bind, Option.bind_eq_some_iff,
    Option.guard_eq_some'] at h
  obtain ⟨⟨⟩, hwhole, ⟨fraction, back⟩, hfraction, ⟨exponent, rest'⟩, hexponent, h⟩ := h
  obtain ⟨rfl, rfl⟩ := Prod.mk.inj (Option.some.inj h)
  obtain ⟨whole, hdigits, hbs, htake⟩ := takeDigits_eq bs
  obtain ⟨raw, hback, hpoint, hraw⟩ := exists_raw_of_readFraction hfraction
  obtain ⟨raw', rfl, he, hraw'⟩ := exists_raw_of_readExponent hexponent
  rw [htake] at hwhole
  obtain ⟨d, whole, rfl⟩ := List.exists_cons_of_ne_nil (l := whole) fun hnil =>
    hwhole.1 (by rw [hnil]; rfl)
  refine ⟨d, whole ++ (raw ++ raw'), hdigits d List.mem_cons_self, ?_, fun more hmore => ?_⟩
  · rw [hbs, hback]
    simp
  -- What comes after each part does not go on with it.
  have hexp : Undigited (raw' ++ more) ∧ ∀ b ∈ (raw' ++ more).head?, b ≠ 46 := by
    cases raw' with
    | nil => exact ⟨hmore.undigited, fun b hb => (hmore b hb).2.1⟩
    | cons e raw' =>
      have hall : isDigit e = false ∧ e ≠ 46 := by
        rcases he e rfl with rfl | rfl <;> decide
      exact ⟨by simpa [Undigited] using hall.1, by simpa using hall.2⟩
  have hfrac : Undigited (raw ++ (raw' ++ more)) := by
    cases raw with
    | nil => exact hexp.1
    | cons b raw =>
      obtain rfl := hpoint b rfl
      simp [Undigited, isDigit]
  have hread := takeDigits_append hdigits hfrac
  have hsame : d :: (whole ++ (raw ++ raw')) ++ more = d :: whole ++ (raw ++ (raw' ++ more)) := by
    simp
  rw [hsame]
  simp only [Numeral.readUnsigned, hread, hraw _ hexp.1 hexp.2, hraw' more hmore,
    Option.bind_eq_bind, Option.bind_some, guard, if_pos hwhole, htake]
  rfl

theorem exists_raw_of_readNumeral {n : Numeral} (h : Numeral.read bs = some (n, rest)) :
    ∃ b raw, bs = b :: raw ++ rest ∧
      ∀ more, Ends more → Numeral.read (b :: raw ++ more) = some (n, more) := by
  cases bs with
  | nil => exact absurd h (by simp [Numeral.read, takeDigits])
  | cons b back =>
    rw [readNumeral_cons] at h
    split at h
    · next hb =>
      obtain ⟨d, raw, -, rfl, hraw⟩ := exists_raw_of_readUnsigned h
      refine ⟨b, d :: raw, rfl, fun more hmore => ?_⟩
      rw [List.cons_append, readNumeral_cons, if_pos hb]
      exact hraw more hmore
    · next hb =>
      obtain ⟨d, raw, -, hbs, hraw⟩ := exists_raw_of_readUnsigned h
      obtain ⟨rfl, rfl⟩ := List.cons.inj hbs
      refine ⟨b, raw, rfl, fun more hmore => ?_⟩
      rw [List.cons_append, readNumeral_cons, if_neg hb]
      exact hraw more hmore

end Numerals

/-- Some bytes are taken from the front, and would be before any others, in steps enough. -/
def FromFront (M : Nat → Bytes → Bytes → Prop) (bs rest : Bytes) : Prop :=
  ∃ raw, bs = raw ++ rest ∧ ∀ more fuel, 2 * raw.length + 2 ≤ fuel → M fuel (raw ++ more) more

/-- These bytes are read as a value before anything that does not go on with them. -/
def ReadsAs (depth : Nat) (raw : Bytes) (v : Json) : Prop :=
  ∀ more, Ends more → ∀ fuel, 2 * raw.length + 1 ≤ fuel →
    readValue fuel depth (raw ++ more) = some (v, more)

/-- What is read within some steps is the same before other bytes. -/
structure ReadsPart (fuel : Nat) : Prop where
  value : ∀ {depth bs v rest}, readValue fuel depth bs = some (v, rest) →
    ∃ raw, bs = raw ++ rest ∧ ReadsAs depth raw v
  items : ∀ {depth bs vs rest}, readItems fuel depth bs = some (vs, rest) →
    FromFront (fun fuel bs rest => readItems fuel depth bs = some (vs, rest)) bs rest
  members : ∀ {depth bs ms rest}, readMembers fuel depth bs = some (ms, rest) →
    FromFront (fun fuel bs rest => readMembers fuel depth bs = some (ms, rest)) bs rest

theorem expect_of_expect {b x : UInt8} (h : expect b bs = some rest) (hne : b ≠ x) :
    expect x bs = none := by
  have hskip := Record.expect_eq_some_iff.mp h
  rw [expect, hskip]
  exact if_neg hne

/-- What comes after a part of an array or an object: a comma and more parts, or the closing mark. -/
def Continues (close : UInt8) (M : Nat → Bytes → Bytes → Prop) (last : Prop) (fuel : Nat)
    (bs rest : Bytes) : Prop :=
  (∃ next, expect 44 bs = some next ∧ M fuel next rest) ∨
    expect 44 bs = none ∧ expect close bs = some rest ∧ last

/-- It is a matter of its own bytes when more parts are. -/
theorem Continues.exists_raw {close : UInt8} {M : Nat → Bytes → Bytes → Prop} {last : Prop}
    {fuel : Nat} (hclose : close = 93 ∨ close = 125) (h : Continues close M last fuel bs rest)
    (hmore : ∀ next, M fuel next rest → FromFront M next rest) :
    ∃ raw, bs = raw ++ rest ∧ ∀ more, Ends (raw ++ more) ∧ ∀ fuel', 2 * raw.length ≤ fuel' →
      Continues close M last fuel' (raw ++ more) more := by
  rcases h with ⟨next, hcomma, hnext⟩ | ⟨-, hclosed, hlast⟩
  · obtain ⟨w, hw, rfl⟩ := exists_blank_of_expect hcomma
    obtain ⟨raw, rfl, hraw⟩ := hmore next hnext
    refine ⟨w ++ 44 :: raw, by simp, fun more => ?_⟩
    rw [List.append_assoc, List.cons_append]
    refine ⟨ends_blank hw (ends_cons (by decide)), fun n hn => .inl ⟨_, expect_mark hw (by decide) _,
      hraw more n ?_⟩⟩
    simp only [List.length_append, List.length_cons] at hn
    omega
  · obtain ⟨w, hw, rfl⟩ := exists_blank_of_expect hclosed
    have hmark : isSpace close = false ∧ close ≠ 44 := by
      rcases hclose with rfl | rfl <;> decide
    refine ⟨w ++ [close], by simp, fun more => ?_⟩
    rw [List.append_assoc, List.singleton_append]
    exact ⟨ends_blank hw (ends_cons (.inr hclose)), fun n _ =>
      .inr ⟨expect_other_mark hw hmark.1 hmark.2 _, expect_mark hw hmark.1 _, hlast⟩⟩

namespace ReadsPart

variable {fuel depth : Nat}

theorem step (h : ReadsPart fuel) {v : Json} {opened : Bytes}
    (hstep : ValueStep fuel depth opened v rest) :
    ∃ b raw, opened = b :: raw ++ rest ∧ ∀ more, Ends more → ∀ fuel', 2 * raw.length + 2 ≤ fuel' →
      ValueStep fuel' depth (b :: raw ++ more) v more := by
  cases hstep with
  | null hword =>
    obtain rfl := exists_of_word? hword
    exact ⟨_, _, rfl, fun more _ _ _ => .null (word?_self _ more)⟩
  | yes hword =>
    obtain rfl := exists_of_word? hword
    exact ⟨_, _, rfl, fun more _ _ _ => .yes (word?_self _ more)⟩
  | no hword =>
    obtain rfl := exists_of_word? hword
    exact ⟨_, _, rfl, fun more _ _ _ => .no (word?_self _ more)⟩
  | text hstring =>
    obtain ⟨raw, rfl, hraw⟩ := exists_raw_of_readString hstring
    exact ⟨_, raw, rfl, fun more _ _ _ => .text (hraw more)⟩
  | emptyArray hclose =>
    obtain ⟨w, hw, rfl⟩ := exists_blank_of_expect hclose
    refine ⟨_, w ++ [93], by simp, fun more _ _ _ => .emptyArray ?_⟩
    exact expect_mark_append hw (by decide) more
  | array hopen hitems =>
    obtain ⟨raw, rfl, hraw⟩ := h.items hitems
    refine ⟨_, raw, rfl, fun more _ fuel' hfuel => .array ?_ (hraw more fuel' hfuel)⟩
    obtain ⟨v, back, hvalue, -⟩ := readItems_succ_iff.mp (hraw more (fuel' + 1) (by omega))
    exact expect_bracket_of_readValue hvalue
  | emptyObject hclose =>
    obtain ⟨w, hw, rfl⟩ := exists_blank_of_expect hclose
    refine ⟨_, w ++ [125], by simp, fun more _ _ _ => .emptyObject ?_⟩
    exact expect_mark_append hw (by decide) more
  | object hopen hmembers =>
    obtain ⟨raw, rfl, hraw⟩ := h.members hmembers
    refine ⟨_, raw, rfl, fun more _ fuel' hfuel => .object ?_ (hraw more fuel' hfuel)⟩
    obtain ⟨opened, name, closed, back, v, next, hquote, -⟩ :=
      readMembers_succ_iff.mp (hraw more (fuel' + 1) (by omega))
    exact expect_of_expect hquote (by decide)
  | numeral hb hread hnumber =>
    obtain ⟨b, raw, hopened, hraw⟩ := exists_raw_of_readNumeral hread
    obtain ⟨rfl, rfl⟩ := List.cons.inj hopened
    exact ⟨_, raw, rfl, fun more hmore _ _ => .numeral hb (hraw more hmore) hnumber⟩

theorem value_succ (h : ReadsPart fuel) {v : Json}
    (hread : readValue (fuel + 1) depth bs = some (v, rest)) :
    ∃ raw, bs = raw ++ rest ∧ ReadsAs depth raw v := by
  obtain ⟨w, hw, hbs⟩ := exists_blank bs
  obtain ⟨b, raw, hopened, hraw⟩ := h.step (readValue_succ_iff.mp hread)
  have hb := not_isSpace_of_skipSpace hopened
  refine ⟨w ++ b :: raw, by rw [hbs, hopened, List.append_assoc], fun more hmore n hn => ?_⟩
  obtain ⟨n, rfl⟩ : ∃ m, n = m + 1 := ⟨n - 1, by omega⟩
  rw [readValue_succ_iff, List.append_assoc, skipSpace_blank hw, List.cons_append,
    skipSpace_cons hb]
  exact hraw more hmore n (by simp only [List.length_append, List.length_cons] at hn; omega)

theorem items_succ (h : ReadsPart fuel) {vs : List Json}
    (hread : readItems (fuel + 1) depth bs = some (vs, rest)) :
    FromFront (fun fuel bs rest => readItems fuel depth bs = some (vs, rest)) bs rest := by
  obtain ⟨v, back, hvalue, hcase⟩ := readItems_succ_iff.mp hread
  obtain ⟨raw, rfl, hraw⟩ := h.value hvalue
  let More (fuel : Nat) (next rest : Bytes) : Prop :=
    ∃ vs', readItems fuel depth next = some (vs', rest) ∧ vs = v :: vs'
  have hcontinues : Continues 93 More (vs = [v]) fuel back rest := by
    refine hcase.imp_left ?_
    rintro ⟨next, vs', hcomma, hitems, hvs⟩
    exact ⟨next, hcomma, vs', hitems, hvs⟩
  obtain ⟨raw', rfl, hraw'⟩ := hcontinues.exists_raw (.inl rfl) fun next ⟨vs', hitems, hvs⟩ => by
    obtain ⟨raw', rfl, hraw'⟩ := h.items hitems
    exact ⟨raw', rfl, fun more n hn => ⟨vs', hraw' more n hn, hvs⟩⟩
  refine ⟨raw ++ raw', by simp, fun more n hn => ?_⟩
  obtain ⟨n, rfl⟩ : ∃ m, n = m + 1 := ⟨n - 1, by omega⟩
  rw [List.length_append] at hn
  rw [List.append_assoc]
  refine readItems_succ_iff.mpr ⟨v, _, hraw _ (hraw' more).1 n (by omega),
    ((hraw' more).2 n (by omega)).imp_left ?_⟩
  rintro ⟨next, hcomma, vs', hitems, hvs⟩
  exact ⟨next, vs', hcomma, hitems, hvs⟩

theorem members_succ (h : ReadsPart fuel) {ms : List (String × Json)}
    (hread : readMembers (fuel + 1) depth bs = some (ms, rest)) :
    FromFront (fun fuel bs rest => readMembers fuel depth bs = some (ms, rest)) bs rest := by
  obtain ⟨opened, name, closed, value, v, back, hopen, hname, hcolon, hvalue, hcase⟩ :=
    readMembers_succ_iff.mp hread
  obtain ⟨w, hw, rfl⟩ := exists_blank_of_expect hopen
  obtain ⟨named, rfl, hnamed⟩ := exists_raw_of_readString hname
  obtain ⟨w', hw', rfl⟩ := exists_blank_of_expect hcolon
  obtain ⟨raw, rfl, hraw⟩ := h.value hvalue
  let More (fuel : Nat) (next rest : Bytes) : Prop :=
    ∃ ms', readMembers fuel depth next = some (ms', rest) ∧ ms = (name, v) :: ms'
  have hcontinues : Continues 125 More (ms = [(name, v)]) fuel back rest := by
    refine hcase.imp_left ?_
    rintro ⟨next, ms', hcomma, hmembers, hms⟩
    exact ⟨next, hcomma, ms', hmembers, hms⟩
  obtain ⟨raw', rfl, hraw'⟩ := hcontinues.exists_raw (.inr rfl) fun next ⟨ms', hmembers, hms⟩ => by
    obtain ⟨raw', rfl, hraw'⟩ := h.members hmembers
    exact ⟨raw', rfl, fun more n hn => ⟨ms', hraw' more n hn, hms⟩⟩
  refine ⟨w ++ 34 :: (named ++ (w' ++ 58 :: (raw ++ raw'))), by simp, fun more n hn => ?_⟩
  obtain ⟨n, rfl⟩ : ∃ m, n = m + 1 := ⟨n - 1, by omega⟩
  simp only [List.length_append, List.length_cons] at hn
  simp only [List.append_assoc, List.cons_append]
  refine readMembers_succ_iff.mpr ⟨_, name, _, _, v, _, expect_mark hw (by decide) _, hnamed _,
    expect_mark hw' (by decide) _, hraw _ (hraw' more).1 n (by omega),
    ((hraw' more).2 n (by omega)).imp_left ?_⟩
  rintro ⟨next, hcomma, ms', hmembers, hms⟩
  exact ⟨next, ms', hcomma, hmembers, hms⟩

end ReadsPart

theorem readsPart (fuel : Nat) : ReadsPart fuel := by
  induction fuel with
  | zero => exact ⟨fun h => by simp [readValue] at h, fun h => by simp [readItems] at h,
      fun h => by simp [readMembers] at h⟩
  | succ fuel ih => exact ⟨ih.value_succ, ih.items_succ, ih.members_succ⟩

section Skipping

variable {fuel : Nat}

/-- One step over a value, by the first byte. -/
inductive SkipStep (fuel : Nat) : Bytes → Bytes → Prop
  | null {bs rest : Bytes} : word? "ull" bs = some rest → SkipStep fuel (110 :: bs) rest
  | yes {bs rest : Bytes} : word? "rue" bs = some rest → SkipStep fuel (116 :: bs) rest
  | no {bs rest : Bytes} : word? "alse" bs = some rest → SkipStep fuel (102 :: bs) rest
  | text {bs rest : Bytes} : skipString bs = some rest → SkipStep fuel (34 :: bs) rest
  | emptyArray {bs rest : Bytes} : expect 93 bs = some rest → SkipStep fuel (91 :: bs) rest
  | array {bs rest : Bytes} : expect 93 bs = none → skipItems fuel bs = some rest →
      SkipStep fuel (91 :: bs) rest
  | emptyObject {bs rest : Bytes} : expect 125 bs = some rest → SkipStep fuel (123 :: bs) rest
  | object {bs rest : Bytes} : expect 125 bs = none → skipMembers fuel bs = some rest →
      SkipStep fuel (123 :: bs) rest
  | numeral {b : UInt8} {bs rest : Bytes} {n : Numeral} :
      b ∉ ([110, 116, 102, 34, 91, 123] : Bytes) → Numeral.read (b :: bs) = some (n, rest) →
      SkipStep fuel (b :: bs) rest

theorem skipValue_succ_iff :
    skipValue (fuel + 1) bs = some rest ↔ SkipStep fuel (skipSpace bs) rest := by
  rw [skipValue]
  constructor
  · intro h
    split at h
    · exact absurd h (by simp)
    · next b more hspace =>
      rw [hspace]
      split at h
      · next hb => exact hb ▸ .null h
      split at h
      · next hb => exact hb ▸ .yes h
      split at h
      · next hb => exact hb ▸ .no h
      split at h
      · next hb => exact hb ▸ .text h
      split at h
      · next hb =>
        split at h
        · next hclose => exact hb ▸ .emptyArray (hclose.trans h)
        · next hopen => exact hb ▸ .array hopen h
      split at h
      · next hb =>
        split at h
        · next hclose => exact hb ▸ .emptyObject (hclose.trans h)
        · next hopen => exact hb ▸ .object hopen h
      · obtain ⟨⟨n, back⟩, hread, rfl⟩ := Option.map_eq_some_iff.mp h
        exact .numeral (by simp [*]) hread
  · intro h
    generalize skipSpace bs = opened at h ⊢
    cases h with
    | null hword => simpa using hword
    | yes hword => simpa using hword
    | no hword => simpa using hword
    | text hstring => simpa using hstring
    | emptyArray hclose => simp [hclose]
    | array hopen hitems => simpa [hopen] using hitems
    | emptyObject hclose => simp [hclose]
    | object hopen hmembers => simpa [hopen] using hmembers
    | numeral hb hread =>
      simp only [List.mem_cons, List.not_mem_nil, or_false, not_or] at hb
      simp [hb, hread]

theorem skipItems_succ_iff : skipItems (fuel + 1) bs = some rest ↔
    ∃ back, skipValue fuel bs = some back ∧
      Continues 93 (fun fuel bs rest => skipItems fuel bs = some rest) True fuel back rest := by
  rw [skipItems]
  simp only [Option.bind_eq_bind, Option.bind_eq_some_iff]
  refine exists_congr fun back => and_congr_right fun _ => ?_
  cases hcomma : expect 44 back <;> simp [Continues, hcomma]

theorem skipMembers_succ_iff : skipMembers (fuel + 1) bs = some rest ↔
    ∃ opened closed value back, expect 34 bs = some opened ∧ skipString opened = some closed ∧
      expect 58 closed = some value ∧ skipValue fuel value = some back ∧
      Continues 125 (fun fuel bs rest => skipMembers fuel bs = some rest) True fuel back rest := by
  rw [skipMembers]
  simp only [Option.bind_eq_bind, Option.bind_eq_some_iff]
  constructor
  · rintro ⟨opened, hopen, closed, hname, value, hcolon, back, hvalue, h⟩
    refine ⟨opened, closed, value, back, hopen, hname, hcolon, hvalue, ?_⟩
    cases hcomma : expect 44 back with
    | some next => exact .inl ⟨next, hcomma, by simpa [hcomma] using h⟩
    | none => exact .inr ⟨hcomma, by simpa [hcomma] using h, trivial⟩
  · rintro ⟨opened, closed, value, back, hopen, hname, hcolon, hvalue, hcontinues⟩
    refine ⟨opened, hopen, closed, hname, value, hcolon, back, hvalue, ?_⟩
    rcases hcontinues with ⟨next, hcomma, hnext⟩ | ⟨hcomma, hclose, -⟩
    · simpa [hcomma] using hnext
    · simpa [hcomma] using hclose

end Skipping

/-- These bytes are stepped over before anything that does not go on with them. -/
def Skips (raw : Bytes) : Prop :=
  ∀ more, Ends more → ∀ fuel, 2 * raw.length + 1 ≤ fuel → skipValue fuel (raw ++ more) = some more

/-- What is stepped over within some steps is the same before other bytes. -/
structure SkipsPart (fuel : Nat) : Prop where
  value : ∀ {bs rest}, skipValue fuel bs = some rest → ∃ raw, bs = raw ++ rest ∧ Skips raw
  items : ∀ {bs rest}, skipItems fuel bs = some rest →
    FromFront (fun fuel bs rest => skipItems fuel bs = some rest) bs rest
  members : ∀ {bs rest}, skipMembers fuel bs = some rest →
    FromFront (fun fuel bs rest => skipMembers fuel bs = some rest) bs rest

/-- No value that is stepped over starts with a closing bracket. -/
theorem expect_bracket_of_skipValue {fuel : Nat} (h : skipValue fuel bs = some rest) :
    expect 93 bs = none := by
  cases fuel with
  | zero => exact absurd h (by simp [skipValue])
  | succ fuel =>
    rw [skipValue_succ_iff] at h
    rw [expect]
    generalize skipSpace bs = opened at h ⊢
    cases h with
    | @numeral b back _ _ _ hread =>
      refine if_neg fun hb => ?_
      subst hb
      simp [Numeral.read, takeDigits, isDigit] at hread
    | _ => exact if_neg (by decide)

namespace SkipsPart

variable {fuel : Nat}

theorem step (h : SkipsPart fuel) {opened : Bytes} (hstep : SkipStep fuel opened rest) :
    ∃ b raw, opened = b :: raw ++ rest ∧ ∀ more, Ends more → ∀ fuel', 2 * raw.length + 2 ≤ fuel' →
      SkipStep fuel' (b :: raw ++ more) more := by
  cases hstep with
  | null hword =>
    obtain rfl := exists_of_word? hword
    exact ⟨_, _, rfl, fun more _ _ _ => .null (word?_self _ more)⟩
  | yes hword =>
    obtain rfl := exists_of_word? hword
    exact ⟨_, _, rfl, fun more _ _ _ => .yes (word?_self _ more)⟩
  | no hword =>
    obtain rfl := exists_of_word? hword
    exact ⟨_, _, rfl, fun more _ _ _ => .no (word?_self _ more)⟩
  | text hstring =>
    obtain ⟨raw, rfl, hraw⟩ := exists_raw_of_skipString hstring
    exact ⟨_, raw, rfl, fun more _ _ _ => .text (hraw more)⟩
  | emptyArray hclose =>
    obtain ⟨w, hw, rfl⟩ := exists_blank_of_expect hclose
    refine ⟨_, w ++ [93], by simp, fun more _ _ _ => .emptyArray ?_⟩
    exact expect_mark_append hw (by decide) more
  | array hopen hitems =>
    obtain ⟨raw, rfl, hraw⟩ := h.items hitems
    refine ⟨_, raw, rfl, fun more _ fuel' hfuel => .array ?_ (hraw more fuel' hfuel)⟩
    obtain ⟨back, hvalue, -⟩ := skipItems_succ_iff.mp (hraw more (fuel' + 1) (by omega))
    exact expect_bracket_of_skipValue hvalue
  | emptyObject hclose =>
    obtain ⟨w, hw, rfl⟩ := exists_blank_of_expect hclose
    refine ⟨_, w ++ [125], by simp, fun more _ _ _ => .emptyObject ?_⟩
    exact expect_mark_append hw (by decide) more
  | object hopen hmembers =>
    obtain ⟨raw, rfl, hraw⟩ := h.members hmembers
    refine ⟨_, raw, rfl, fun more _ fuel' hfuel => .object ?_ (hraw more fuel' hfuel)⟩
    obtain ⟨opened, closed, back, next, hquote, -⟩ :=
      skipMembers_succ_iff.mp (hraw more (fuel' + 1) (by omega))
    exact expect_of_expect hquote (by decide)
  | numeral hb hread =>
    obtain ⟨b, raw, hopened, hraw⟩ := exists_raw_of_readNumeral hread
    obtain ⟨rfl, rfl⟩ := List.cons.inj hopened
    exact ⟨_, raw, rfl, fun more hmore _ _ => .numeral hb (hraw more hmore)⟩

theorem value_succ (h : SkipsPart fuel) (hskip : skipValue (fuel + 1) bs = some rest) :
    ∃ raw, bs = raw ++ rest ∧ Skips raw := by
  obtain ⟨w, hw, hbs⟩ := exists_blank bs
  obtain ⟨b, raw, hopened, hraw⟩ := h.step (skipValue_succ_iff.mp hskip)
  have hb := not_isSpace_of_skipSpace hopened
  refine ⟨w ++ b :: raw, by rw [hbs, hopened, List.append_assoc], fun more hmore n hn => ?_⟩
  obtain ⟨n, rfl⟩ : ∃ m, n = m + 1 := ⟨n - 1, by omega⟩
  rw [skipValue_succ_iff, List.append_assoc, skipSpace_blank hw, List.cons_append,
    skipSpace_cons hb]
  exact hraw more hmore n (by simp only [List.length_append, List.length_cons] at hn; omega)

theorem items_succ (h : SkipsPart fuel) (hskip : skipItems (fuel + 1) bs = some rest) :
    FromFront (fun fuel bs rest => skipItems fuel bs = some rest) bs rest := by
  obtain ⟨back, hvalue, hcontinues⟩ := skipItems_succ_iff.mp hskip
  obtain ⟨raw, rfl, hraw⟩ := h.value hvalue
  obtain ⟨raw', rfl, hraw'⟩ := hcontinues.exists_raw (.inl rfl) fun _ => h.items
  refine ⟨raw ++ raw', by simp, fun more n hn => ?_⟩
  obtain ⟨n, rfl⟩ : ∃ m, n = m + 1 := ⟨n - 1, by omega⟩
  rw [List.length_append] at hn
  rw [List.append_assoc]
  exact skipItems_succ_iff.mpr ⟨_, hraw _ (hraw' more).1 n (by omega), (hraw' more).2 n (by omega)⟩

theorem members_succ (h : SkipsPart fuel) (hskip : skipMembers (fuel + 1) bs = some rest) :
    FromFront (fun fuel bs rest => skipMembers fuel bs = some rest) bs rest := by
  obtain ⟨opened, closed, value, back, hopen, hname, hcolon, hvalue, hcontinues⟩ :=
    skipMembers_succ_iff.mp hskip
  obtain ⟨w, hw, rfl⟩ := exists_blank_of_expect hopen
  obtain ⟨named, rfl, hnamed⟩ := exists_raw_of_skipString hname
  obtain ⟨w', hw', rfl⟩ := exists_blank_of_expect hcolon
  obtain ⟨raw, rfl, hraw⟩ := h.value hvalue
  obtain ⟨raw', rfl, hraw'⟩ := hcontinues.exists_raw (.inr rfl) fun _ => h.members
  refine ⟨w ++ 34 :: (named ++ (w' ++ 58 :: (raw ++ raw'))), by simp, fun more n hn => ?_⟩
  obtain ⟨n, rfl⟩ : ∃ m, n = m + 1 := ⟨n - 1, by omega⟩
  simp only [List.length_append, List.length_cons] at hn
  simp only [List.append_assoc, List.cons_append]
  exact skipMembers_succ_iff.mpr ⟨_, _, _, _, expect_mark hw (by decide) _, hnamed _,
    expect_mark hw' (by decide) _, hraw _ (hraw' more).1 n (by omega), (hraw' more).2 n (by omega)⟩

end SkipsPart

theorem skipsPart (fuel : Nat) : SkipsPart fuel := by
  induction fuel with
  | zero => exact ⟨fun h => by simp [skipValue] at h, fun h => by simp [skipItems] at h,
      fun h => by simp [skipMembers] at h⟩
  | succ fuel ih => exact ⟨ih.value_succ, ih.items_succ, ih.members_succ⟩

end AccountGate.Json
