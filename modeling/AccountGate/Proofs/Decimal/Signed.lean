import AccountGate.Decimal.Signed
import Mathlib.Data.Nat.Digits.Defs
import Mathlib.Tactic.Common

/-!
Numbers and their decimal texts. Main statements: what is read is the value of an optional sign and
some digits, when that fits into 64 bits; and a number that does is read back from the text that it
is written as.
-/

namespace AccountGate.Decimal

theorem natFrom_append (acc : Nat) (xs ys : List Char) :
    natFrom acc (xs ++ ys) = (natFrom acc xs).bind fun n => natFrom n ys := by
  induction xs generalizing acc with
  | nil => rfl
  | cons c rest ih =>
    rw [List.cons_append, natFrom, natFrom]
    cases digit? c with
    | none => rfl
    | some d => exact ih (acc * 10 + d)

theorem digit?_digitChar {d : Nat} (h : d < 10) : digit? (Nat.digitChar d) = some d := by
  revert d
  decide

theorem natFrom_digitChar (acc : Nat) {d : Nat} (h : d < 10) :
    natFrom acc [Nat.digitChar d] = some (acc * 10 + d) := by
  simp only [natFrom, digit?_digitChar h]

theorem natFrom_toDigits (n : Nat) : natFrom 0 (Nat.toDigits 10 n) = some n := by
  induction n using Nat.strongRecOn with
  | ind n ih =>
    by_cases hn : n < 10
    · rw [Nat.toDigits_of_lt_base hn, natFrom_digitChar 0 hn, Nat.zero_mul, Nat.zero_add]
    · -- All digits but the last write the tenth part.
      rw [Nat.toDigits_of_base_le (by decide) (by omega), natFrom_append, ih (n / 10) (by omega),
        Option.bind_some, natFrom_digitChar _ (Nat.mod_lt n (by decide)), Nat.div_add_mod']

theorem readNat?_toDigits (n : Nat) : readNat? (Nat.toDigits 10 n) = some n := by
  have hsome : (Nat.toDigits 10 n).isEmpty = false := by
    simp
  rw [readNat?, hsome]
  exact natFrom_toDigits n

/-- The text of a natural number starts with a digit, which no sign is. -/
theorem head_toDigits_ne (n : Nat) {c : Char} (hc : digit? c = none) (rest : List Char) :
    Nat.toDigits 10 n ≠ c :: rest := by
  intro h
  have hread := natFrom_toDigits n
  rw [h, natFrom, hc] at hread
  exact absurd hread (by simp)

theorem toList_toString_ofNat (n : Nat) : (toString (n : Int)).toList = Nat.toDigits 10 n := by
  show (Nat.repr n).toList = _
  simp [Nat.repr]

theorem toList_toString_neg (n : Nat) :
    (toString (Int.negSucc n)).toList = '-' :: Nat.toDigits 10 (n + 1) := by
  show ("-" ++ Nat.repr (n + 1)).toList = _
  simp [Nat.repr]

theorem fits64_iff {n : Int} : fits64 n = true ↔ minInt64 ≤ n ∧ n ≤ maxInt64 := by
  simp [fits64]

theorem fits64_of_guarded {x : Option Int} {n : Int}
    (h : (x.bind fun n => (guard (fits64 n = true) : Option Unit).bind fun _ => some n) = some n) :
    fits64 n = true := by
  obtain ⟨m, -, h⟩ := Option.bind_eq_some_iff.mp h
  by_cases hfits : fits64 m = true
  · rw [guard, if_pos hfits] at h
    exact Option.some.inj h ▸ hfits
  · rw [guard, if_neg hfits] at h
    exact absurd h (Option.some_ne_none n).symm

/-- What is read is a number of 64 bits. -/
theorem fits64_of_readInt64? {text : String} {n : Int} (h : readInt64? text = some n) :
    fits64 n = true := by
  rw [readInt64?] at h
  split at h <;> exact fits64_of_guarded h

theorem guarded {n : Int} (h : fits64 n = true) :
    Option.bind (guard (fits64 n = true)) (fun _ => some n) = some n := by
  rw [guard, if_pos h]
  rfl

theorem readInt64?_of_digits {text : String} {n : Nat} (h : fits64 n = true)
    (htext : text.toList = Nat.toDigits 10 n) : readInt64? text = some (n : Int) := by
  rw [readInt64?, htext]
  split
  · next rest heq => exact absurd heq (head_toDigits_ne n (by decide) rest)
  · next rest heq => exact absurd heq (head_toDigits_ne n (by decide) rest)
  · rw [readNat?_toDigits]
    exact guarded h

theorem readInt64?_of_signed {text : String} {n : Nat} (h : fits64 (-(n : Int)) = true)
    (htext : text.toList = '-' :: Nat.toDigits 10 n) : readInt64? text = some (-(n : Int)) := by
  rw [readInt64?, htext]
  change (((readNat? (Nat.toDigits 10 n)).bind fun m => some (m : Int)).map fun m => -m).bind _ = _
  rw [readNat?_toDigits]
  exact guarded h

/-- A number of 64 bits is read back from its text. -/
theorem readInt64?_toString {n : Int} (h : fits64 n = true) : readInt64? (toString n) = some n := by
  cases n with
  | ofNat n => exact readInt64?_of_digits h (toList_toString_ofNat n)
  | negSucc n =>
    have hneg : Int.negSucc n = -((n + 1 : Nat) : Int) := Int.negSucc_eq n
    have htext := toList_toString_neg n
    rw [hneg] at h htext ⊢
    exact readInt64?_of_signed h htext

/-- Some digits, and the number that they are in base ten. -/
structure IsDecimal (cs : List Char) (n : Nat) : Prop where
  nonempty : cs ≠ []
  digits : ∀ c ∈ cs, '0' ≤ c ∧ c ≤ '9'
  value : Nat.ofDigits 10 (cs.reverse.map fun c => c.toNat - 48) = n

/-- Digits with or without a sign. -/
inductive IsSignedDecimal : List Char → Int → Prop
  | plain {cs : List Char} {n : Nat} (h : IsDecimal cs n) : IsSignedDecimal cs n
  | plus {cs : List Char} {n : Nat} (h : IsDecimal cs n) : IsSignedDecimal ('+' :: cs) n
  | minus {cs : List Char} {n : Nat} (h : IsDecimal cs n) : IsSignedDecimal ('-' :: cs) (-n)

theorem digit?_eq_some_iff {c : Char} {d : Nat} :
    digit? c = some d ↔ ('0' ≤ c ∧ c ≤ '9') ∧ c.toNat - 48 = d := by
  rw [digit?]
  split <;> simp_all

theorem natFrom_eq_some_iff {acc n : Nat} {cs : List Char} : natFrom acc cs = some n ↔
    (∀ c ∈ cs, '0' ≤ c ∧ c ≤ '9') ∧
      acc * 10 ^ cs.length + Nat.ofDigits 10 (cs.reverse.map fun c => c.toNat - 48) = n := by
  induction cs generalizing acc with
  | nil => simp [natFrom]
  | cons c cs ih =>
    have hvalue : (acc * 10 + (c.toNat - 48)) * 10 ^ cs.length +
          Nat.ofDigits 10 (cs.reverse.map fun c => c.toNat - 48) =
        acc * 10 ^ (c :: cs).length +
          Nat.ofDigits 10 ((c :: cs).reverse.map fun c => c.toNat - 48) := by
      rw [List.reverse_cons, List.map_append, Nat.ofDigits_append, List.length_map,
        List.length_reverse, List.map_singleton, Nat.ofDigits_singleton, List.length_cons]
      ring
    rw [natFrom, List.forall_mem_cons]
    cases hd : digit? c with
    | none =>
      refine iff_of_false (by simp) fun h => ?_
      have hsome := digit?_eq_some_iff.mpr ⟨h.1.1, rfl⟩
      exact absurd (hd.symm.trans hsome) (by simp)
    | some d =>
      obtain ⟨hdigit, rfl⟩ := digit?_eq_some_iff.mp hd
      dsimp only
      rw [ih, hvalue]
      simp [hdigit]

theorem readNat?_eq_some_iff {cs : List Char} {n : Nat} :
    readNat? cs = some n ↔ IsDecimal cs n := by
  rw [readNat?]
  cases cs with
  | nil => exact iff_of_false (by simp) fun h => h.nonempty rfl
  | cons c cs =>
    rw [if_neg (by simp), natFrom_eq_some_iff, Nat.zero_mul, Nat.zero_add]
    exact ⟨fun h => ⟨List.cons_ne_nil c cs, h.1, h.2⟩, fun h => ⟨h.digits, h.value⟩⟩

/-- No digits start with a sign. -/
theorem IsDecimal.head_ne {c : Char} {cs : List Char} {n : Nat} (h : IsDecimal (c :: cs) n) :
    c ≠ '+' ∧ c ≠ '-' := by
  have hdigit := h.digits c List.mem_cons_self
  constructor <;> rintro rfl <;> exact absurd hdigit (by decide)

theorem bind_guard_eq_some_iff {x : Option Int} {n : Int} :
    (x.bind fun n => (guard (fits64 n = true) : Option Unit).bind fun _ => some n) = some n ↔
      x = some n ∧ minInt64 ≤ n ∧ n ≤ maxInt64 := by
  rw [← fits64_iff]
  constructor
  · intro h
    obtain ⟨m, rfl, hm⟩ := Option.bind_eq_some_iff.mp h
    obtain ⟨_, -, hmn⟩ := Option.bind_eq_some_iff.mp hm
    exact ⟨hmn, fits64_of_guarded h⟩
  · rintro ⟨rfl, hfits⟩
    exact guarded hfits

/-- What is read is the value of the digits and the sign, when that fits into 64 bits. -/
theorem readInt64?_eq_some_iff {text : String} {n : Int} : readInt64? text = some n ↔
    IsSignedDecimal text.toList n ∧ minInt64 ≤ n ∧ n ≤ maxInt64 := by
  rw [readInt64?]
  split
  case h_1 cs htext =>
    refine bind_guard_eq_some_iff.trans (and_congr_left' ?_)
    rw [htext, Option.map_eq_some_iff]
    simp only [readNat?_eq_some_iff]
    constructor
    · rintro ⟨m, hm, rfl⟩
      exact .plus hm
    · intro h
      cases h with
      | plain h => exact absurd rfl h.head_ne.1
      | plus h => exact ⟨_, h, rfl⟩
  case h_2 cs htext =>
    refine bind_guard_eq_some_iff.trans (and_congr_left' ?_)
    change ((readNat? cs).bind fun m => some (m : Int)).map (fun m => -m) = some n ↔ _
    rw [htext, Option.map_eq_some_iff]
    simp only [Option.bind_eq_some_iff, readNat?_eq_some_iff]
    constructor
    · rintro ⟨_, ⟨m, hm, hcast⟩, rfl⟩
      obtain rfl := Option.some.inj hcast
      exact .minus hm
    · intro h
      cases h with
      | plain h => exact absurd rfl h.head_ne.2
      | minus h => exact ⟨_, ⟨_, h, rfl⟩, rfl⟩
  case h_3 hplus hminus =>
    refine bind_guard_eq_some_iff.trans (and_congr_left' ?_)
    rw [Option.map_eq_some_iff]
    simp only [readNat?_eq_some_iff]
    generalize text.toList = cs at hplus hminus
    constructor
    · rintro ⟨m, hm, rfl⟩
      exact .plain hm
    · intro h
      cases h with
      | plain h => exact ⟨_, h, rfl⟩
      | plus h => exact absurd rfl (hplus _)
      | minus h => exact absurd rfl (hminus _)

end AccountGate.Decimal
