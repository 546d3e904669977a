import AccountGate.Proofs.Json.Form

/-!
How many steps a reader needs. Main statement: what is read within any number of steps is read
within twice the number of bytes and two more, so that the bound on the steps never decides.
-/

namespace AccountGate.Json

variable {bs rest : Bytes}

theorem length_of_expect {b : UInt8} (h : expect b bs = some rest) : rest.length < bs.length := by
  obtain ⟨w, -, rfl⟩ := exists_blank_of_expect h
  simp only [List.length_append, List.length_cons]
  omega

theorem length_skipSpace_le (bs : Bytes) : (skipSpace bs).length ≤ bs.length :=
  (List.dropWhile_suffix _).length_le

theorem length_of_word? {w : String} (h : word? w bs = some rest) : rest.length ≤ bs.length := by
  rw [exists_of_word? h, List.length_append]
  omega

theorem length_of_readString {s : String} (h : readString bs = some (s, rest)) :
    rest.length < bs.length := by
  obtain ⟨s, -, rfl⟩ := exists_form_of_skipString (skipString_of_readString h)
  simp only [List.length_append, List.length_cons]
  omega

theorem NumeralForm.length_pos {raw : Bytes} (h : NumeralForm raw) : 0 < raw.length := by
  cases h with
  | @mk sign whole fraction exponent hsign hwhole hzero hfraction hexponent =>
    have hpos := List.length_pos_iff.mpr hwhole.1
    simp only [List.length_append]
    omega

theorem length_of_readNumeral {n : Numeral} (h : Numeral.read bs = some (n, rest)) :
    rest.length < bs.length := by
  obtain ⟨raw, hraw, rfl⟩ := exists_form_of_readNumeral h
  have hpos := hraw.length_pos
  rw [List.length_append]
  omega

/-- What is read within some steps leaves less, and is read within as many steps as there are bytes
to need them. -/
structure EnoughSteps (fuel : Nat) : Prop where
  value : ∀ {depth bs v rest}, readValue fuel depth bs = some (v, rest) →
    rest.length < bs.length ∧
      ∀ more, 2 * bs.length + 1 ≤ more → readValue more depth bs = some (v, rest)
  items : ∀ {depth bs vs rest}, readItems fuel depth bs = some (vs, rest) →
    rest.length < bs.length ∧
      ∀ more, 2 * bs.length + 2 ≤ more → readItems more depth bs = some (vs, rest)
  members : ∀ {depth bs ms rest}, readMembers fuel depth bs = some (ms, rest) →
    rest.length < bs.length ∧
      ∀ more, 2 * bs.length + 2 ≤ more → readMembers more depth bs = some (ms, rest)

namespace EnoughSteps

variable {fuel depth : Nat}

theorem value_succ (h : EnoughSteps fuel) {v : Json}
    (hread : readValue (fuel + 1) depth bs = some (v, rest)) : rest.length < bs.length ∧
      ∀ more, 2 * bs.length + 1 ≤ more → readValue more depth bs = some (v, rest) := by
  have hskip := length_skipSpace_le bs
  -- A value that is not an array or an object is read in any step.
  have hstep (hless : rest.length < (skipSpace bs).length)
      (hsame : ∀ n, ValueStep n depth (skipSpace bs) v rest) : rest.length < bs.length ∧
        ∀ more, 2 * bs.length + 1 ≤ more → readValue more depth bs = some (v, rest) := by
    refine ⟨by omega, fun more hmore => ?_⟩
    obtain ⟨n, rfl⟩ : ∃ n, more = n + 1 := ⟨more - 1, by omega⟩
    exact readValue_succ_iff.mpr (hsame n)
  -- An array or an object needs one step more than what is in it.
  have hinside {back : Bytes} (hback : (skipSpace bs).length = back.length + 1)
      (hless : rest.length < back.length)
      (hsame : ∀ n, 2 * back.length + 2 ≤ n → ValueStep n depth (skipSpace bs) v rest) :
      rest.length < bs.length ∧
        ∀ more, 2 * bs.length + 1 ≤ more → readValue more depth bs = some (v, rest) := by
    refine ⟨by omega, fun more hmore => ?_⟩
    obtain ⟨n, rfl⟩ : ∃ n, more = n + 1 := ⟨more - 1, by omega⟩
    exact readValue_succ_iff.mpr (hsame n (by omega))
  rw [readValue_succ_iff] at hread
  generalize skipSpace bs = opened at hread hstep hinside
  cases hread with
  | null hword =>
    exact hstep (Nat.lt_succ_of_le (length_of_word? hword)) fun _ => .null hword
  | yes hword => exact hstep (Nat.lt_succ_of_le (length_of_word? hword)) fun _ => .yes hword
  | no hword => exact hstep (Nat.lt_succ_of_le (length_of_word? hword)) fun _ => .no hword
  | text hstring =>
    exact hstep (Nat.lt_succ_of_lt (length_of_readString hstring)) fun _ => .text hstring
  | emptyArray hclose =>
    exact hstep (Nat.lt_succ_of_lt (length_of_expect hclose)) fun _ => .emptyArray hclose
  | array hopen hitems =>
    obtain ⟨hless, henough⟩ := h.items hitems
    exact hinside rfl hless fun n hn => .array hopen (henough n hn)
  | emptyObject hclose =>
    exact hstep (Nat.lt_succ_of_lt (length_of_expect hclose)) fun _ => .emptyObject hclose
  | object hopen hmembers =>
    obtain ⟨hless, henough⟩ := h.members hmembers
    exact hinside rfl hless fun n hn => .object hopen (henough n hn)
  | numeral hb hnumeral hnumber =>
    exact hstep (length_of_readNumeral hnumeral) fun _ => .numeral hb hnumeral hnumber

theorem items_succ (h : EnoughSteps fuel) {vs : List Json}
    (hread : readItems (fuel + 1) depth bs = some (vs, rest)) : rest.length < bs.length ∧
      ∀ more, 2 * bs.length + 2 ≤ more → readItems more depth bs = some (vs, rest) := by
  obtain ⟨v, back, hvalue, hcase⟩ := readItems_succ_iff.mp hread
  obtain ⟨hshort, henough⟩ := h.value hvalue
  rcases hcase with ⟨next, vs', hcomma, hitems, rfl⟩ | ⟨hcomma, hclose, rfl⟩
  · have hnext := length_of_expect hcomma
    obtain ⟨hrest, henough'⟩ := h.items hitems
    refine ⟨by omega, fun more hmore => ?_⟩
    obtain ⟨n, rfl⟩ : ∃ n, more = n + 1 := ⟨more - 1, by omega⟩
    exact readItems_succ_iff.mpr ⟨v, back, henough n (by omega),
      .inl ⟨next, vs', hcomma, henough' n (by omega), rfl⟩⟩
  · have hrest := length_of_expect hclose
    refine ⟨by omega, fun more hmore => ?_⟩
    obtain ⟨n, rfl⟩ : ∃ n, more = n + 1 := ⟨more - 1, by omega⟩
    exact readItems_succ_iff.mpr ⟨v, back, henough n (by omega), .inr ⟨hcomma, hclose, rfl⟩⟩

theorem members_succ (h : EnoughSteps fuel) {ms : List (String × Json)}
    (hread : readMembers (fuel + 1) depth bs = some (ms, rest)) : rest.length < bs.length ∧
      ∀ more, 2 * bs.length + 2 ≤ more → readMembers more depth bs = some (ms, rest) := by
  obtain ⟨opened, name, closed, value, v, back, hopen, hname, hcolon, hvalue, hcase⟩ :=
    readMembers_succ_iff.mp hread
  have hopened := length_of_expect hopen
  have hclosed := length_of_readString hname
  have hcolon' := length_of_expect hcolon
  obtain ⟨hshort, henough⟩ := h.value hvalue
  rcases hcase with ⟨next, ms', hcomma, hmembers, rfl⟩ | ⟨hcomma, hclose, rfl⟩
  · have hnext := length_of_expect hcomma
    obtain ⟨hrest, henough'⟩ := h.members hmembers
    refine ⟨by omega, fun more hmore => ?_⟩
    obtain ⟨n, rfl⟩ : ∃ n, more = n + 1 := ⟨more - 1, by omega⟩
    exact readMembers_succ_iff.mpr ⟨opened, name, closed, value, v, back, hopen, hname, hcolon,
      henough n (by omega), .inl ⟨next, ms', hcomma, henough' n (by omega), rfl⟩⟩
  · have hrest := length_of_expect hclose
    refine ⟨by omega, fun more hmore => ?_⟩
    obtain ⟨n, rfl⟩ : ∃ n, more = n + 1 := ⟨more - 1, by omega⟩
    exact readMembers_succ_iff.mpr ⟨opened, name, closed, value, v, back, hopen, hname, hcolon,
      henough n (by omega), .inr ⟨hcomma, hclose, rfl⟩⟩

end EnoughSteps

theorem enoughSteps (fuel : Nat) : EnoughSteps fuel := by
  induction fuel with
  | zero => exact ⟨fun h => by simp [readValue] at h, fun h => by simp [readItems] at h,
      fun h => by simp [readMembers] at h⟩
  | succ fuel ih => exact ⟨ih.value_succ, ih.items_succ, ih.members_succ⟩

variable {fuel depth : Nat}

/-- The bound on the steps never decides what is read. -/
theorem readValue_fuelFor {v : Json} (h : readValue fuel depth bs = some (v, rest)) :
    readValue (fuelFor bs) depth bs = some (v, rest) :=
  ((enoughSteps fuel).value h).2 _ (by rw [fuelFor]; omega)

theorem readItems_fuelFor {vs : List Json} (h : readItems fuel depth bs = some (vs, rest)) :
    readItems (fuelFor bs) depth bs = some (vs, rest) :=
  ((enoughSteps fuel).items h).2 _ (by rw [fuelFor])

/-- The items of an array one after another, each with its own bound. -/
theorem readItems_fuelFor_iff {vs : List Json} :
    readItems (fuelFor bs) depth bs = some (vs, rest) ↔
      ∃ v more, readValue (fuelFor bs) depth bs = some (v, more) ∧
        ((∃ back vs', expect 44 more = some back ∧
            readItems (fuelFor back) depth back = some (vs', rest) ∧ vs = v :: vs') ∨
          expect 44 more = none ∧ expect 93 more = some rest ∧ vs = [v]) := by
  obtain ⟨n, hn⟩ : ∃ n, fuelFor bs = n + 1 := ⟨2 * bs.length + 1, rfl⟩
  have hfuel : n = 2 * bs.length + 1 := by
    rw [fuelFor] at hn
    omega
  constructor
  · intro h
    rw [hn, readItems_succ_iff] at h
    obtain ⟨v, more, hvalue, hcase⟩ := h
    refine ⟨v, more, readValue_fuelFor hvalue, hcase.imp_left ?_⟩
    rintro ⟨back, vs', hcomma, hitems, rfl⟩
    exact ⟨back, vs', hcomma, readItems_fuelFor hitems, rfl⟩
  · rintro ⟨v, more, hvalue, hcase⟩
    rw [hn, readItems_succ_iff]
    obtain ⟨hshort, henough⟩ := (enoughSteps _).value hvalue
    refine ⟨v, more, henough n (by omega), hcase.imp_left ?_⟩
    rintro ⟨back, vs', hcomma, hitems, rfl⟩
    have hback := length_of_expect hcomma
    exact ⟨back, vs', hcomma, ((enoughSteps _).items hitems).2 n (by omega), rfl⟩

end AccountGate.Json
