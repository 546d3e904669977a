import AccountGate.Proofs.Decimal.Signed
import AccountGate.Proofs.Json.Fuel

/-!
Values and their compact texts. Main statement: a value whose numbers are whole, and which is nested
no deeper than the reader goes, is read back from its text.
-/

namespace AccountGate.Json

open Text (bytesOf)

variable {rest : Bytes}

/-- A value of whole numbers that 64 bits hold, with at most so many arrays and objects in one
another. The names of the members of an object ascend. -/
inductive Exact : Nat → Json → Prop
  | null {depth : Nat} : Exact depth .null
  | bool {depth : Nat} (b : Bool) : Exact depth (.bool b)
  | text {depth : Nat} (s : String) : Exact depth (.text s)
  | number {depth : Nat} {n : Int} (hlow : -(minMagnitude : Int) ≤ n) (hhigh : n ≤ maxWord) :
      Exact depth (.number (.int n))
  | array {depth : Nat} {items : List Json} (h : ∀ item ∈ items, Exact depth item) :
      Exact (depth + 1) (.array items)
  | object {depth : Nat} {members : List (String × Json)}
      (hnames : (members.map Prod.fst).Pairwise (· < ·))
      (h : ∀ member ∈ members, Exact depth member.2) : Exact (depth + 1) (.object members)

section Numerals

def digitByte (d : Nat) : UInt8 := .ofNat (48 + d)

theorem isDigit_digitByte {d : Nat} (h : d < 10) : isDigit (digitByte d) = true := by
  revert d
  decide

theorem digitOf_digitByte {d : Nat} (h : d < 10) : digitOf (digitByte d) = d := by
  revert d
  decide

theorem bytesOf_digitChar {d : Nat} (h : d < 10) : bytesOf [Nat.digitChar d] = [digitByte d] := by
  revert d
  decide +kernel

/-- The digits of a number, without zeros in front of them. -/
structure AreDigits (n : Nat) (ds : List Nat) : Prop where
  nonempty : ds ≠ []
  small : ∀ d ∈ ds, d < 10
  zero : ds.head? = some 0 → ds = [0]
  value : natOfDigits ds = n
  written : bytesOf (Nat.toDigits 10 n) = ds.map digitByte

theorem areDigits_of_lt {n : Nat} (h : n < 10) : AreDigits n [n] where
  nonempty := List.cons_ne_nil n []
  small := by simpa using h
  zero hhead := by rw [Option.some.inj hhead]
  value := by simp [natOfDigits]
  written := by
    rw [Nat.toDigits_of_lt_base h, bytesOf_digitChar h]
    rfl

/-- One more digit behind those of a number that is not zero. -/
theorem AreDigits.snoc {n d : Nat} {ds : List Nat} (h : AreDigits n ds) (hn : n ≠ 0) (hd : d < 10) :
    AreDigits (n * 10 + d) (ds ++ [d]) where
  nonempty := by simp
  small := by
    intro x hx
    rcases List.mem_append.mp hx with hx | hx
    · exact h.small x hx
    · rwa [List.mem_singleton.mp hx]
  zero hhead := by
    obtain ⟨x, more, rfl⟩ := List.exists_cons_of_ne_nil h.nonempty
    have hzero : natOfDigits (x :: more) = 0 := by rw [h.zero hhead]; rfl
    exact absurd (h.value.symm.trans hzero) hn
  value := by
    have hvalue := h.value
    rw [natOfDigits] at hvalue
    rw [natOfDigits, List.foldl_append, hvalue]
    rfl
  written := by
    have hdigits : Nat.toDigits 10 (n * 10 + d) = Nat.toDigits 10 n ++ [Nat.digitChar d] := by
      rw [Nat.toDigits_of_base_le (by decide) (by omega), show (n * 10 + d) / 10 = n by omega,
        show (n * 10 + d) % 10 = d by omega]
    rw [hdigits, Text.bytesOf_append, h.written, bytesOf_digitChar hd, List.map_append]
    rfl

theorem exists_digits (n : Nat) : ∃ ds, AreDigits n ds := by
  induction n using Nat.strongRecOn with
  | ind n ih =>
    by_cases hn : n < 10
    · exact ⟨[n], areDigits_of_lt hn⟩
    · obtain ⟨ds, hds⟩ := ih (n / 10) (by omega)
      have hmore := hds.snoc (by omega) (Nat.mod_lt n (by decide : 0 < 10))
      rw [Nat.div_add_mod'] at hmore
      exact ⟨_, hmore⟩

/-- What follows does not go on with a numeral. -/
def Ends (rest : Bytes) : Prop :=
  ∀ b ∈ rest.head?, isDigit b = false ∧ b ≠ 46 ∧ b ≠ 101 ∧ b ≠ 69

theorem takeDigits_digits {ds : List Nat} (h : ∀ d ∈ ds, d < 10) (hrest : Ends rest) :
    takeDigits (ds.map digitByte ++ rest) = (ds, rest) := by
  have hall : ∀ b ∈ ds.map digitByte, isDigit b = true := by
    simpa using fun d hd => isDigit_digitByte (h d hd)
  have hnone : rest.takeWhile isDigit = [] ∧ rest.dropWhile isDigit = rest := by
    cases rest with
    | nil => exact ⟨rfl, rfl⟩
    | cons b more =>
      have hb : ¬ isDigit b = true := by simp [(hrest b rfl).1]
      exact ⟨List.takeWhile_cons_of_neg hb, List.dropWhile_cons_of_neg hb⟩
  rw [takeDigits, List.takeWhile_append_of_pos hall, List.dropWhile_append_of_pos hall, hnone.1,
    hnone.2, List.append_nil, List.map_map]
  congr 1
  exact (List.map_congr_left fun d hd => digitOf_digitByte (h d hd)).trans (List.map_id ds)

theorem readFraction_of_ends (h : Ends rest) : Numeral.readFraction rest = some (none, rest) := by
  cases rest with
  | nil => rfl
  | cons b more => exact if_neg (h b rfl).2.1

theorem readExponent_of_ends (h : Ends rest) : Numeral.readExponent rest = some (none, rest) := by
  cases rest with
  | nil => rfl
  | cons b more =>
    obtain ⟨-, -, hsmall, hlarge⟩ := h b rfl
    exact if_neg (by simp [hsmall, hlarge])

theorem readNumeral_digits {n : Nat} {ds : List Nat} (h : AreDigits n ds) (hrest : Ends rest) :
    Numeral.read (ds.map digitByte ++ rest) = some (⟨false, ds, none, none⟩, rest) ∧
      Numeral.read (45 :: (ds.map digitByte ++ rest)) = some (⟨true, ds, none, none⟩, rest) := by
  have htake := takeDigits_digits h.small hrest
  obtain ⟨d, more, rfl⟩ := List.exists_cons_of_ne_nil h.nonempty
  have hguard : (guard (d = 0 → more = []) : Option Unit) = some () := by
    have hzero := h.zero
    simp only [List.head?_cons, Option.some.injEq, List.cons.injEq] at hzero
    exact if_pos fun hd => (hzero hd).2
  have hsign : digitByte d ≠ 45 := by
    have hdigit := isDigit_digitByte (h.small d List.mem_cons_self)
    intro heq
    rw [heq] at hdigit
    exact absurd hdigit (by decide)
  rw [List.map_cons, List.cons_append] at htake ⊢
  constructor
  · simp [Numeral.read, hsign, htake, hguard, readFraction_of_ends hrest,
      readExponent_of_ends hrest]
  · simp [Numeral.read, htake, hguard, readFraction_of_ends hrest, readExponent_of_ends hrest]

/-- A whole number is read back from its numeral, which starts with a digit or the sign. -/
theorem exists_read_number {n : Int} (hlow : -(minMagnitude : Int) ≤ n) (hhigh : n ≤ maxWord)
    (hrest : Ends rest) : ∃ b back numeral,
      bytesOf (chars (.number (.int n))) ++ rest = b :: back ∧ (b = 45 ∨ isDigit b = true) ∧
      Numeral.read (b :: back) = some (numeral, rest) ∧ numeral.number? = some (.int n) := by
  cases n with
  | ofNat n =>
    obtain ⟨ds, hds⟩ := exists_digits n
    have htext : bytesOf (chars (.number (.int n))) = ds.map digitByte := by
      rw [chars, numberChars, Decimal.toList_toString_ofNat, hds.written]
    have hread := (readNumeral_digits hds hrest).1
    have hnumber : Numeral.number? ⟨false, ds, none, none⟩ = some (.int n) := by
      have hle : n ≤ maxWord := Int.ofNat_le.mp hhigh
      simp [Numeral.number?, hle, hds.value]
    obtain ⟨d, more, rfl⟩ := List.exists_cons_of_ne_nil hds.nonempty
    refine ⟨_, _, _, congrArg (· ++ rest) htext, .inr ?_, hread, hnumber⟩
    exact isDigit_digitByte (hds.small d List.mem_cons_self)
  | negSucc n =>
    obtain ⟨ds, hds⟩ := exists_digits (n + 1)
    have htext : bytesOf (chars (.number (.int (.negSucc n)))) = 45 :: ds.map digitByte := by
      rw [chars, numberChars, Decimal.toList_toString_neg,
        show ∀ cs, bytesOf ('-' :: cs) = 45 :: bytesOf cs from fun _ => rfl, hds.written]
    have hnumber : Numeral.number? ⟨true, ds, none, none⟩ = some (.int (.negSucc n)) := by
      have hle : n + 1 ≤ minMagnitude := by
        rw [Int.negSucc_eq] at hlow
        omega
      simp [Numeral.number?, hle, hds.value, Int.negSucc_eq]
    exact ⟨_, _, _, congrArg (· ++ rest) htext, .inl rfl, (readNumeral_digits hds hrest).2, hnumber⟩

end Numerals

section Members

variable {name : String} {value : Json} {members : List (String × Json)}

theorem insertMember_of_forall_lt (h : ∀ member ∈ members, member.1 < name) :
    insertMember name value members = members ++ [(name, value)] := by
  induction members with
  | nil => rfl
  | cons member more ih =>
    obtain ⟨hmember, hmore⟩ := List.forall_mem_cons.mp h
    have hne : name ≠ member.1 := fun heq => String.lt_irrefl name (heq ▸ hmember)
    rw [insertMember, if_neg hne, if_neg (String.lt_asymm hmember), ih hmore]
    rfl

theorem foldl_insertMember {before : List (String × Json)}
    (h : ((before ++ members).map Prod.fst).Pairwise (· < ·)) :
    members.foldl (fun ms m => insertMember m.1 m.2 ms) before = before ++ members := by
  induction members generalizing before with
  | nil => exact (List.append_nil before).symm
  | cons member more ih =>
    have hlast : ∀ m ∈ before, m.1 < member.1 := by
      rw [List.map_append, List.pairwise_append] at h
      exact fun m hm => h.2.2 m.1 (List.mem_map_of_mem hm) member.1 (by simp)
    rw [List.append_cons] at h
    rw [List.foldl_cons, insertMember_of_forall_lt hlast, ih h, ← List.append_cons]

/-- Members whose names ascend are those of the object. -/
theorem ofMembers_of_ascending (h : (members.map Prod.fst).Pairwise (· < ·)) :
    ofMembers members = .object members := by
  rw [ofMembers, foldl_insertMember (by simpa using h), List.nil_append]

end Members

section Values

variable {depth : Nat}

/-- In steps enough, a value is read from its text, whatever follows that does not go on with it. -/
def IsReadBack (depth : Nat) (v : Json) : Prop :=
  ∀ rest, Ends rest → ∃ enough, ∀ fuel, enough ≤ fuel →
    readValue fuel depth (bytesOf (chars v) ++ rest) = some (v, rest)

theorem ends_cons {b : UInt8} (h : b = 44 ∨ b = 93 ∨ b = 125) : Ends (b :: rest) := by
  intro c hc
  obtain rfl := Option.some.inj hc
  rcases h with rfl | rfl | rfl <;> decide

theorem skipSpace_cons {b : UInt8} (h : isSpace b = false) : skipSpace (b :: rest) = b :: rest :=
  List.dropWhile_cons_of_neg (by simp [h])

/-- One step more than what it leads to needs. -/
theorem exists_enough_of_step {bs back : Bytes} {b : UInt8} {v : Json} (hbs : bs = b :: back)
    (hb : isSpace b = false)
    (h : ∃ enough, ∀ fuel, enough ≤ fuel → ValueStep fuel depth (b :: back) v rest) :
    ∃ enough, ∀ fuel, enough ≤ fuel → readValue fuel depth bs = some (v, rest) := by
  obtain ⟨enough, hstep⟩ := h
  refine ⟨enough + 1, fun fuel hfuel => ?_⟩
  obtain ⟨n, rfl⟩ : ∃ n, fuel = n + 1 := ⟨fuel - 1, by omega⟩
  rw [readValue_succ_iff, hbs, skipSpace_cons hb]
  exact hstep n (by omega)

theorem isReadBack_word {v : Json} {b : UInt8} {word : String}
    (htext : bytesOf (chars v) = b :: Text.bytes word) (hb : isSpace b = false)
    (h : ∀ {fuel bs rest}, word? word bs = some rest → ValueStep fuel depth (b :: bs) v rest) :
    IsReadBack depth v := by
  intro rest _
  have hword : word? word (Text.bytes word ++ rest) = some rest := by
    rw [word?, if_pos (List.isPrefixOf_iff_prefix.mpr (List.prefix_append _ _)), List.drop_left]
  refine exists_enough_of_step (by rw [htext]; rfl) hb ⟨0, fun fuel _ => ?_⟩
  exact h hword

theorem isReadBack_text (s : String) : IsReadBack depth (.text s) := by
  intro rest _
  have htext : bytesOf (chars (.text s)) ++ rest =
      34 :: (bytesOf (s.toList.flatMap escapeChar) ++ 34 :: rest) := by
    rw [chars, bytesOf_stringChars]
    simp
  exact exists_enough_of_step htext (by decide) ⟨0, fun _ _ => .text (readString_stringChars s)⟩

theorem isReadBack_number {n : Int} (hlow : -(minMagnitude : Int) ≤ n) (hhigh : n ≤ maxWord) :
    IsReadBack depth (.number (.int n)) := by
  intro rest hrest
  obtain ⟨b, back, numeral, htext, hb, hread, hnumber⟩ := exists_read_number hlow hhigh hrest
  have hother : isSpace b = false ∧ b ∉ ([110, 116, 102, 34, 91, 123] : Bytes) := by
    revert hb
    have hall : ∀ n < 256, (UInt8.ofNat n = 45 ∨ isDigit (.ofNat n) = true) →
        isSpace (.ofNat n) = false ∧ UInt8.ofNat n ∉ ([110, 116, 102, 34, 91, 123] : Bytes) := by
      decide +kernel
    exact Text.forall_byte (P := fun b => (b = 45 ∨ isDigit b = true) → isSpace b = false ∧ b ∉ _)
      hall b
  exact exists_enough_of_step htext hother.1 ⟨0, fun _ _ => .numeral hother.2 hread hnumber⟩

/-- No value starts with a closing bracket. -/
theorem expect_bracket_of_readValue {fuel : Nat} {bs : Bytes} {v : Json}
    (h : readValue fuel depth bs = some (v, rest)) : expect 93 bs = none := by
  cases fuel with
  | zero => exact absurd h (by simp [readValue])
  | succ fuel =>
    rw [readValue_succ_iff] at h
    rw [expect]
    generalize skipSpace bs = opened at h ⊢
    cases h with
    | @numeral _ b back _ _ _ _ hread _ =>
      refine if_neg fun hb => ?_
      subst hb
      simp [Numeral.read, takeDigits, isDigit] at hread
    | _ => exact if_neg (by decide)

theorem exists_enough_items {item : Json} {items : List Json}
    (h : ∀ v ∈ item :: items, IsReadBack depth v) (rest : Bytes) :
    ∃ enough, ∀ fuel, enough ≤ fuel →
      readItems fuel depth (bytesOf (chars item ++ itemsChars items) ++ rest) =
        some (item :: items, rest) := by
  induction items generalizing item with
  | nil =>
    obtain ⟨enough, hitem⟩ := h item List.mem_cons_self (93 :: rest) (ends_cons (by decide))
    have htext : bytesOf (chars item ++ itemsChars []) ++ rest =
        bytesOf (chars item) ++ 93 :: rest := by
      rw [itemsChars, Text.bytesOf_append, List.append_assoc]
      rfl
    refine ⟨enough + 1, fun fuel hfuel => ?_⟩
    obtain ⟨n, rfl⟩ : ∃ n, fuel = n + 1 := ⟨fuel - 1, by omega⟩
    rw [htext, readItems_succ_iff]
    exact ⟨item, _, hitem n (by omega),
      .inr ⟨expect_other (by decide) (by decide), expect_self (by decide), rfl⟩⟩
  | cons next items ih =>
    obtain ⟨more, hitems⟩ := ih (List.forall_mem_cons.mp h).2
    obtain ⟨enough, hitem⟩ := h item List.mem_cons_self
      (44 :: (bytesOf (chars next ++ itemsChars items) ++ rest)) (ends_cons (by decide))
    have htext : bytesOf (chars item ++ itemsChars (next :: items)) ++ rest =
        bytesOf (chars item) ++ 44 :: (bytesOf (chars next ++ itemsChars items) ++ rest) := by
      rw [itemsChars, Text.bytesOf_append, List.append_assoc]
      rfl
    refine ⟨enough + more + 1, fun fuel hfuel => ?_⟩
    obtain ⟨n, rfl⟩ : ∃ n, fuel = n + 1 := ⟨fuel - 1, by omega⟩
    rw [htext, readItems_succ_iff]
    exact ⟨item, _, hitem n (by omega),
      .inl ⟨_, _, expect_self (by decide), hitems n (by omega), rfl⟩⟩

/-- The text of a member before its value. -/
theorem bytesOf_member (name : String) (cs : List Char) :
    bytesOf (stringChars name ++ ':' :: cs) ++ rest =
      34 :: (bytesOf (name.toList.flatMap escapeChar) ++ 34 :: 58 :: (bytesOf cs ++ rest)) := by
  rw [Text.bytesOf_append, bytesOf_stringChars,
    show ∀ cs, bytesOf (':' :: cs) = 58 :: bytesOf cs from fun _ => rfl]
  simp

theorem exists_enough_members {name : String} {value : Json} {members : List (String × Json)}
    (h : ∀ member ∈ (name, value) :: members, IsReadBack depth member.2) (rest : Bytes) :
    ∃ enough, ∀ fuel, enough ≤ fuel → readMembers fuel depth
      (bytesOf (stringChars name ++ ':' :: (chars value ++ membersChars members)) ++ rest) =
        some ((name, value) :: members, rest) := by
  induction members generalizing name value with
  | nil =>
    obtain ⟨enough, hvalue⟩ := h _ List.mem_cons_self (125 :: rest) (ends_cons (by decide))
    have htext : bytesOf (chars value ++ membersChars []) ++ rest =
        bytesOf (chars value) ++ 125 :: rest := by
      rw [membersChars, Text.bytesOf_append, List.append_assoc]
      rfl
    refine ⟨enough + 1, fun fuel hfuel => ?_⟩
    obtain ⟨n, rfl⟩ : ∃ n, fuel = n + 1 := ⟨fuel - 1, by omega⟩
    rw [bytesOf_member, htext, readMembers_succ_iff]
    exact ⟨_, name, _, _, value, _, expect_self (by decide), readString_stringChars name,
      expect_self (by decide), hvalue n (by omega),
      .inr ⟨expect_other (by decide) (by decide), expect_self (by decide), rfl⟩⟩
  | cons next members ih =>
    obtain ⟨more, hmembers⟩ := ih (List.forall_mem_cons.mp h).2
    obtain ⟨enough, hvalue⟩ := h _ List.mem_cons_self (44 :: (bytesOf (stringChars next.1 ++
      ':' :: (chars next.2 ++ membersChars members)) ++ rest)) (ends_cons (by decide))
    have htext : bytesOf (chars value ++ membersChars (next :: members)) ++ rest =
        bytesOf (chars value) ++ 44 :: (bytesOf (stringChars next.1 ++
          ':' :: (chars next.2 ++ membersChars members)) ++ rest) := by
      rw [membersChars, Text.bytesOf_append, List.append_assoc]
      rfl
    refine ⟨enough + more + 1, fun fuel hfuel => ?_⟩
    obtain ⟨n, rfl⟩ : ∃ n, fuel = n + 1 := ⟨fuel - 1, by omega⟩
    rw [bytesOf_member, htext, readMembers_succ_iff]
    exact ⟨_, name, _, _, value, _, expect_self (by decide), readString_stringChars name,
      expect_self (by decide), hvalue n (by omega),
      .inl ⟨_, _, expect_self (by decide), hmembers n (by omega), rfl⟩⟩

theorem isReadBack_array {items : List Json} (h : ∀ item ∈ items, IsReadBack depth item) :
    IsReadBack (depth + 1) (.array items) := by
  intro rest _
  cases items with
  | nil =>
    have htext : bytesOf (chars (.array [])) ++ rest = 91 :: 93 :: rest := by
      rw [chars]
      rfl
    exact exists_enough_of_step htext (by decide)
      ⟨0, fun _ _ => .emptyArray (expect_self (by decide))⟩
  | cons item items =>
    have htext : bytesOf (chars (.array (item :: items))) ++ rest =
        91 :: (bytesOf (chars item ++ itemsChars items) ++ rest) := by
      rw [chars]
      rfl
    obtain ⟨enough, hitems⟩ := exists_enough_items h rest
    refine exists_enough_of_step htext (by decide) ⟨enough, fun fuel hfuel => ?_⟩
    obtain ⟨v, more, hvalue, -⟩ := readItems_succ_iff.mp (hitems (fuel + 1) (by omega))
    exact .array (expect_bracket_of_readValue hvalue) (hitems fuel hfuel)

theorem isReadBack_object {members : List (String × Json)}
    (hnames : (members.map Prod.fst).Pairwise (· < ·))
    (h : ∀ member ∈ members, IsReadBack depth member.2) :
    IsReadBack (depth + 1) (.object members) := by
  intro rest _
  cases members with
  | nil =>
    have htext : bytesOf (chars (.object [])) ++ rest = 123 :: 125 :: rest := by
      rw [chars]
      rfl
    exact exists_enough_of_step htext (by decide)
      ⟨0, fun _ _ => .emptyObject (expect_self (by decide))⟩
  | cons member members =>
    have htext : bytesOf (chars (.object (member :: members))) ++ rest =
        123 :: (bytesOf (stringChars member.1 ++
          ':' :: (chars member.2 ++ membersChars members)) ++ rest) := by
      rw [chars]
      rfl
    obtain ⟨enough, hmembers⟩ := exists_enough_members h rest
    refine exists_enough_of_step htext (by decide) ⟨enough, fun fuel hfuel => ?_⟩
    have hopen : expect 125 (bytesOf (stringChars member.1 ++
        ':' :: (chars member.2 ++ membersChars members)) ++ rest) = none := by
      rw [bytesOf_member]
      exact expect_other (by decide) (by decide)
    exact ofMembers_of_ascending hnames ▸ .object hopen (hmembers fuel hfuel)

theorem Exact.isReadBack {v : Json} (h : Exact depth v) : IsReadBack depth v := by
  induction h with
  | null => exact isReadBack_word (by rw [chars]; rfl) (by decide) .null
  | bool b =>
    cases b with
    | true => exact isReadBack_word (by rw [chars]; rfl) (by decide) .yes
    | false => exact isReadBack_word (by rw [chars]; rfl) (by decide) .no
  | text s => exact isReadBack_text s
  | number hlow hhigh => exact isReadBack_number hlow hhigh
  | array _ ih => exact isReadBack_array ih
  | object hnames _ ih => exact isReadBack_object hnames ih

/-- A value of whole numbers that the reader goes deep enough for is read back from its text. -/
theorem Exact.parse?_render {v : Json} (h : Exact maxDepth v) :
    parse? (Text.bytes v.render) = some v := by
  obtain ⟨enough, hread⟩ := h.isReadBack [] (fun b hb => absurd hb (by simp))
  have hvalue := readValue_fuelFor (hread enough (Nat.le_refl _))
  rw [List.append_nil] at hvalue
  rw [render, Text.bytes_ofList v.chars, parse?, hvalue]
  rfl

end Values

end AccountGate.Json
