import AccountGate.Codec.Base64
import AccountGate.Proofs.Text.Trimmed
import AccountGate.Proofs.Text.Utf8

/-!
Base64. Main statements: a text decodes to some bytes exactly when it is what they are encoded as,
with none, some or all of its padding; and texts that decode to the same bytes differ in nothing but
the blanks around them, their padding and their alphabet.
-/

namespace AccountGate.Codec.Base64

open Text (bytesOf)

variable {bs out : Bytes} {v : Nat}

section Symbols

/-- The values of the symbols that stand for some bytes. -/
def sextets : Bytes → List Nat
  | a :: b :: c :: rest =>
    a.toNat / 4 :: (a.toNat % 4 * 16 + b.toNat / 16) :: (b.toNat % 16 * 4 + c.toNat / 64) ::
      c.toNat % 64 :: sextets rest
  | [a, b] => [a.toNat / 4, a.toNat % 4 * 16 + b.toNat / 16, b.toNat % 16 * 4]
  | [a] => [a.toNat / 4, a.toNat % 4 * 16]
  | [] => []

/-- How many signs fill up the last group of symbols. -/
def padding (bs : Bytes) : Nat := (3 - bs.length % 3) % 3

theorem length_sextets (bs : Bytes) : (sextets bs).length = (4 * bs.length + 2) / 3 := by
  fun_induction sextets bs with
  | case1 a b c rest ih =>
    simp only [List.length_cons, ih]
    omega
  | case2 | case3 | case4 => simp

theorem sextets_lt (bs : Bytes) : ∀ v ∈ sextets bs, v < 64 := by
  fun_induction sextets bs with
  | case1 a b c rest ih =>
    have ha := a.toNat_lt
    have hb := b.toNat_lt
    have hc := c.toNat_lt
    simp only [List.forall_mem_cons]
    exact ⟨by omega, by omega, by omega, by omega, ih⟩
  | case2 a b =>
    have ha := a.toNat_lt
    have hb := b.toNat_lt
    simp only [List.forall_mem_cons]
    exact ⟨by omega, by omega, by omega, fun _ h => absurd h List.not_mem_nil⟩
  | case3 a =>
    have ha := a.toNat_lt
    simp only [List.forall_mem_cons]
    exact ⟨by omega, by omega, fun _ h => absurd h List.not_mem_nil⟩
  | case4 => exact fun _ h => absurd h List.not_mem_nil

/-- Symbols first, then the padding. -/
theorem encodeChars_eq (alphabet : Alphabet) (bs : Bytes) : encodeChars alphabet bs =
    (sextets bs).map (symbol alphabet) ++ padSymbols alphabet (padding bs) := by
  fun_induction encodeChars alphabet bs with
  | case1 a b c rest ih =>
    have hpadding : padding (a :: b :: c :: rest) = padding rest := by
      simp only [padding, List.length_cons]
      omega
    rw [hpadding, ih]
    rfl
  | case2 | case3 => rfl
  | case4 => cases alphabet <;> rfl

/-- The byte of a symbol of the standard alphabet. -/
def code (v : Nat) : UInt8 := .ofNat (symbol .standard v).toNat

/-- The characters that symbols are. -/
def isSymbol (c : Char) : Bool := c.isAlphanum || ['+', '/', '-', '_'].contains c

/-- All that is read off the table of symbols. -/
theorem symbol_table (alphabet : Alphabet) : ∀ v < 64,
    String.utf8EncodeChar (symbol .standard v) = [code v] ∧ value? (code v) = some v ∧
    toStandard (symbol alphabet v) = symbol .standard v ∧
    isSymbol (symbol alphabet v) = true ∧ Text.isBlank (symbol alphabet v) = false := by
  cases alphabet <;> decide

theorem utf8EncodeChar_symbol (h : v < 64) :
    String.utf8EncodeChar (symbol .standard v) = [code v] :=
  (symbol_table .standard v h).1

theorem value?_code (h : v < 64) : value? (code v) = some v := (symbol_table .standard v h).2.1

theorem toStandard_symbol (alphabet : Alphabet) (h : v < 64) :
    toStandard (symbol alphabet v) = symbol .standard v :=
  (symbol_table alphabet v h).2.2.1

theorem isSymbol_symbol (alphabet : Alphabet) (h : v < 64) :
    isSymbol (symbol alphabet v) = true :=
  (symbol_table alphabet v h).2.2.2.1

theorem symbol_ne (alphabet : Alphabet) (h : v < 64) {c : Char} (hc : isSymbol c = false) :
    symbol alphabet v ≠ c := by
  rintro rfl
  exact Bool.false_ne_true (hc.symm.trans (isSymbol_symbol alphabet h))

theorem bytesOf_symbols {vs : List Nat} (h : ∀ v ∈ vs, v < 64) :
    bytesOf (vs.map (symbol .standard)) = vs.map code := by
  induction vs with
  | nil => rfl
  | cons v vs ih =>
    obtain ⟨hv, hvs⟩ := List.forall_mem_cons.mp h
    rw [List.map_cons, List.map_cons, bytesOf, List.flatMap_cons, utf8EncodeChar_symbol hv,
      ← bytesOf, ih hvs]
    rfl

theorem bytesOf_pad (n : Nat) : bytesOf (List.replicate n '=') = List.replicate n padByte := by
  induction n with
  | zero => rfl
  | succ n ih =>
    rw [List.replicate_succ, List.replicate_succ, bytesOf, List.flatMap_cons, ← bytesOf, ih]
    rfl

theorem value?_padByte : value? padByte = none := by decide

set_option maxRecDepth 8000 in
/-- A byte has a value if it is the symbol of that value. -/
theorem value?_eq_some_iff {b : UInt8} : value? b = some v ↔ v < 64 ∧ b = code v := by
  constructor
  · have hall : ∀ b, (value? b).all (fun v => decide (v < 64 ∧ b = code v)) = true :=
      Text.forall_byte (P := fun b => (value? b).all (fun v => decide (v < 64 ∧ b = code v)) = true)
        (by decide)
    intro h
    have hb := hall b
    rw [h] at hb
    exact of_decide_eq_true hb
  · rintro ⟨hv, rfl⟩
    exact value?_code hv

end Symbols

section Groups

/-- The first byte of symbols and their padding is a symbol, or all is padding. -/
theorem cons_eq_symbols_iff {b : UInt8} {rest : Bytes} {vs : List Nat} {n : Nat}
    (hvs : ∀ v ∈ vs, v < 64) : b :: rest = vs.map code ++ List.replicate n padByte ↔
      (∃ v more, vs = v :: more ∧ value? b = some v ∧
        rest = more.map code ++ List.replicate n padByte) ∨
      (∃ m, vs = [] ∧ n = m + 1 ∧ b = padByte ∧ rest = List.replicate m padByte) := by
  cases vs with
  | nil =>
    cases n with
    | zero => simp
    | succ m => simp [List.replicate_succ]
  | cons v more =>
    obtain ⟨hv, -⟩ := List.forall_mem_cons.mp hvs
    simp [value?_eq_some_iff, hv]

/-- The symbols of a group up to its padding, which stands behind two of them or more. -/
theorem exists_go_eq_ok_iff {offset index : Nat} {values vs : List Nat} {last : UInt8} :
    (∃ last', groupValues.go offset index values last bs = .ok (vs, last')) ↔
      ∃ more n, vs = values ++ more ∧ (∀ v ∈ more, v < 64) ∧
        bs = more.map code ++ List.replicate n padByte ∧ (0 < n → 2 ≤ index + more.length) := by
  induction bs generalizing index values last with
  | nil =>
    rw [groupValues.go]
    constructor
    · rintro ⟨last', h⟩
      obtain ⟨rfl, -⟩ := Prod.mk.inj (Except.ok.inj h)
      exact ⟨[], 0, by simp, by simp, rfl, by simp⟩
    · rintro ⟨more, n, rfl, -, hbs, -⟩
      obtain ⟨hmore, -⟩ := List.append_eq_nil_iff.mp hbs.symm
      exact ⟨last, by rw [List.map_eq_nil_iff.mp hmore, List.append_nil]⟩
  | cons b rest ih =>
    rw [groupValues.go]
    constructor
    · rintro ⟨last', h⟩
      split at h
      · next hpad =>
        split at h
        · exact absurd h (by simp)
        split at h
        · next hindex hall =>
          -- Here the padding begins, and there is nothing else any more.
          obtain ⟨rfl, -⟩ := Prod.mk.inj (Except.ok.inj h)
          have hrest : rest = List.replicate rest.length padByte :=
            List.eq_replicate_of_mem fun c hc => by simpa using List.all_eq_true.mp hall c hc
          refine ⟨[], rest.length + 1, by simp, by simp, ?_, fun _ => by simp; omega⟩
          exact (cons_eq_symbols_iff (by simp)).mpr (.inr ⟨_, rfl, rfl, hpad, hrest⟩)
        · exact absurd h (by simp)
      split at h
      · exact absurd h (by simp)
      · next v hv =>
        obtain ⟨more, n, rfl, hmore, hrest, hindex⟩ := ih.mp ⟨last', h⟩
        have hmore' : ∀ w ∈ v :: more, w < 64 :=
          List.forall_mem_cons.mpr ⟨(value?_eq_some_iff.mp hv).1, hmore⟩
        refine ⟨v :: more, n, by simp, hmore',
          (cons_eq_symbols_iff hmore').mpr (.inl ⟨v, more, rfl, hv, hrest⟩), fun hn => ?_⟩
        have := hindex hn
        rw [List.length_cons]
        omega
    · rintro ⟨more, n, rfl, hmore, hbs, hindex⟩
      rcases (cons_eq_symbols_iff hmore).mp hbs with
        ⟨v, more, rfl, hv, hrest⟩ | ⟨m, rfl, rfl, hpad, hrest⟩
      · rw [if_neg fun hpad => by rw [hpad, value?_padByte] at hv; exact absurd hv (by simp), hv]
        refine ih.mpr ⟨more, n, by simp, (List.forall_mem_cons.mp hmore).2, hrest, fun hn => ?_⟩
        have := hindex hn
        rw [List.length_cons] at this
        omega
      · have htwo : 2 ≤ index := hindex (by omega)
        rw [if_pos hpad, if_neg (by omega), if_pos (by simp [hrest])]
        exact ⟨last, by simp⟩

theorem ofNat_eq_self (b : UInt8) {n : Nat} (h : n = b.toNat) : UInt8.ofNat n = b := by
  rw [h, UInt8.ofNat_toNat]

/-- Three bytes are put together from their symbols. -/
theorem ofNat_sextets (a b c : UInt8) :
    UInt8.ofNat (a.toNat / 4 * 4 + (a.toNat % 4 * 16 + b.toNat / 16) / 16) = a ∧
    UInt8.ofNat ((a.toNat % 4 * 16 + b.toNat / 16) % 16 * 16 +
      (b.toNat % 16 * 4 + c.toNat / 64) / 4) = b ∧
    UInt8.ofNat ((b.toNat % 16 * 4 + c.toNat / 64) % 4 * 64 + c.toNat % 64) = c := by
  have ha := a.toNat_lt
  have hb := b.toNat_lt
  have hc := c.toNat_lt
  exact ⟨ofNat_eq_self a (by omega), ofNat_eq_self b (by omega), ofNat_eq_self c (by omega)⟩

theorem padding_cons (a b c : UInt8) (rest : Bytes) :
    padding (a :: b :: c :: rest) = padding rest := by
  simp only [padding, List.length_cons]
  omega

/-- Four symbols are those of the three bytes that they are put together to. -/
theorem sextets_ofNat {x y z w : Nat} (hx : x < 64) (hy : y < 64) (hz : z < 64) (hw : w < 64)
    (bs : Bytes) :
    sextets (.ofNat (x * 4 + y / 16) :: .ofNat (y % 16 * 16 + z / 4) :: .ofNat (z % 4 * 64 + w) ::
      bs) = x :: y :: z :: w :: sextets bs := by
  have ha := Text.toNat_ofNat_byte (show x * 4 + y / 16 < 256 by omega)
  have hb := Text.toNat_ofNat_byte (show y % 16 * 16 + z / 4 < 256 by omega)
  have hc := Text.toNat_ofNat_byte (show z % 4 * 64 + w < 256 by omega)
  simp only [sextets, ha, hb, hc, List.cons.injEq, and_true]
  omega

/-- The bytes that two, three or four symbols stand for. -/
theorem closing_eq_ok_iff {last : UInt8} {offset : Nat} {vs : List Nat} (hvs : ∀ v ∈ vs, v < 64) :
    closing last offset vs = .ok out ↔ vs = sextets out ∧ out ≠ [] ∧ out.length ≤ 3 := by
  constructor
  · intro h
    rw [closing.eq_def] at h
    split at h
    · next x y =>
      simp only [List.forall_mem_cons] at hvs
      split at h
      · next hy =>
        obtain rfl := Except.ok.inj h
        have ha := Text.toNat_ofNat_byte (show x * 4 + y / 16 < 256 by omega)
        refine ⟨?_, by simp, by simp⟩
        simp only [sextets, ha, List.cons.injEq, and_true]
        omega
      · exact absurd h (by simp)
    · next x y z =>
      simp only [List.forall_mem_cons] at hvs
      split at h
      · next hz =>
        obtain rfl := Except.ok.inj h
        have ha := Text.toNat_ofNat_byte (show x * 4 + y / 16 < 256 by omega)
        have hb := Text.toNat_ofNat_byte (show y % 16 * 16 + z / 4 < 256 by omega)
        refine ⟨?_, by simp, by simp⟩
        simp only [sextets, ha, hb, List.cons.injEq, and_true]
        omega
      · exact absurd h (by simp)
    · next x y z w =>
      simp only [List.forall_mem_cons] at hvs
      obtain rfl := Except.ok.inj h
      exact ⟨(sextets_ofNat hvs.1 hvs.2.1 hvs.2.2.1 hvs.2.2.2.1 []).symm, by simp, by simp⟩
    · exact absurd h (by simp)
  · rintro ⟨rfl, hne, hlength⟩
    match out with
    | [a] =>
      have ha := a.toNat_lt
      rw [sextets, closing, if_pos (by omega), ofNat_eq_self a (by omega)]
    | [a, b] =>
      have ha := a.toNat_lt
      have hb := b.toNat_lt
      rw [sextets, closing, if_pos (by omega), ofNat_eq_self a (by omega),
        ofNat_eq_self b (by omega)]
    | [a, b, c] =>
      obtain ⟨ha, hb, hc⟩ := ofNat_sextets a b c
      simp only [sextets, closing]
      rw [ha, hb, hc]

theorem decodeLast_eq_ok_iff {offset : Nat} : decodeLast offset bs = .ok out ↔
    out ≠ [] ∧ out.length ≤ 3 ∧
      ∃ n, bs = (sextets out).map code ++ List.replicate n padByte := by
  have hgroup {vs : List Nat} : (∃ last, groupValues offset bs = .ok (vs, last)) ↔ _ :=
    exists_go_eq_ok_iff
  rw [decodeLast]
  constructor
  · intro h
    cases hvalues : groupValues offset bs with
    | error e => rw [hvalues] at h; exact absurd h (by simp)
    | ok p =>
      obtain ⟨vs, last⟩ := p
      rw [hvalues] at h
      obtain ⟨more, n, rfl, hmore, hbs, -⟩ := hgroup.mp ⟨last, hvalues⟩
      obtain ⟨hvs, hne, hlength⟩ := (closing_eq_ok_iff hmore).mp h
      exact ⟨hne, hlength, n, hvs ▸ hbs⟩
  · rintro ⟨hne, hlength, n, hbs⟩
    have htwo : 2 ≤ (sextets out).length := by
      have := List.length_pos_iff.mpr hne
      rw [length_sextets]
      omega
    obtain ⟨last, hvalues⟩ :=
      hgroup.mpr ⟨sextets out, n, rfl, sextets_lt out, hbs, fun _ => by omega⟩
    rw [hvalues]
    exact (closing_eq_ok_iff (sextets_lt out)).mpr ⟨rfl, hne, hlength⟩

theorem bind_value_eq_ok_iff {offset : Nat} {b : UInt8} {f : Nat → Except Fault Bytes} :
    value offset b >>= f = .ok out ↔ ∃ v, value? b = some v ∧ f v = .ok out := by
  rw [value]
  cases value? b <;> simp [bind, Except.bind]

theorem sextets_eq_nil_iff : sextets bs = [] ↔ bs = [] := by
  rw [← List.length_eq_zero_iff, length_sextets, ← List.length_eq_zero_iff]
  omega

/-- More than four symbols and signs stand for more than three bytes. -/
theorem exists_three_of_length {n : Nat} (hn : n ≤ padding bs)
    (h : 4 < (sextets bs).length + n) : ∃ a b c rest, bs = a :: b :: c :: rest := by
  rw [length_sextets, padding] at *
  match bs with
  | a :: b :: c :: rest => exact ⟨a, b, c, rest, rfl⟩
  | [a, b] | [a] | [] => simp at *; omega

/-- Whole groups, and then the padding of the last one as far as it is there. -/
theorem decodeGroups_eq_ok_iff {acc : Bytes} {offset : Nat} : decodeGroups acc offset bs = .ok out ↔
    ∃ tail n, out = acc.reverse ++ tail ∧ n ≤ padding tail ∧
      bs = (sextets tail).map code ++ List.replicate n padByte := by
  fun_induction decodeGroups acc offset bs with
  | case1 acc offset a b c d e rest ih =>
    simp only [bind_value_eq_ok_iff, ih]
    constructor
    · rintro ⟨x, hx, y, hy, z, hz, w, hw, tail, n, rfl, hn, hrest⟩
      obtain ⟨hx', rfl⟩ := value?_eq_some_iff.mp hx
      obtain ⟨hy', rfl⟩ := value?_eq_some_iff.mp hy
      obtain ⟨hz', rfl⟩ := value?_eq_some_iff.mp hz
      obtain ⟨hw', rfl⟩ := value?_eq_some_iff.mp hw
      refine ⟨.ofNat (x * 4 + y / 16) :: .ofNat (y % 16 * 16 + z / 4) :: .ofNat (z % 4 * 64 + w) ::
        tail, n, by simp, (padding_cons _ _ _ tail).symm ▸ hn, ?_⟩
      rw [sextets_ofNat hx' hy' hz' hw', hrest]
      rfl
    · rintro ⟨tail, n, rfl, hn, hbs⟩
      have hlength := congrArg List.length hbs
      simp only [List.length_cons, List.length_append, List.length_map, List.length_replicate]
        at hlength
      obtain ⟨p, q, r, tail, rfl⟩ := exists_three_of_length hn (by omega)
      have hcode := hbs
      simp only [sextets, List.map_cons, List.cons_append, List.cons.injEq] at hcode
      obtain ⟨rfl, rfl, rfl, rfl, hrest⟩ := hcode
      have hlt := sextets_lt (p :: q :: r :: tail)
      simp only [sextets, List.forall_mem_cons] at hlt
      refine ⟨_, value?_eq_some_iff.mpr ⟨hlt.1, rfl⟩, _, value?_eq_some_iff.mpr ⟨hlt.2.1, rfl⟩, _,
        value?_eq_some_iff.mpr ⟨hlt.2.2.1, rfl⟩, _, value?_eq_some_iff.mpr ⟨hlt.2.2.2.1, rfl⟩,
        tail, n, ?_, padding_cons p q r tail ▸ hn, hrest⟩
      obtain ⟨hp, hq, hr⟩ := ofNat_sextets p q r
      rw [hp, hq, hr]
      simp
  | case2 acc =>
    constructor
    · intro h
      exact ⟨[], 0, by rw [List.append_nil, Except.ok.inj h], Nat.zero_le _, rfl⟩
    · rintro ⟨tail, n, rfl, -, hbs⟩
      obtain ⟨htail, -⟩ := List.append_eq_nil_iff.mp hbs.symm
      rw [sextets_eq_nil_iff.mp (List.map_eq_nil_iff.mp htail), List.append_nil]
  | case3 acc offset bs hlong hnil =>
    have hlast {tail : Bytes} : decodeLast offset bs = .ok tail ↔ _ := decodeLast_eq_ok_iff
    have hshort : bs.length ≤ 4 := by
      match bs, hlong with
      | [], _ | [_], _ | [_, _], _ | [_, _, _], _ | [_, _, _, _], _ => simp
      | a :: b :: c :: d :: e :: rest, hlong => exact absurd rfl (hlong a b c d e rest)
    constructor
    · intro h
      cases htail : decodeLast offset bs with
      | error e => rw [htail] at h; exact absurd h (by simp [bind, Except.bind])
      | ok tail =>
        rw [htail] at h
        obtain ⟨hne, hthree, n, hbs⟩ := hlast.mp htail
        refine ⟨tail, n, (Except.ok.inj h).symm, ?_, hbs⟩
        have hlength := congrArg List.length hbs
        have hpos := List.length_pos_iff.mpr hne
        rw [List.length_append, List.length_map, length_sextets, List.length_replicate] at hlength
        rw [padding]
        have hcases : tail.length = 1 ∨ tail.length = 2 ∨ tail.length = 3 := by omega
        rcases hcases with hone | htwo | hthree <;> omega
    · rintro ⟨tail, n, rfl, hn, hbs⟩
      have hlength := congrArg List.length hbs
      rw [List.length_append, List.length_map, length_sextets, List.length_replicate] at hlength
      have hne : tail ≠ [] := by
        rintro rfl
        obtain rfl : n = 0 := Nat.le_zero.mp hn
        exact hnil hbs
      rw [hlast.mpr ⟨hne, by omega, n, hbs⟩]
      rfl

/-- A stray byte after whole groups is no symbol of anything. -/
theorem decodeBytes_eq_ok_iff : decodeBytes bs = .ok out ↔
    ∃ n, n ≤ padding out ∧ bs = (sextets out).map code ++ List.replicate n padByte := by
  have hgroups : decodeGroups [] 0 bs = .ok out ↔
      ∃ n, n ≤ padding out ∧ bs = (sextets out).map code ++ List.replicate n padByte := by
    rw [decodeGroups_eq_ok_iff]
    constructor
    · rintro ⟨tail, n, rfl, h⟩
      exact ⟨n, h⟩
    · rintro ⟨n, h⟩
      exact ⟨out, n, rfl, h⟩
  rw [decodeBytes]
  split
  · next fault hstray =>
    refine iff_of_false (by simp) ?_
    rintro ⟨n, hn, hbs⟩
    have hone : bs.length % 4 = 1 := by
      rw [strayByte?] at hstray
      split at hstray
      · assumption
      · exact absurd hstray (by simp)
    have hlength := congrArg List.length hbs
    rw [List.length_append, List.length_map, length_sextets, List.length_replicate] at hlength
    rw [padding] at hn
    have hcases : out.length % 3 = 0 ∨ out.length % 3 = 1 ∨ out.length % 3 = 2 := by omega
    rcases hcases with h | h | h <;> rw [h] at hn <;> omega
  · exact hgroups

end Groups

section Texts

variable {s : String}

/-- The symbols for some bytes, and signs behind them. -/
def spelled (alphabet : Alphabet) (bs : Bytes) (signs : Nat) : String :=
  String.ofList ((sextets bs).map (symbol alphabet) ++ List.replicate signs '=')

theorem encode_eq_spelled (bs : Bytes) : encode bs = spelled .standard bs (padding bs) := by
  rw [encode, encodeChars_eq]
  rfl

theorem encodeUrl_eq_spelled (bs : Bytes) : encodeUrl bs = spelled .url bs 0 := by
  rw [encodeUrl, encodeChars_eq]
  rfl

theorem bytes_spelled (bs : Bytes) (signs : Nat) : Text.bytes (spelled .standard bs signs) =
    (sextets bs).map code ++ List.replicate signs padByte := by
  rw [spelled, Text.bytes_ofList, Text.bytesOf_append, bytesOf_symbols (sextets_lt bs), bytesOf_pad]

theorem decodeBytes_encodeChars (bs : Bytes) :
    decodeBytes (bytesOf (encodeChars .standard bs)) = .ok bs := by
  rw [decodeBytes_eq_ok_iff]
  refine ⟨padding bs, Nat.le_refl _, ?_⟩
  rw [encodeChars_eq, Text.bytesOf_append, bytesOf_symbols (sextets_lt bs)]
  exact congrArg _ (bytesOf_pad _)

theorem decode_ofList (cs : List Char) :
    decode (String.ofList cs) = decodeBytes (bytesOf (Text.trimChars cs)) := by
  rw [decode, Text.trim_ofList, Text.bytes_ofList]

theorem decode_eq_ok_iff : decode s = .ok bs ↔
    ∃ n, n ≤ padding bs ∧ Text.trim s = spelled .standard bs n := by
  rw [decode, decodeBytes_eq_ok_iff]
  simp only [← bytes_spelled, Text.bytes_injective.eq_iff]

/-- The blanks around it aside, this is the encoding of some bytes with none, some or all of its
padding. -/
def Spells (bs : Bytes) (s : String) : Prop :=
  ∃ n, encode bs = Text.trim s ++ String.ofList (List.replicate n '=')

/-- No symbol is the sign that pads. -/
theorem pad_notMem_symbols (alphabet : Alphabet) (bs : Bytes) :
    '=' ∉ (sextets bs).map (symbol alphabet) := by
  rw [List.mem_map]
  rintro ⟨v, hv, heq⟩
  exact symbol_ne alphabet (sextets_lt bs v hv) (by decide) heq

theorem spells_iff : Spells bs s ↔ ∃ n, n ≤ padding bs ∧ Text.trim s = spelled .standard bs n := by
  have hlist (n : Nat) : encode bs = Text.trim s ++ String.ofList (List.replicate n '=') ↔
      (sextets bs).map (symbol .standard) ++ List.replicate (padding bs) '=' =
        (Text.trim s).toList ++ List.replicate n '=' := by
    rw [encode_eq_spelled, spelled, ← String.toList_inj, String.toList_append, String.toList_ofList,
      String.toList_ofList]
  have htext (n : Nat) : Text.trim s = spelled .standard bs n ↔
      (Text.trim s).toList = (sextets bs).map (symbol .standard) ++ List.replicate n '=' := by
    rw [spelled, ← String.toList_inj, String.toList_ofList]
  simp only [Spells, hlist, htext]
  constructor
  · rintro ⟨n, h⟩
    rcases List.append_eq_append_iff.mp h with ⟨signs, htrim, hsigns⟩ | ⟨symbols, hmore, hsigns⟩
    · obtain ⟨hlength, hsigns, -⟩ := List.append_eq_replicate_iff.mp hsigns.symm
      exact ⟨signs.length, by omega, by rw [htrim, hsigns, List.length_replicate]⟩
    · -- No symbol is cut off, as none is a sign.
      have hnone : symbols = [] := by
        refine List.eq_nil_iff_forall_not_mem.mpr fun c hc => ?_
        have hsign : c ∈ List.replicate n '=' := hsigns ▸ List.mem_append_left _ hc
        obtain rfl := List.eq_of_mem_replicate hsign
        exact pad_notMem_symbols .standard bs (hmore ▸ List.mem_append_right _ hc)
      exact ⟨0, Nat.zero_le _, by rw [hmore, hnone]; simp⟩
  · rintro ⟨n, hn, htrim⟩
    refine ⟨padding bs - n, ?_⟩
    rw [htrim, List.append_assoc, List.replicate_append_replicate, Nat.add_sub_cancel' hn]

/-- A text with the symbols of the standard alphabet in place of those of the other one. -/
def standardized (s : String) : String := String.ofList (s.toList.map toStandard)

theorem isBlank_toStandard (c : Char) : Text.isBlank (toStandard c) = Text.isBlank c := by
  unfold toStandard
  split <;> rfl

theorem trimChars_map_toStandard (cs : List Char) :
    Text.trimChars (cs.map toStandard) = (Text.trimChars cs).map toStandard := by
  have hdrop (cs : List Char) :
      (cs.map toStandard).dropWhile Text.isBlank = (cs.dropWhile Text.isBlank).map toStandard := by
    rw [List.dropWhile_map]
    congr 2
    funext c
    exact isBlank_toStandard c
  rw [Text.trimChars, Text.trimStart, hdrop, Text.trimEnd, ← List.map_reverse, hdrop,
    ← List.map_reverse]
  rfl

/-- Of either alphabet, a text is read as the one of the standard alphabet. -/
theorem decodeUrl_eq (s : String) : decodeUrl s = decode (standardized s) := by
  rw [decodeUrl, standardized, decode_ofList, trimChars_map_toStandard]

theorem trim_standardized (s : String) :
    Text.trim (standardized s) = standardized (Text.trim s) := by
  rw [standardized, Text.trim_ofList, trimChars_map_toStandard, standardized, Text.trim,
    String.toList_ofList]

theorem standardized_spelled (alphabet : Alphabet) (bs : Bytes) (signs : Nat) :
    standardized (spelled alphabet bs signs) = spelled .standard bs signs := by
  have hsymbols : (sextets bs).map (toStandard ∘ symbol alphabet) =
      (sextets bs).map (symbol .standard) :=
    List.map_congr_left fun v hv => toStandard_symbol alphabet (sextets_lt bs v hv)
  rw [standardized, spelled, String.toList_ofList, List.map_append, List.map_map, hsymbols,
    List.map_replicate]
  rfl

/-- What holds of the sign that pads and of every symbol holds of every character written. -/
theorem forall_mem_spelled {alphabet : Alphabet} {p : Char → Prop} (hpad : p '=')
    (hsymbol : ∀ v < 64, p (symbol alphabet v)) (bs : Bytes) (signs : Nat) :
    ∀ c ∈ (spelled alphabet bs signs).toList, p c := by
  intro c hc
  rw [spelled, String.toList_ofList, List.mem_append] at hc
  rcases hc with hc | hc
  · obtain ⟨v, hv, rfl⟩ := List.mem_map.mp hc
    exact hsymbol v (sextets_lt bs v hv)
  · rwa [List.eq_of_mem_replicate hc]

/-- A text of symbols and signs has no blanks around it. -/
theorem trim_spelled (alphabet : Alphabet) (bs : Bytes) (signs : Nat) :
    Text.trim (spelled alphabet bs signs) = spelled alphabet bs signs := by
  have hblank := forall_mem_spelled (p := fun c => Text.isBlank c = false) (by decide)
    (fun v hv => (symbol_table alphabet v hv).2.2.2.2) bs signs
  rw [Text.trim, Text.trimChars_eq_self hblank, String.ofList_toList]

theorem decode_spelled {signs : Nat} (h : signs ≤ padding bs) :
    decode (spelled .standard bs signs) = .ok bs :=
  decode_eq_ok_iff.mpr ⟨signs, h, trim_spelled .standard bs signs⟩

/-- Either alphabet is read, with the padding and without. -/
theorem decodeUrl_spelled (alphabet : Alphabet) {signs : Nat} (h : signs ≤ padding bs) :
    decodeUrl (spelled alphabet bs signs) = .ok bs := by
  rw [decodeUrl_eq, standardized_spelled, decode_spelled h]

theorem toStandard_eq_self {c : Char} (hminus : c ≠ '-') (hline : c ≠ '_') : toStandard c = c := by
  unfold toStandard
  split
  · exact absurd rfl hminus
  · exact absurd rfl hline
  · rfl

theorem toStandard_ne (c : Char) : toStandard c ≠ '-' ∧ toStandard c ≠ '_' := by
  unfold toStandard
  split
  · decide
  · decide
  · next hminus hline => exact ⟨hminus, hline⟩

/-- The decoder of the standard alphabet takes the symbols that the other one has in common with it. -/
theorem decode_encodeUrl_iff : decode (encodeUrl bs) = .ok bs ↔
    '-' ∉ (encodeUrl bs).toList ∧ '_' ∉ (encodeUrl bs).toList := by
  have hurl : ∀ v < 64, symbol .url v ≠ '-' ∧ symbol .url v ≠ '_' →
      symbol .url v = symbol .standard v := by
    rintro v hv ⟨hminus, hline⟩
    rw [← toStandard_symbol .url hv, toStandard_eq_self hminus hline]
  have hstandard : ∀ v < 64, symbol .standard v ≠ '-' ∧ symbol .standard v ≠ '_' :=
    fun v hv => toStandard_symbol .standard hv ▸ toStandard_ne (symbol .standard v)
  rw [encodeUrl_eq_spelled]
  constructor
  · intro h
    obtain ⟨n, -, htrim⟩ := decode_eq_ok_iff.mp h
    rw [trim_spelled] at htrim
    have hnone := forall_mem_spelled (p := fun c => c ≠ '-' ∧ c ≠ '_') (by decide) hstandard bs n
    rw [htrim]
    exact ⟨fun hc => (hnone _ hc).1 rfl, fun hc => (hnone _ hc).2 rfl⟩
  · rintro ⟨hminus, hline⟩
    have hsame : spelled .url bs 0 = spelled .standard bs 0 := by
      rw [spelled, String.toList_ofList, List.replicate_zero, List.append_nil] at hminus hline
      rw [spelled, spelled]
      congr 2
      refine List.map_congr_left fun v hv => hurl v (sextets_lt bs v hv) ⟨?_, ?_⟩
      · exact fun heq => hminus (heq ▸ List.mem_map_of_mem hv)
      · exact fun heq => hline (heq ▸ List.mem_map_of_mem hv)
    rw [hsame, decode_spelled (Nat.zero_le _)]

def decodeIn : Alphabet → String → Except Fault Bytes
  | .standard => decode
  | .url => decodeUrl

/-- A text without the blanks around it and its padding, in the standard alphabet. -/
def core (s : String) : String := Text.trimEndOf '=' (standardized (Text.trim s))

/-- What is decoded are the symbols of the result. -/
theorem core_of_decodeIn {alphabet : Alphabet} (h : decodeIn alphabet s = .ok bs) :
    core s = spelled .standard bs 0 := by
  have hspelled : ∃ n, standardized (Text.trim s) = spelled .standard bs n := by
    cases alphabet with
    | standard =>
      obtain ⟨n, -, htrim⟩ := decode_eq_ok_iff.mp h
      exact ⟨n, by rw [htrim, standardized_spelled]⟩
    | url =>
      obtain ⟨n, -, htrim⟩ := decode_eq_ok_iff.mp ((decodeUrl_eq s).symm.trans h)
      exact ⟨n, by rw [← trim_standardized, htrim]⟩
  obtain ⟨n, hn⟩ := hspelled
  rw [core, hn, Text.trimEndOf_eq_iff, spelled, spelled, String.toList_ofList, String.toList_ofList,
    List.replicate_zero, List.append_nil]
  refine ⟨fun hend => ?_, n, rfl⟩
  exact pad_notMem_symbols .standard bs (hend.subset (List.mem_singleton_self _))

/-- A text decodes exactly to the bytes that it spells; the decoder of the URL alphabet takes both
alphabets, so that it inverts both encoders, and the other one only where no symbol of the URL
alphabet alone is met. Texts for the same bytes have the same core. -/
theorem decoders_read_spellings (s : String) (bs : Bytes) :
    (decode s = .ok bs ↔ Spells bs s) ∧
    decodeUrl s = decode (standardized s) ∧
    decode (encode bs) = .ok bs ∧ decodeUrl (encode bs) = .ok bs ∧ decodeUrl (encodeUrl bs) = .ok bs ∧
    (decode (encodeUrl bs) = .ok bs ↔ '-' ∉ (encodeUrl bs).toList ∧ '_' ∉ (encodeUrl bs).toList) ∧
    ∀ t alphabet alphabet', decodeIn alphabet s = .ok bs → decodeIn alphabet' t = .ok bs →
      core s = core t := by
  refine ⟨?spelling, decodeUrl_eq s, ?own, ?both, ?url, decode_encodeUrl_iff, ?core⟩
  case spelling => rw [decode_eq_ok_iff, spells_iff]
  case own => rw [encode_eq_spelled, decode_spelled (Nat.le_refl _)]
  case both => rw [encode_eq_spelled, decodeUrl_spelled .standard (Nat.le_refl _)]
  case url => rw [encodeUrl_eq_spelled, decodeUrl_spelled .url (Nat.zero_le _)]
  case core =>
    intro t alphabet alphabet' hs ht
    rw [core_of_decodeIn hs, core_of_decodeIn ht]

/-- The decoder of the standard alphabet does not take the other one. -/
theorem url_symbols_not_decoded :
    decode (encodeUrl [0xFB, 0xFF, 0xFE]) ≠ .ok [0xFB, 0xFF, 0xFE] := by
  rw [Ne, decode_encodeUrl_iff, encodeUrl, String.toList_ofList]
  decide

end Texts

end AccountGate.Codec.Base64
