import AccountGate.Text.Blank
import AccountGate.Text.Utf8

/-!
Texts and their bytes. Main statements: two texts with the same UTF-8 bytes are the same text; what a
text writes is read back, by the strict reader and by the one that takes anything; and only nothing
reads as the empty text.
-/

namespace AccountGate.Text

variable {n : Nat} {rest : Bytes}

theorem bytesOf_injective : Function.Injective bytesOf := by
  intro cs ds h
  have hb : cs.utf8Encode = ds.utf8Encode := congrArg List.toByteArray h
  have hs : String.ofList cs = String.ofList ds := by
    apply String.toByteArray_inj.mp
    simpa only [String.toByteArray_ofList] using hb
  exact String.ofList_injective hs

theorem bytes_injective : Function.Injective bytes := by
  intro s t h
  exact String.toList_injective (bytesOf_injective h)

theorem bytesOf_append (cs ds : List Char) : bytesOf (cs ++ ds) = bytesOf cs ++ bytesOf ds := by
  simp [bytesOf]

theorem bytes_append (s t : String) : bytes (s ++ t) = bytes s ++ bytes t := by
  rw [bytes, String.toList_append, bytesOf_append, bytes, bytes]

theorem bytes_ofList (cs : List Char) : bytes (String.ofList cs) = bytesOf cs := by
  rw [bytes, String.toList_ofList]

theorem trim_ofList (cs : List Char) : trim (String.ofList cs) = String.ofList (trimChars cs) := by
  rw [trim, String.toList_ofList]

/-- A text of blanks only trims to the empty text. -/
theorem trim_eq_empty {s : String} (h : (trim s).isEmpty) : trim s = "" :=
  String.isEmpty_iff.mp h

/-- What holds of each of the numbers of bytes holds of all bytes. -/
theorem forall_byte {P : UInt8 → Prop} (h : ∀ n < 256, P (.ofNat n)) (b : UInt8) : P b := by
  have hb := h b.toNat b.toNat_lt
  rwa [UInt8.ofNat_toNat] at hb

theorem toNat_ofNat_byte (h : n < 256) : (UInt8.ofNat n).toNat = n := UInt8.toNat_ofNat_of_lt' h

/-- A byte below 128 is written by its own character only. -/
theorem toNat_of_mem_encodeChar {c : Char} {b : UInt8} (h : b ∈ String.utf8EncodeChar c)
    (hb : b.toNat < 128) : c.toNat = b.toNat := by
  have hbyte {n : Nat} (hn : n < 256) (heq : b = .ofNat n) : b.toNat = n := by
    rw [heq, toNat_ofNat_byte hn]
  change c.val.toNat = b.toNat
  rw [String.utf8EncodeChar] at h
  generalize c.val.toNat = v at h
  split at h
  · rw [hbyte (by omega) (List.mem_singleton.mp h)]
  · exfalso
    split at h
    · simp only [List.mem_cons, List.not_mem_nil, or_false] at h
      rcases h with h | h <;> have := hbyte (by omega) h <;> omega
    · split at h
      · simp only [List.mem_cons, List.not_mem_nil, or_false] at h
        rcases h with h | h | h <;> have := hbyte (by omega) h <;> omega
      · simp only [List.mem_cons, List.not_mem_nil, or_false] at h
        rcases h with h | h | h | h <;> have := hbyte (by omega) h <;> omega

theorem isContinuation_ofNat (h : n < 64) : isContinuation (.ofNat (n + 128)) = true := by
  have hn : (UInt8.ofNat (n + 128)).toNat = n + 128 := toNat_ofNat_byte (by omega)
  simp only [isContinuation, UInt8.le_iff_toNat_le, hn, UInt8.reduceToNat, Bool.and_eq_true,
    decide_eq_true_eq]
  omega

theorem low6_ofNat (h : n < 64) : low6 (.ofNat (n + 128)) = n := by
  rw [low6, toNat_ofNat_byte (by omega)]
  omega

theorem scan_one {a : Nat} (h : a < 128) : scan (.ofNat a) rest = .char (Char.ofNat a) 1 := by
  have ha : (UInt8.ofNat a).toNat = a := toNat_ofNat_byte (by omega)
  have hlt : UInt8.ofNat a < 0x80 := by
    rw [UInt8.lt_iff_toNat_lt, ha]
    exact h
  unfold scan
  rw [if_pos hlt, ha]

theorem scan_two {a b : Nat} (ha : 2 ≤ a) (ha' : a < 32) (hb : b < 64) :
    scan (.ofNat (a + 192)) (.ofNat (b + 128) :: rest) = .char (Char.ofNat (a * 64 + b)) 2 := by
  have hlead : (UInt8.ofNat (a + 192)).toNat = a + 192 := toNat_ofNat_byte (by omega)
  have hmod : (a + 192) % 32 = a := by omega
  simp only [scan, UInt8.lt_iff_toNat_lt, UInt8.le_iff_toNat_le, hlead, UInt8.reduceToNat,
    isContinuation_ofNat hb, low6_ofNat hb, hmod, Bool.and_eq_true, decide_eq_true_eq]
  rw [if_neg (by omega), if_pos (by omega)]
  rfl

theorem scan_three {a b c : Nat} (ha : a < 16) (hb : b < 64) (hc : c < 64)
    (hshort : a = 0 → 32 ≤ b) (hvalid : a = 13 → b < 32) :
    scan (.ofNat (a + 224)) (.ofNat (b + 128) :: .ofNat (c + 128) :: rest) =
      .char (Char.ofNat (a * 4096 + b * 64 + c)) 3 := by
  have hlead : (UInt8.ofNat (a + 224)).toNat = a + 224 := toNat_ofNat_byte (by omega)
  have hnext : (UInt8.ofNat (b + 128)).toNat = b + 128 := toNat_ofNat_byte (by omega)
  have hmod : (a + 224) % 16 = a := by omega
  have hsecond : secondOfThree (.ofNat (a + 224)) (.ofNat (b + 128)) = true := by
    simp only [secondOfThree, isContinuation_ofNat hb, beq_iff_eq, ← UInt8.toNat_inj,
      UInt8.le_iff_toNat_le, hlead, hnext, UInt8.reduceToNat]
    split
    · simp only [Bool.and_eq_true, decide_eq_true_eq]
      omega
    · split
      · simp only [Bool.and_eq_true, decide_eq_true_eq]
        omega
      · rfl
  simp only [scan, UInt8.lt_iff_toNat_lt, UInt8.le_iff_toNat_le, hlead, UInt8.reduceToNat,
    hsecond, isContinuation_ofNat hc, low6_ofNat hb, low6_ofNat hc, hmod, Bool.and_eq_true,
    decide_eq_true_eq]
  rw [if_neg (by omega), if_neg (by omega), if_pos (by omega)]
  rfl

theorem scan_four {a b c d : Nat} (ha : a ≤ 4) (hb : b < 64) (hc : c < 64) (hd : d < 64)
    (hshort : a = 0 → 16 ≤ b) (hvalid : a = 4 → b < 16) :
    scan (.ofNat (a + 240)) (.ofNat (b + 128) :: .ofNat (c + 128) :: .ofNat (d + 128) :: rest) =
      .char (Char.ofNat (a * 262144 + b * 4096 + c * 64 + d)) 4 := by
  have hlead : (UInt8.ofNat (a + 240)).toNat = a + 240 := toNat_ofNat_byte (by omega)
  have hnext : (UInt8.ofNat (b + 128)).toNat = b + 128 := toNat_ofNat_byte (by omega)
  have hmod : (a + 240) % 8 = a := by omega
  have hsecond : secondOfFour (.ofNat (a + 240)) (.ofNat (b + 128)) = true := by
    simp only [secondOfFour, isContinuation_ofNat hb, beq_iff_eq, ← UInt8.toNat_inj,
      UInt8.le_iff_toNat_le, hlead, hnext, UInt8.reduceToNat]
    split
    · simp only [Bool.and_eq_true, decide_eq_true_eq]
      omega
    · split
      · simp only [Bool.and_eq_true, decide_eq_true_eq]
        omega
      · rfl
  simp only [scan, UInt8.lt_iff_toNat_lt, UInt8.le_iff_toNat_le, hlead, UInt8.reduceToNat,
    hsecond, isContinuation_ofNat hc, isContinuation_ofNat hd, low6_ofNat hb, low6_ofNat hc,
    low6_ofNat hd, hmod, Bool.and_eq_true, decide_eq_true_eq]
  rw [if_neg (by omega), if_neg (by omega), if_neg (by omega), if_pos (by omega)]
  rfl

/-- A character is read from what it writes. -/
theorem scan_encodeChar (c : Char) : ∃ lead more, String.utf8EncodeChar c = lead :: more ∧
    ∀ rest, scan lead (more ++ rest) = .char c (more.length + 1) := by
  have hvalid : c.val.toNat < 0xD800 ∨ 0xDFFF < c.val.toNat ∧ c.val.toNat < 0x110000 := c.valid
  have hchar : Char.ofNat c.val.toNat = c := Char.ofNat_toNat c
  rw [String.utf8EncodeChar]
  generalize c.val.toNat = v at hvalid hchar
  -- The four lengths; in each the parts of the number are those that the reader puts together.
  by_cases hone : v ≤ 127
  · rw [if_pos hone]
    refine ⟨_, [], rfl, fun rest => ?_⟩
    rw [scan_one (by omega), hchar]
    rfl
  rw [if_neg hone]
  by_cases htwo : v ≤ 2047
  · rw [if_pos htwo]
    refine ⟨_, _, rfl, fun rest => ?_⟩
    have hv : v / 64 % 32 * 64 + v % 64 = v := by omega
    have hscan : scan (.ofNat (v / 64 % 32 + 192)) (.ofNat (v % 64 + 128) :: rest) = _ :=
      scan_two (by omega) (by omega) (by omega)
    rw [hv, hchar] at hscan
    exact hscan
  rw [if_neg htwo]
  by_cases hthree : v ≤ 65535
  · rw [if_pos hthree]
    refine ⟨_, _, rfl, fun rest => ?_⟩
    have hv : v / 4096 % 16 * 4096 + v / 64 % 64 * 64 + v % 64 = v := by omega
    have hscan : scan (.ofNat (v / 4096 % 16 + 224))
        (.ofNat (v / 64 % 64 + 128) :: .ofNat (v % 64 + 128) :: rest) = _ :=
      scan_three (by omega) (by omega) (by omega) (by omega) (by omega)
    rw [hv, hchar] at hscan
    exact hscan
  rw [if_neg hthree]
  refine ⟨_, _, rfl, fun rest => ?_⟩
  have hv : v / 262144 % 8 * 262144 + v / 4096 % 64 * 4096 + v / 64 % 64 * 64 + v % 64 = v := by
    omega
  have hscan : scan (.ofNat (v / 262144 % 8 + 240)) (.ofNat (v / 4096 % 64 + 128) ::
      .ofNat (v / 64 % 64 + 128) :: .ofNat (v % 64 + 128) :: rest) = _ :=
    scan_four (by omega) (by omega) (by omega) (by omega) (by omega) (by omega)
  rw [hv, hchar] at hscan
  exact hscan

theorem decodeStep_skip (acc : List Char) (bs rest : Bytes) :
    decodeStep acc bs.length (bs ++ rest) = decodeStep acc 0 rest := by
  induction bs with
  | nil => rfl
  | cons b bs ih => exact ih

theorem lossyStep_skip (acc : List Char) (bs rest : Bytes) :
    lossyStep acc bs.length (bs ++ rest) = lossyStep acc 0 rest := by
  induction bs with
  | nil => rfl
  | cons b bs ih => exact ih

theorem decodeStep_bytesOf (acc cs : List Char) :
    decodeStep acc 0 (bytesOf cs) = some (cs.reverse ++ acc) := by
  induction cs generalizing acc with
  | nil => rfl
  | cons c cs ih =>
    obtain ⟨lead, more, henc, hscan⟩ := scan_encodeChar c
    rw [bytesOf, List.flatMap_cons, henc, List.cons_append, decodeStep, hscan]
    show decodeStep (c :: acc) more.length (more ++ bytesOf cs) = _
    rw [decodeStep_skip, ih]
    simp

theorem lossyStep_bytesOf (acc cs : List Char) :
    lossyStep acc 0 (bytesOf cs) = cs.reverse ++ acc := by
  induction cs generalizing acc with
  | nil => rfl
  | cons c cs ih =>
    obtain ⟨lead, more, henc, hscan⟩ := scan_encodeChar c
    rw [bytesOf, List.flatMap_cons, henc, List.cons_append, lossyStep, hscan]
    show lossyStep (c :: acc) more.length (more ++ bytesOf cs) = _
    rw [lossyStep_skip, ih]
    simp

/-- Every text is read back. -/
theorem decode?_bytes (s : String) : decode? (bytes s) = some s := by
  rw [decode?, decodeChars?, bytes, decodeStep_bytesOf]
  simp

theorem decodeLossy_bytes (s : String) : decodeLossy (bytes s) = s := by
  rw [decodeLossy, bytes, lossyStep_bytesOf]
  simp

theorem length_le_of_decodeStep {acc cs : List Char} {skip : Nat} {bs : Bytes}
    (h : decodeStep acc skip bs = some cs) : acc.length ≤ cs.length := by
  fun_induction decodeStep acc skip bs with
  | case1 acc => exact Nat.le_of_eq (congrArg List.length (Option.some.inj h))
  | case2 acc skip b rest ih => exact ih h
  | case3 acc b rest c size hscan ih => exact Nat.le_of_succ_le (ih h)
  | case4 acc b rest size hscan => exact absurd h (by simp)

/-- Only nothing reads as the empty text. -/
theorem decode?_eq_empty_iff {bs : Bytes} : decode? bs = some "" ↔ bs = [] := by
  constructor
  · intro h
    obtain ⟨cs, hcs, hempty⟩ := Option.map_eq_some_iff.mp h
    obtain ⟨cs', hcs', rfl⟩ := Option.map_eq_some_iff.mp hcs
    have hnil : cs' = [] := by simpa using congrArg String.toList hempty
    cases bs with
    | nil => rfl
    | cons b rest =>
      rw [decodeStep] at hcs'
      split at hcs'
      · next c size hscan =>
        have hlength := length_le_of_decodeStep hcs'
        rw [hnil] at hlength
        exact absurd hlength (by simp)
      · exact absurd hcs' (by simp)
  · rintro rfl
    rfl

end AccountGate.Text
