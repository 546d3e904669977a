import AccountGate.Proofs.Codec.Base64
import AccountGate.Rsa.Pem
import Mathlib.Data.Option.Basic

/-!
Textual encoding. Main statement: the data under a label are read back from their text, whatever the
line ends in it and the blanks around it.
-/

namespace AccountGate.Rsa.Pem

open Codec.Base64 (encodeChars)
open Text (bytesOf)

variable {eol : List Char} {rest bs : Bytes}

section Marks

theorem dropPrefix?_append (front rest : Bytes) :
    dropPrefix? front (front ++ rest) = some rest := by
  have hfront : front.isPrefixOf (front ++ rest) = true :=
    List.isPrefixOf_iff_prefix.mpr (List.prefix_append front rest)
  rw [dropPrefix?, if_pos hfront, List.drop_left]

theorem dropSuffix?_append (back rest : Bytes) : dropSuffix? back (rest ++ back) = some rest := by
  have hback : back.isSuffixOf (rest ++ back) = true :=
    List.isSuffixOf_iff_suffix.mpr (List.suffix_append rest back)
  rw [dropSuffix?, if_pos hback, List.length_append, Nat.add_sub_cancel, List.take_left]

/-- A line feed, a carriage return, or both. -/
def IsLineEnd (eol : List Char) : Prop := eol = ['\n'] ∨ eol = ['\r'] ∨ eol = ['\r', '\n']

/-- No byte of a line end. -/
def IsInLine (b : UInt8) : Prop := b ≠ 10 ∧ b ≠ 13

theorem dropEol?_append (heol : IsLineEnd eol) (hrest : ∀ b ∈ rest.head?, IsInLine b) :
    dropEol? (bytesOf eol ++ rest) = some rest := by
  rcases heol with rfl | rfl | rfl
  · rfl
  · show dropEol? (13 :: rest) = _
    cases rest with
    | nil => rfl
    | cons b rest => simp [dropEol?, (hrest b rfl).1]
  · rfl

theorem dropLastEol?_append (heol : IsLineEnd eol) (hrest : ∀ b ∈ rest.getLast?, IsInLine b) :
    dropLastEol? (rest ++ bytesOf eol) = some rest := by
  have hreverse : (rest ++ bytesOf eol).reverse = (bytesOf eol).reverse ++ rest.reverse :=
    List.reverse_append
  rw [← List.head?_reverse] at hrest
  rw [dropLastEol?, hreverse, ← List.reverse_reverse rest, List.reverse_reverse rest.reverse]
  generalize rest.reverse = back at hrest
  rcases heol with rfl | rfl | rfl
  · have hfeed : (bytesOf ['\n']).reverse = [10] := rfl
    rw [hfeed, List.singleton_append]
    cases back with
    | nil => rfl
    | cons b back => simp [(hrest b rfl).2]
  · rfl
  · rfl

theorem dropLastEol?_eq_none (hrest : ∀ b ∈ rest.getLast?, IsInLine b) :
    dropLastEol? rest = none := by
  rw [← List.head?_reverse] at hrest
  rw [dropLastEol?]
  generalize rest.reverse = back at hrest
  cases back with
  | nil => rfl
  | cons b back => simp [(hrest b rfl).1, (hrest b rfl).2]

end Marks

section Lines

variable {cs front more : List Char} {lines : Bytes}

/-- A character of one byte that ends no line. -/
def IsPlainChar (c : Char) : Prop := ∃ b, String.utf8EncodeChar c = [b] ∧ IsInLine b

/-- A text with other line ends. -/
def withLineEnds (eol cs : List Char) : List Char :=
  cs.flatMap fun c => if c = '\n' then eol else [c]

theorem withLineEnds_append (eol cs ds : List Char) :
    withLineEnds eol (cs ++ ds) = withLineEnds eol cs ++ withLineEnds eol ds :=
  List.flatMap_append

theorem withLineEnds_of_notMem (h : '\n' ∉ cs) : withLineEnds eol cs = cs := by
  have hself : ∀ c ∈ cs, (if c = '\n' then eol else [c]) = [c] := by
    intro c hc
    rw [if_neg]
    rintro rfl
    exact h hc
  rw [withLineEnds, List.flatMap_congr hself, List.flatMap_singleton']

theorem withLineEnds_plain (h : ∀ c ∈ cs, IsPlainChar c) : withLineEnds eol cs = cs := by
  refine withLineEnds_of_notMem fun hmem => ?_
  obtain ⟨b, hb, hline⟩ := h _ hmem
  exact hline.1 (List.cons.inj hb).1.symm

theorem bytesOf_plain (h : ∀ c ∈ cs, IsPlainChar c) :
    (bytesOf cs).length = cs.length ∧ ∀ b ∈ bytesOf cs, IsInLine b := by
  induction cs with
  | nil => exact ⟨rfl, fun _ hb => absurd hb List.not_mem_nil⟩
  | cons c cs ih =>
    obtain ⟨⟨b, hb, hline⟩, hcs⟩ := List.forall_mem_cons.mp h
    obtain ⟨hlength, hall⟩ := ih hcs
    rw [bytesOf, List.flatMap_cons, hb, ← bytesOf]
    exact ⟨congrArg Nat.succ hlength, List.forall_mem_cons.mpr ⟨hline, hall⟩⟩

/-- The symbols are read back from their lines. -/
structure AreLinesOf (cs : List Char) (lines : Bytes) : Prop where
  length_le : cs.length ≤ lines.length
  head : ∀ b ∈ lines.head?, IsInLine b
  last : ∀ b ∈ lines.getLast?, IsInLine b
  joined : ∀ steps, cs.length < steps → joinLines steps lines = some (bytesOf cs)

/-- The last line, which may be short. -/
theorem areLinesOf_short (h : ∀ c ∈ cs, IsPlainChar c) (hshort : cs.length ≤ lineWidth) :
    AreLinesOf cs (bytesOf cs) := by
  obtain ⟨hlength, hall⟩ := bytesOf_plain h
  have hlast : ∀ b ∈ (bytesOf cs).getLast?, IsInLine b :=
    fun b hb => hall b (List.mem_of_getLast? hb)
  refine ⟨Nat.le_of_eq hlength.symm, fun b hb => hall b (List.mem_of_head? hb), hlast,
    fun steps hsteps => ?_⟩
  obtain ⟨steps, rfl⟩ : ∃ n, steps = n + 1 := ⟨steps - 1, by omega⟩
  rw [joinLines]
  split
  · next hnone => rw [List.isEmpty_iff.mp hnone]
  · next hsome =>
    rw [if_pos (hlength ▸ hshort), dropLastEol?_eq_none hlast]
    simpa using hsome

/-- A full line before others. -/
theorem AreLinesOf.cons (h : AreLinesOf more lines) (heol : IsLineEnd eol) (hmore : more ≠ [])
    (hplain : ∀ c ∈ front, IsPlainChar c) (hfull : front.length = lineWidth) :
    AreLinesOf (front ++ more) (bytesOf front ++ (bytesOf eol ++ lines)) := by
  obtain ⟨hlength, hall⟩ := bytesOf_plain hplain
  rw [hfull] at hlength
  have hpos : 0 < (bytesOf eol).length := by
    rcases heol with rfl | rfl | rfl <;> decide
  have hlines : lines ≠ [] := by
    have := List.length_pos_iff.mpr hmore
    exact List.length_pos_iff.mp (Nat.lt_of_lt_of_le this h.length_le)
  refine ⟨?length, ?head, ?last, fun steps hsteps => ?joined⟩
  case length =>
    have := h.length_le
    simp only [List.length_append, hlength, hfull]
    omega
  case head =>
    rw [List.head?_append_of_ne_nil _ (by rintro hnone; simp [hnone, lineWidth] at hlength)]
    exact fun b hb => hall b (List.mem_of_head? hb)
  case last =>
    rw [← List.append_assoc, List.getLast?_append_of_ne_nil _ hlines]
    exact h.last
  case joined =>
    rw [List.length_append, hfull, lineWidth] at hsteps
    obtain ⟨steps, rfl⟩ : ∃ n, steps = n + 1 := ⟨steps - 1, by omega⟩
    have hfront : (bytesOf front ++ (bytesOf eol ++ lines)).isEmpty = false := by
      rw [List.isEmpty_eq_false_iff, ← List.length_pos_iff, List.length_append, hlength, lineWidth]
      omega
    have hlong : ¬ (bytesOf front ++ (bytesOf eol ++ lines)).length ≤ lineWidth := by
      simp only [List.length_append, hlength]
      omega
    rw [joinLines, hfront, if_neg (by simp), if_neg hlong, ← hlength, List.drop_left,
      dropEol?_append heol h.head, List.take_left, Text.bytesOf_append]
    simp [h.joined steps (by omega)]

theorem areLinesOf_wrap (heol : IsLineEnd eol) {fuel : Nat} (h : ∀ c ∈ cs, IsPlainChar c)
    (hfuel : cs.length ≤ fuel) : AreLinesOf cs (bytesOf (withLineEnds eol (wrap fuel cs))) := by
  induction fuel generalizing cs with
  | zero =>
    obtain rfl := List.length_eq_zero_iff.mp (Nat.le_zero.mp hfuel)
    exact areLinesOf_short h (Nat.zero_le _)
  | succ fuel ih =>
    rw [wrap]
    split
    · next hshort =>
      rw [withLineEnds_plain h]
      exact areLinesOf_short h hshort
    · next hlong =>
      have hfront : ∀ c ∈ cs.take lineWidth, IsPlainChar c :=
        fun c hc => h c (List.mem_of_mem_take hc)
      have hmore : ∀ c ∈ cs.drop lineWidth, IsPlainChar c :=
        fun c hc => h c (List.mem_of_mem_drop hc)
      have hlines := ih hmore (by rw [List.length_drop, lineWidth]; omega)
      have hcons := hlines.cons heol (by simpa using hlong) hfront
        (List.length_take_of_le (by omega))
      rw [List.take_append_drop] at hcons
      rw [withLineEnds_append, withLineEnds_plain hfront, Text.bytesOf_append,
        ← List.singleton_append, withLineEnds_append, Text.bytesOf_append]
      simpa [withLineEnds] using hcons

end Lines

section Labels

variable {label : String} {data lines : Bytes}

theorem isPlainChar_of_mem_symbols {c : Char} (h : c ∈ encodeChars .standard data) :
    IsPlainChar c := by
  have hcode : ∀ v < 64, IsInLine (Codec.Base64.code v) := by
    unfold IsInLine
    decide +kernel
  rw [Codec.Base64.encodeChars_eq] at h
  rcases List.mem_append.mp h with h | h
  · obtain ⟨v, hv, rfl⟩ := List.mem_map.mp h
    have hlt := Codec.Base64.sextets_lt data v hv
    exact ⟨_, Codec.Base64.utf8EncodeChar_symbol hlt, hcode v hlt⟩
  · rw [List.eq_of_mem_replicate h]
    exact ⟨61, rfl, by decide, by decide⟩

theorem last_dashes (bs : Bytes) : ∀ b ∈ (bs ++ dashes).getLast?, IsInLine b := by
  have hdashes : dashes = Text.bytesOf _ := Text.bytes_ofList _
  have hne : dashes ≠ [] := by
    rw [hdashes]
    decide +kernel
  have hlast : dashes.getLast? = some 45 := by
    rw [hdashes]
    decide +kernel
  rw [List.getLast?_append_of_ne_nil _ hne, hlast]
  rintro b ⟨⟩
  exact ⟨by decide, by decide⟩

/-- The lines between those of a label. -/
theorem body?_eq_lines (heol : IsLineEnd eol) (hne : lines ≠ [])
    (hhead : ∀ b ∈ lines.head?, IsInLine b) (hlast : ∀ b ∈ lines.getLast?, IsInLine b) :
    body? label (beginMark ++ Text.bytes label ++ dashes ++ (bytesOf eol ++
      (lines ++ bytesOf eol ++ (endMark ++ Text.bytes label ++ dashes)))) = some lines := by
  generalize hend : endMark ++ Text.bytes label ++ dashes = back
  have hbegin : fromBegin (beginMark ++ Text.bytes label ++ dashes ++
      (bytesOf eol ++ (lines ++ bytesOf eol ++ back))) =
      some (beginMark ++ Text.bytes label ++ dashes ++
        (bytesOf eol ++ (lines ++ bytesOf eol ++ back))) := by
    rw [fromBegin, if_pos]
    rw [List.append_assoc, List.append_assoc]
    exact List.isPrefixOf_iff_prefix.mpr (List.prefix_append _ _)
  have hfirst : ∀ b ∈ (lines ++ bytesOf eol ++ back).head?, IsInLine b := by
    rwa [List.append_assoc, List.head?_append_of_ne_nil _ hne]
  have hnone : dropLastEol? (lines ++ bytesOf eol ++ back) = none := by
    rw [← hend, ← List.append_assoc]
    exact dropLastEol?_eq_none (last_dashes _)
  rw [body?, hbegin]
  simp only [Option.bind_eq_bind, Option.bind_some, dropPrefix?_append, dropEol?_append heol hfirst,
    hnone, Option.getD_none, hend, dropSuffix?_append, dropLastEol?_append heol hlast]

/-- The text of some data under a label, up to the end of its last line. -/
def labelled (eol : List Char) (label : String) (data : Bytes) : List Char :=
  let cs := encodeChars .standard data
  "-----BEGIN ".toList ++ label.toList ++ "-----".toList ++ (eol ++
    (withLineEnds eol (wrap cs.length cs) ++ eol ++
      ("-----END ".toList ++ label.toList ++ "-----".toList)))

/-- The text of some data with the line ends of any system. -/
theorem withLineEnds_encode (hlabel : '\n' ∉ label.toList) :
    withLineEnds eol (encode label data).toList = labelled eol label data ++ eol := by
  have hbegin : withLineEnds eol "-----BEGIN ".toList = "-----BEGIN ".toList :=
    withLineEnds_of_notMem (by decide)
  have hmark : withLineEnds eol "-----\n".toList = "-----".toList ++ eol := by
    simp [withLineEnds]
  have hend : withLineEnds eol "\n-----END ".toList = eol ++ "-----END ".toList := by
    simp [withLineEnds]
  unfold encode labelled
  simp only [String.toList_append, withLineEnds_append, withLineEnds_of_notMem hlabel, hbegin, hmark,
    hend, String.toList_ofList]
  simp only [List.append_assoc]

/-- Data are read back from their lines. -/
theorem decode?_labelled (label : String) (heol : IsLineEnd eol) (hdata : data ≠ []) :
    decode? label (String.ofList (labelled eol label data)) = some data := by
  have hlines := areLinesOf_wrap heol (fun _ => isPlainChar_of_mem_symbols)
    (Nat.le_refl (encodeChars .standard data).length)
  have hsymbols : encodeChars .standard data ≠ [] := by
    rw [Codec.Base64.encodeChars_eq]
    intro hnil
    obtain ⟨hnil, -⟩ := List.append_eq_nil_iff.mp hnil
    exact hdata (Codec.Base64.sextets_eq_nil_iff.mp (List.map_eq_nil_iff.mp hnil))
  have hne : bytesOf (withLineEnds eol (wrap (encodeChars .standard data).length
      (encodeChars .standard data))) ≠ [] :=
    List.length_pos_iff.mp (Nat.lt_of_lt_of_le (List.length_pos_iff.mpr hsymbols) hlines.length_le)
  have hbytes : Text.bytes (String.ofList (labelled eol label data)) =
      beginMark ++ Text.bytes label ++ dashes ++ (bytesOf eol ++
        (bytesOf (withLineEnds eol (wrap (encodeChars .standard data).length
          (encodeChars .standard data))) ++ bytesOf eol ++
            (endMark ++ Text.bytes label ++ dashes))) := by
    rw [Text.bytes_ofList (labelled eol label data)]
    unfold labelled
    simp only [Text.bytesOf_append]
    rfl
  have hread : Codec.Base64.decodeBytes (bytesOf (encodeChars .standard data)) = .ok data :=
    Codec.Base64.decodeBytes_encodeChars data
  rw [decode?, hbytes, body?_eq_lines heol hne hlines.head hlines.last]
  simp only [Option.bind_eq_bind, Option.bind_some,
    hlines.joined _ (Nat.lt_succ_of_le hlines.length_le), hread, Except.toOption]
  rfl

end Labels

end AccountGate.Rsa.Pem
