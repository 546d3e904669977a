import AccountGate.Json.Printer
import AccountGate.Json.Reader
import AccountGate.Proofs.Text.Utf8
import Mathlib.Data.Option.Basic

/-!
Maps of texts in JSON. Main statements: a text is read back from its string, whatever characters it
has; and members are read back from their lines, in the order in which they are written.
-/

namespace AccountGate.Json

open Text (bytesOf)

variable {acc rest : Bytes}

section Strings

/-- A byte that stands for itself in a string. -/
def IsPlainByte (b : UInt8) : Prop := b ≠ 34 ∧ b ≠ 92 ∧ ¬ b < 32

/-- One step of the reader of strings, by what stands in front. -/
theorem stringBody_step (acc rest : Bytes) :
    stringBody acc (34 :: rest) = some (acc.reverse, rest) ∧
    (∀ b, IsPlainByte b → stringBody acc (b :: rest) = stringBody (b :: acc) rest) ∧
    (∀ e x, e ≠ 117 → escape? e = some x →
      stringBody acc (92 :: e :: rest) = stringBody (x :: acc) rest) ∧
    ∀ a b c d u, hex4? a b c d = some u → u < 0xD800 →
      stringBody acc (92 :: 117 :: a :: b :: c :: d :: rest) = stringBody (pushChar u acc) rest := by
  refine ⟨?quote, fun b hb => ?plain, fun e x he hx => ?escape, fun a b c d u hu hlow => ?hex⟩
  case quote =>
    rw [stringBody.eq_def]
    exact if_pos rfl
  case plain =>
    obtain ⟨hquote, hslash, hcontrol⟩ := hb
    rw [stringBody.eq_def]
    dsimp only
    rw [if_neg hquote, if_neg hslash, if_neg hcontrol]
  case escape =>
    rw [stringBody.eq_def]
    dsimp only
    rw [if_neg (by decide), if_pos rfl, if_neg he, hx]
  case hex =>
    rw [stringBody.eq_def]
    dsimp only
    rw [if_neg (by decide), if_pos rfl, if_pos rfl, hu]
    dsimp only
    rw [if_neg (by omega), if_neg (by omega)]

theorem stringBody_quote : stringBody acc (34 :: rest) = some (acc.reverse, rest) :=
  (stringBody_step acc rest).1

theorem stringBody_plain {bs : Bytes} (h : ∀ b ∈ bs, IsPlainByte b) :
    stringBody acc (bs ++ rest) = stringBody (bs.reverse ++ acc) rest := by
  induction bs generalizing acc with
  | nil => rfl
  | cons b bs ih =>
    obtain ⟨hb, hbs⟩ := List.forall_mem_cons.mp h
    rw [List.cons_append, (stringBody_step acc _).2.1 b hb, ih hbs, List.reverse_cons,
      List.append_assoc]
    rfl

theorem stringBody_escape {e x : UInt8} (he : e ≠ 117) (hx : escape? e = some x) :
    stringBody acc (92 :: e :: rest) = stringBody (x :: acc) rest :=
  (stringBody_step acc rest).2.2.1 e x he hx

theorem stringBody_hex {a b c d : UInt8} {u : Nat} (h : hex4? a b c d = some u) (hu : u < 0xD800) :
    stringBody acc (92 :: 117 :: a :: b :: c :: d :: rest) = stringBody (pushChar u acc) rest :=
  (stringBody_step acc rest).2.2.2 a b c d u h hu

/-- A control without an escape of its own is written by its number. -/
theorem stringBody_control {n : Nat} (h : n < 32) : stringBody acc
    (bytesOf ['\\', 'u', '0', '0', hexDigit (n / 16), hexDigit (n % 16)] ++ rest) =
      stringBody (pushChar n acc) rest := by
  have hdigits : ∀ n < 32, ∃ h l : UInt8, hex4? 48 48 h l = some n ∧
      bytesOf ['\\', 'u', '0', '0', hexDigit (n / 16), hexDigit (n % 16)] =
        [92, 117, 48, 48, h, l] := by
    intro n hn
    refine ⟨.ofNat (hexDigit (n / 16)).toNat, .ofNat (hexDigit (n % 16)).toNat, ?_⟩
    revert n
    decide
  obtain ⟨x, y, hread, hbytes⟩ := hdigits n h
  rw [hbytes]
  exact stringBody_hex hread (by omega)

/-- A character is read back from what is written for it. -/
theorem stringBody_escapeChar (c : Char) : stringBody acc (bytesOf (escapeChar c) ++ rest) =
    stringBody ((String.utf8EncodeChar c).reverse ++ acc) rest := by
  have hself : Char.ofNat c.toNat = c := Char.ofNat_toNat c
  rw [escapeChar]
  split
  · next h => subst h; exact stringBody_escape (by decide) (by decide)
  split
  · next h => subst h; exact stringBody_escape (by decide) (by decide)
  split
  · next h => rw [← hself, h]; exact stringBody_escape (by decide) (by decide)
  split
  · next h => rw [← hself, h]; exact stringBody_escape (by decide) (by decide)
  split
  · next h => subst h; exact stringBody_escape (by decide) (by decide)
  split
  · next h => subst h; exact stringBody_escape (by decide) (by decide)
  split
  · next h => subst h; exact stringBody_escape (by decide) (by decide)
  split
  · next h => rw [stringBody_control h, pushChar, hself]
  next hquote hslash _ _ _ _ _ hcontrol =>
  -- What is left stands for itself, and so does each of its bytes.
  rw [show bytesOf [c] = String.utf8EncodeChar c from List.append_nil _]
  refine stringBody_plain fun b hb => ⟨?_, ?_, fun hlow => ?_⟩
  · rintro rfl
    have hbyte := Text.toNat_of_mem_encodeChar hb (by decide)
    exact hquote (hself.symm.trans (congrArg Char.ofNat hbyte))
  · rintro rfl
    have hbyte := Text.toNat_of_mem_encodeChar hb (by decide)
    exact hslash (hself.symm.trans (congrArg Char.ofNat hbyte))
  · have hlow : b.toNat < 32 := hlow
    exact hcontrol ((Text.toNat_of_mem_encodeChar hb (by omega)).symm ▸ hlow)

theorem stringBody_flatMap (cs : List Char) :
    stringBody acc (bytesOf (cs.flatMap escapeChar) ++ 34 :: rest) =
      some (acc.reverse ++ bytesOf cs, rest) := by
  induction cs generalizing acc with
  | nil =>
    show stringBody acc (34 :: rest) = some (acc.reverse ++ [], rest)
    rw [stringBody_quote, List.append_nil]
  | cons c cs ih =>
    rw [List.flatMap_cons, Text.bytesOf_append, List.append_assoc, stringBody_escapeChar, ih]
    simp [bytesOf]

theorem bytesOf_stringChars (s : String) :
    bytesOf (stringChars s) = 34 :: (bytesOf (s.toList.flatMap escapeChar) ++ [34]) := by
  rw [stringChars, show ∀ cs, bytesOf ('"' :: cs) = 34 :: bytesOf cs from fun _ => rfl,
    Text.bytesOf_append]
  rfl

/-- Every text is read back from its string. -/
theorem readString_stringChars (s : String) :
    readString (bytesOf (s.toList.flatMap escapeChar) ++ 34 :: rest) = some (s, rest) := by
  rw [readString, stringBody_flatMap]
  show (Text.decode? (Text.bytes s)).bind _ = _
  rw [Text.decode?_bytes]
  rfl

end Strings

section Lines

theorem skipSpace_space {b : UInt8} (h : isSpace b = true) :
    skipSpace (b :: rest) = skipSpace rest :=
  List.dropWhile_cons_of_pos h

theorem expect_space {b x : UInt8} (h : isSpace b = true) :
    expect x (b :: rest) = expect x rest := by
  rw [expect, expect, skipSpace_space h]

theorem expect_self {b : UInt8} (h : isSpace b = false) : expect b (b :: rest) = some rest := by
  rw [expect, skipSpace, List.dropWhile_cons_of_neg (by simp [h])]
  exact if_pos rfl

theorem expect_other {b x : UInt8} (h : isSpace b = false) (hne : b ≠ x) :
    expect x (b :: rest) = none := by
  rw [expect, skipSpace, List.dropWhile_cons_of_neg (by simp [h])]
  exact if_neg hne

/-- A string is a value, with any blanks before it. -/
theorem readValue_string (fuel depth : Nat) (s : String) :
    readValue (fuel + 1) depth (32 :: (bytesOf (stringChars s) ++ rest)) =
      some (.text s, rest) := by
  have hskip : skipSpace (32 :: (bytesOf (stringChars s) ++ rest)) =
      34 :: (bytesOf (s.toList.flatMap escapeChar) ++ 34 :: rest) := by
    rw [skipSpace_space rfl, bytesOf_stringChars]
    simp [skipSpace, isSpace]
  rw [readValue, hskip]
  dsimp only
  rw [if_neg (by decide), if_neg (by decide), if_neg (by decide), if_pos rfl,
    readString_stringChars]
  rfl

/-- A line without its end. -/
def lineBytes (member : String × String) : Bytes :=
  32 :: 32 :: (bytesOf (stringChars member.1) ++ 58 :: 32 :: bytesOf (stringChars member.2))

theorem bytesOf_linesChars_singleton (member : String × String) :
    bytesOf (linesChars [member]) = lineBytes member ++ [10] := by
  simp only [linesChars, lineBytes]
  rw [show ∀ cs, bytesOf (' ' :: ' ' :: cs) = 32 :: 32 :: bytesOf cs from fun _ => rfl,
    Text.bytesOf_append, show ∀ cs, bytesOf (':' :: ' ' :: cs) = 58 :: 32 :: bytesOf cs from
      fun _ => rfl, Text.bytesOf_append, List.cons_append, List.cons_append, List.append_assoc]
  rfl

theorem bytesOf_linesChars_cons (member next : String × String) (more : List (String × String)) :
    bytesOf (linesChars (member :: next :: more)) =
      lineBytes member ++ 44 :: 10 :: bytesOf (linesChars (next :: more)) := by
  rw [linesChars.eq_def]
  simp only [lineBytes]
  rw [show ∀ cs, bytesOf (' ' :: ' ' :: cs) = 32 :: 32 :: bytesOf cs from fun _ => rfl,
    Text.bytesOf_append, show ∀ cs, bytesOf (':' :: ' ' :: cs) = 58 :: 32 :: bytesOf cs from
      fun _ => rfl, Text.bytesOf_append,
    show ∀ cs, bytesOf (',' :: '\n' :: cs) = 44 :: 10 :: bytesOf cs from fun _ => rfl]
  simp

/-- A member is read from its line. -/
theorem readMembers_line (fuel depth : Nat) (member : String × String) :
    readMembers (fuel + 2) depth (lineBytes member ++ rest) =
      match expect 44 rest with
      | some rest => (readMembers (fuel + 1) depth rest).map fun p =>
        ((member.1, .text member.2) :: p.1, p.2)
      | none => (expect 125 rest).map fun rest => ([(member.1, .text member.2)], rest) := by
  have hopen : expect 34 (lineBytes member ++ rest) = some
      (bytesOf (member.1.toList.flatMap escapeChar) ++
      34 :: 58 :: 32 :: (bytesOf (stringChars member.2) ++ rest)) := by
    rw [lineBytes, List.cons_append, List.cons_append, expect_space rfl, expect_space rfl,
      bytesOf_stringChars, List.cons_append, List.cons_append, expect_self (by decide)]
    simp
  rw [readMembers, hopen]
  simp only [Option.bind_eq_bind, Option.bind_some]
  rw [readString_stringChars]
  simp only [Option.bind_some]
  rw [expect_self (by decide)]
  simp only [Option.bind_some]
  rw [readValue_string]
  simp only [Option.bind_some]
  cases expect 44 rest with
  | none =>
    dsimp only
    cases expect 125 rest <;> rfl
  | some rest =>
    dsimp only
    cases readMembers (fuel + 1) depth rest <;> rfl

/-- Blanks before the first member make no difference. -/
theorem readMembers_space {b : UInt8} (h : isSpace b = true) (fuel depth : Nat) :
    readMembers fuel depth (b :: rest) = readMembers fuel depth rest := by
  cases fuel with
  | zero => rfl
  | succ fuel => rw [readMembers, readMembers, expect_space h]

/-- The members that some texts are. -/
def textMembers (members : List (String × String)) : List (String × Json) :=
  members.map fun member => (member.1, .text member.2)

/-- Members are read back from their lines. -/
theorem readMembers_lines {fuel : Nat} (depth : Nat) {members : List (String × String)}
    (hne : members ≠ []) (hfuel : members.length < fuel) :
    readMembers fuel depth (bytesOf (linesChars members) ++ 125 :: rest) =
      some (textMembers members, rest) := by
  induction members generalizing fuel with
  | nil => exact absurd rfl hne
  | cons member more ih =>
    obtain ⟨fuel, rfl⟩ : ∃ n, fuel = n + 2 :=
      ⟨fuel - 2, by rw [List.length_cons] at hfuel; omega⟩
    cases more with
    | nil =>
      have hend : readMembers (fuel + 2) depth (lineBytes member ++ 10 :: 125 :: rest) =
          some (textMembers [member], rest) := by
        rw [readMembers_line, expect_space rfl, expect_other (by decide) (by decide),
          expect_space rfl, expect_self (by decide)]
        rfl
      rw [bytesOf_linesChars_singleton, List.append_assoc]
      exact hend
    | cons next more =>
      have hmore : (next :: more).length < fuel + 1 := by
        rw [List.length_cons] at hfuel
        omega
      rw [bytesOf_linesChars_cons, List.append_assoc, readMembers_line, List.cons_append,
        expect_self (by decide)]
      dsimp only
      rw [List.cons_append, readMembers_space rfl, ih (by simp) hmore]
      rfl

theorem length_le_length_linesChars (members : List (String × String)) :
    members.length ≤ (bytesOf (linesChars members)).length := by
  induction members with
  | nil => exact Nat.zero_le _
  | cons member more ih =>
    cases more with
    | nil =>
      rw [bytesOf_linesChars_singleton]
      simp [lineBytes]
    | cons next more =>
      rw [bytesOf_linesChars_cons]
      simp only [List.length_append, List.length_cons] at ih ⊢
      omega

theorem bytes_renderTexts (member : String × String) (more : List (String × String)) :
    Text.bytes (renderTexts (member :: more)) =
      123 :: 10 :: (bytesOf (linesChars (member :: more)) ++ [125]) := by
  show Text.bytes (String.ofList ('\x7b' :: '\n' :: (linesChars (member :: more) ++ ['\x7d']))) = _
  rw [Text.bytes_ofList,
    show ∀ cs, bytesOf ('\x7b' :: '\n' :: cs) = 123 :: 10 :: bytesOf cs from fun _ => rfl,
    Text.bytesOf_append]
  rfl

/-- Where there is a member, no brace follows the opening one. -/
theorem expect_linesChars (member : String × String) (more : List (String × String)) :
    expect 125 (bytesOf (linesChars (member :: more)) ++ rest) = none := by
  have hline (back : Bytes) : expect 125 (lineBytes member ++ back) = none := by
    rw [lineBytes, List.cons_append, List.cons_append, expect_space rfl, expect_space rfl,
      bytesOf_stringChars, List.cons_append, List.cons_append]
    exact expect_other (by decide) (by decide)
  cases more with
  | nil =>
    rw [bytesOf_linesChars_singleton, List.append_assoc]
    exact hline _
  | cons next more =>
    rw [bytesOf_linesChars_cons, List.append_assoc]
    exact hline _

/-- A map of texts is read back from its lines. -/
theorem parseMembers?_renderTexts (members : List (String × String)) :
    parseMembers? (Text.bytes (renderTexts members)) = some (textMembers members) := by
  cases members with
  | nil => cbv
  | cons member more =>
    have hlength := length_le_length_linesChars (member :: more)
    have hread : readMembers (fuelFor (Text.bytes (renderTexts (member :: more)))) (maxDepth - 1)
        (10 :: (bytesOf (linesChars (member :: more)) ++ [125])) =
        some (textMembers (member :: more), []) := by
      rw [readMembers_space rfl]
      refine readMembers_lines _ (by simp) ?_
      rw [bytes_renderTexts, fuelFor]
      simp only [List.length_append, List.length_cons] at hlength ⊢
      omega
    rw [bytes_renderTexts] at hread ⊢
    rw [parseMembers?, expect_self (by decide)]
    simp only [Option.bind_eq_bind, Option.bind_some]
    rw [expect_space rfl, expect_linesChars, hread]
    rfl

end Lines

end AccountGate.Json
