import AccountGate.Proofs.Text.Utf8
import AccountGate.Url.Form
import Mathlib.Data.List.Basic

/-!
Form encoding. Main statement: pairs that are appended to a text are read back after those that the
text has.
-/

namespace AccountGate.Url.Form

open Text (bytesOf bytes)

/-- What stands for a byte in a form: the byte itself, or an escape of it. -/
def Stands (b : UInt8) (front : Bytes) : Prop :=
  (front = [b] ∧ b ≠ 37) ∨ ∃ h l, front = [37, h, l] ∧ readEscape? [37, h, l] = some (b, [])

theorem readEscape?_escape (b : UInt8) : ∃ h l, (bytesOf (escape b)).map plusToSpace = [37, h, l] ∧
    readEscape? [37, h, l] = some (b, []) := by
  have hescape : readEscape? ((bytesOf (escape b)).map plusToSpace) = some (b, []) ∧
      ((bytesOf (escape b)).map plusToSpace).head? = some 37 ∧
      ((bytesOf (escape b)).map plusToSpace).length = 3 :=
    Text.forall_byte (P := fun b => readEscape? ((bytesOf (escape b)).map plusToSpace) = some (b, []) ∧
      ((bytesOf (escape b)).map plusToSpace).head? = some 37 ∧
      ((bytesOf (escape b)).map plusToSpace).length = 3) (by decide +kernel) b
  obtain ⟨hread, hhead, hlength⟩ := hescape
  obtain ⟨p, h, l, hbytes⟩ := List.length_eq_three.mp hlength
  rw [hbytes] at hread hhead ⊢
  obtain rfl := Option.some.inj hhead
  exact ⟨h, l, rfl, hread⟩

theorem stands_encodeByte (b : UInt8) : Stands b ((bytesOf (encodeByte b)).map plusToSpace) := by
  by_cases hblank : b = 32
  · subst hblank
    exact .inl ⟨by decide, by decide⟩
  · rw [encodeByte, if_neg hblank]
    by_cases hplain : isPlain b = true
    · rw [if_pos hplain]
      have hself : isPlain b = true →
          (bytesOf [Char.ofNat b.toNat]).map plusToSpace = [b] ∧ b ≠ 37 :=
        Text.forall_byte (P := fun b => isPlain b = true →
          (bytesOf [Char.ofNat b.toNat]).map plusToSpace = [b] ∧ b ≠ 37) (by decide +kernel) b
      exact .inl (hself hplain)
    · rw [if_neg hplain]
      exact .inr (readEscape?_escape b)

/-- The bytes that part pairs, and names from values, stand for nothing else. -/
theorem notMem_encodeByte (b : UInt8) :
    (38 : UInt8) ∉ bytesOf (encodeByte b) ∧ (61 : UInt8) ∉ bytesOf (encodeByte b) :=
  Text.forall_byte (P := fun b => 38 ∉ bytesOf (encodeByte b) ∧ 61 ∉ bytesOf (encodeByte b))
    (by decide +kernel) b

theorem decode_cons {b : UInt8} {front : Bytes} (h : Stands b front) (rest : Bytes) :
    Url.decode (front ++ rest) = b :: Url.decode rest := by
  rcases h with ⟨rfl, hne⟩ | ⟨x, y, rfl, hread⟩
  · have hnone : readEscape? (b :: rest) = none := by
      rw [readEscape?.eq_def]
      split
      · next heq => exact absurd (List.cons.inj heq).1 hne
      · rfl
    show decodeStep 0 (b :: rest) = _
    rw [decodeStep, hnone]
    rfl
  · have hsome : readEscape? (37 :: x :: y :: rest) = some (b, rest) := by
      rw [readEscape?] at hread ⊢
      split at hread
      · obtain ⟨hvalue, -⟩ := Prod.mk.inj (Option.some.inj hread)
        rw [hvalue]
      · exact absurd hread (by simp)
    show decodeStep 0 (37 :: x :: y :: rest) = _
    rw [decodeStep, hsome]
    rfl

/-- Bytes are read back from what stands for them. -/
theorem decode_encode (bs : Bytes) :
    Url.decode ((bytesOf (bs.flatMap encodeByte)).map plusToSpace) = bs := by
  induction bs with
  | nil => rfl
  | cons b bs ih =>
    rw [List.flatMap_cons, Text.bytesOf_append, List.map_append,
      decode_cons (stands_encodeByte b), ih]

theorem decodeText_encodeText (s : String) : decodeText (bytesOf (encodeText s)) = s := by
  rw [decodeText, encodeText, decode_encode, Text.decodeLossy_bytes]

theorem notMem_encodeText (s : String) :
    (38 : UInt8) ∉ bytesOf (encodeText s) ∧ (61 : UInt8) ∉ bytesOf (encodeText s) := by
  rw [encodeText]
  induction bytes s with
  | nil => exact ⟨List.not_mem_nil, List.not_mem_nil⟩
  | cons b bs ih =>
    rw [List.flatMap_cons, Text.bytesOf_append, List.mem_append, List.mem_append, not_or, not_or]
    exact ⟨⟨(notMem_encodeByte b).1, ih.1⟩, (notMem_encodeByte b).2, ih.2⟩

theorem bytesOf_encodePair (p : String × String) :
    bytesOf (encodePair p) = bytesOf (encodeText p.1) ++ 61 :: bytesOf (encodeText p.2) := by
  rw [encodePair, Text.bytesOf_append]
  rfl

/-- A pair is read back. -/
theorem decodePair_encodePair (p : String × String) : decodePair (bytesOf (encodePair p)) = p := by
  have hname : ∀ b ∈ bytesOf (encodeText p.1), (b != 61) = true := fun b hb =>
    bne_iff_ne.mpr fun heq => (notMem_encodeText p.1).2 (heq ▸ hb)
  have htake : (bytesOf (encodePair p)).takeWhile (· != 61) = bytesOf (encodeText p.1) := by
    rw [bytesOf_encodePair, List.takeWhile_append_of_pos hname]
    simp
  have hdrop : (bytesOf (encodePair p)).dropWhile (· != 61) =
      61 :: bytesOf (encodeText p.2) := by
    rw [bytesOf_encodePair, List.dropWhile_append_of_pos hname]
    simp
  rw [decodePair, htake, hdrop, List.drop_one, List.tail_cons, decodeText_encodeText,
    decodeText_encodeText]

theorem parts_ne_nil (sep : UInt8) (bs : Bytes) : parts sep bs ≠ [] := by
  cases bs with
  | nil => simp [parts]
  | cons b rest =>
    rw [parts]
    split
    · simp
    · split <;> simp

/-- A separator parts what is before it from what is after it. -/
theorem parts_append (sep : UInt8) (front back : Bytes) :
    parts sep (front ++ sep :: back) = parts sep front ++ parts sep back := by
  induction front with
  | nil => simp [parts]
  | cons b front ih =>
    by_cases hb : b = sep
    · subst hb
      simp [parts, ih]
    · obtain ⟨first, others, hfront⟩ := List.exists_cons_of_ne_nil (parts_ne_nil sep front)
      simp [parts, ih, hfront, hb]

theorem parts_of_notMem {sep : UInt8} {bs : Bytes} (h : sep ∉ bs) : parts sep bs = [bs] := by
  induction bs with
  | nil => rfl
  | cons b rest ih =>
    rw [List.mem_cons, not_or] at h
    simp [parts, ih h.2, Ne.symm h.1]

theorem notMem_encodePair (p : String × String) : (38 : UInt8) ∉ bytesOf (encodePair p) := by
  rw [bytesOf_encodePair, List.mem_append, List.mem_cons, not_or, not_or]
  exact ⟨(notMem_encodeText p.1).1, by decide, (notMem_encodeText p.2).1⟩

/-- One more pair is read back after the others. -/
theorem decode_snoc (written : List Char) (p : String × String) :
    decode (bytesOf (written ++ (if written.isEmpty then [] else ['&']) ++ encodePair p)) =
      decode (bytesOf written) ++ [p] := by
  -- A pair has no ampersand, so that it is one part, and it is not empty, so that it counts.
  have hpair : decode (bytesOf (encodePair p)) = [p] := by
    have hne : (bytesOf (encodePair p)).isEmpty = false := by
      rw [bytesOf_encodePair]
      simp
    rw [decode, parts_of_notMem (notMem_encodePair p)]
    simp [hne, decodePair_encodePair]
  cases written with
  | nil => exact hpair
  | cons c written =>
    have hbytes : bytesOf (c :: written ++ (if (c :: written).isEmpty then [] else ['&']) ++
        encodePair p) = bytesOf (c :: written) ++ 38 :: bytesOf (encodePair p) := by
      rw [List.append_assoc, Text.bytesOf_append, Text.bytesOf_append]
      rfl
    rw [hbytes, decode, parts_append, List.filter_append, List.map_append]
    exact congrArg _ hpair

/-- Pairs are read back after those that are written already. -/
theorem decode_append (written : List Char) (pairs : Pairs) :
    decode (bytesOf (append written pairs)) = decode (bytesOf written) ++ pairs := by
  induction pairs generalizing written with
  | nil => rw [append, List.foldl_nil, List.append_nil]
  | cons p pairs ih =>
    rw [append, List.foldl_cons, ← append, ih, decode_snoc, List.append_assoc]
    rfl

/-- Whatever pairs there are, a text can be written that holds them. -/
theorem decode_bytes_encode (pairs : Pairs) : decode (bytes (encode pairs)) = pairs := by
  rw [encode, Text.bytes_ofList, decode_append]
  rfl

/-- The values under a name, in their order. -/
def values (name : String) (pairs : Pairs) : List String :=
  (pairs.filter fun p => p.1 = name).map Prod.snd

theorem values_append (name : String) (pairs more : Pairs) :
    values name (pairs ++ more) = values name pairs ++ values name more := by
  simp [values]

theorem values_singleton (name : String) (p : String × String) :
    values name [p] = if p.1 = name then [p.2] else [] := by
  by_cases h : p.1 = name <;> simp [values, h]

end AccountGate.Url.Form
