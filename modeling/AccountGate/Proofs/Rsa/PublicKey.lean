import AccountGate.License.Entitlement
import AccountGate.Proofs.Rsa.Der
import AccountGate.Proofs.Rsa.Pem

/-!
The text forms of a public key. Main statement: an accepted key is read back from either form, with
any line ends and any blanks around it, so that no check depends on the form in which it is kept.
-/

namespace AccountGate.Rsa.PublicKey

open Der

variable {key : PublicKey}

section Data

/-- A number of so many bits takes an eighth as many bytes, and perhaps a zero before them. -/
theorem length_unsignedContent_of_bitLength {n k : Nat} (h : bitLength n ≤ 8 * k) :
    (unsignedContent n).length ≤ k + 1 := by
  have hpow : 2 ^ (8 * k) = 256 ^ k := Nat.pow_mul 2 8 k
  refine length_unsignedContent_le (hpow ▸ ?_)
  rw [bitLength] at h
  split at h
  · next hzero => exact hzero ▸ Nat.two_pow_pos _
  · exact Nat.lt_of_lt_of_le Nat.lt_log2_self (Nat.pow_le_pow_right (by decide) h)

/-- The numbers of an accepted key are short. -/
theorem length_numbers (h : key.Accepted) :
    (unsignedContent key.modulus).length ≤ 513 ∧ (unsignedContent key.exponent).length ≤ 6 := by
  have hexponent : key.exponent ≤ maxExponent := h.2.2.2.2.2
  rw [maxExponent] at hexponent
  exact ⟨length_unsignedContent_of_bitLength (k := 512) h.1,
    length_unsignedContent_le (k := 5) (by omega)⟩

theorem length_content_le (h : key.Accepted) :
    (unsigned key.modulus ++ unsigned key.exponent).length ≤ 531 := by
  obtain ⟨hmodulus, hexponent⟩ := length_numbers h
  have hfirst := length_element_le integerTag (unsignedContent key.modulus)
    (by rw [maxLength]; omega)
  have hsecond := length_element_le integerTag (unsignedContent key.exponent)
    (by rw [maxLength]; omega)
  rw [List.length_append, unsigned, unsigned]
  omega

/-- An accepted key is read back from its numbers. -/
theorem ofBareData?_bareData (h : key.Accepted) : ofBareData? key.bareData = some key := by
  obtain ⟨hmodulus, hexponent⟩ := length_numbers h
  have hcontent := length_content_le h
  have hsequence := readElement_element sequenceTag (unsigned key.modulus ++ unsigned key.exponent)
    (by rw [maxLength]; omega) []
  have hfirst := readUnsigned_unsigned (n := key.modulus) (by rw [maxLength]; omega)
    (unsigned key.exponent)
  have hsecond := readUnsigned_unsigned (n := key.exponent) (by rw [maxLength]; omega) []
  rw [List.append_nil] at hsequence hsecond
  rw [ofBareData?, bareData, hsequence]
  simp [hfirst, hsecond, h]

theorem length_bareData_le (h : key.Accepted) : key.bareData.length ≤ 537 := by
  have hcontent := length_content_le h
  have := length_element_le sequenceTag (unsigned key.modulus ++ unsigned key.exponent)
    (by rw [maxLength]; omega)
  rw [bareData]
  omega

/-- An accepted key is read back from its numbers with the algorithm. -/
theorem ofSubjectData?_subjectData (h : key.Accepted) :
    ofSubjectData? key.subjectData = some key := by
  have hbare := length_bareData_le h
  have hbits : (0 :: key.bareData).length ≤ 538 := by
    rw [List.length_cons]
    omega
  have hstring := length_element_le bitStringTag (0 :: key.bareData)
    (by rw [maxLength]; omega)
  have halgorithm : algorithm.length = 15 := by decide +kernel
  have hsequence := readElement_element sequenceTag
    (algorithm ++ element bitStringTag (0 :: key.bareData))
    (by rw [List.length_append, maxLength]; omega) []
  have hread := readElement_element bitStringTag (0 :: key.bareData)
    (by rw [maxLength]; omega) []
  rw [List.append_nil] at hsequence hread
  rw [ofSubjectData?, subjectData, hsequence]
  simp [Pem.dropPrefix?_append, hread, ofBareData?_bareData h]

end Data

section Texts

open Pem

variable {label : String} {eol before after : List Char} {text : String}

/-- The lines of a label stand first and last, so that blanks around them do not count. -/
theorem trim_encode (label : String) (hlabel : '\n' ∉ label.toList) (heol : IsLineEnd eol)
    (hbefore : ∀ c ∈ before, Text.isBlank c = true) (hafter : ∀ c ∈ after, Text.isBlank c = true)
    (data : Bytes) :
    Text.trim (String.ofList (before ++ withLineEnds eol (encode label data).toList ++ after)) =
      String.ofList (labelled eol label data) := by
  have hend : ∀ c ∈ eol ++ after, Text.isBlank c = true := by
    have heol : eol.all Text.isBlank = true := by
      rcases heol with rfl | rfl | rfl <;> decide
    exact List.forall_mem_append.mpr ⟨List.all_eq_true.mp heol, hafter⟩
  have hfirst : (labelled eol label data).head? = some '-' := rfl
  have hlast : (labelled eol label data).getLast? = some '-' := by
    unfold labelled
    simp only [← List.append_assoc]
    rw [List.getLast?_append_of_ne_nil _ (by decide)]
    decide
  rw [Text.trim_ofList, withLineEnds_encode hlabel, List.append_assoc, List.append_assoc,
    Text.trimChars_blanks hbefore hend]
  · rw [hfirst]
    rintro c ⟨⟩
    decide
  · rw [hlast]
    rintro c ⟨⟩
    decide

/-- A text form of a key: with the algorithm or without it, with the line ends of any system and
blanks around it. -/
inductive FormOf (key : PublicKey) : String → Prop
  | subject {before eol after : List Char} (heol : IsLineEnd eol)
      (hbefore : ∀ c ∈ before, Text.isBlank c = true) (hafter : ∀ c ∈ after, Text.isBlank c = true) :
      FormOf key (String.ofList (before ++ withLineEnds eol key.subjectText.toList ++ after))
  | bare {before eol after : List Char} (heol : IsLineEnd eol)
      (hbefore : ∀ c ∈ before, Text.isBlank c = true) (hafter : ∀ c ∈ after, Text.isBlank c = true) :
      FormOf key (String.ofList (before ++ withLineEnds eol key.bareText.toList ++ after))

/-- A bare key is not under the label of the other form. -/
theorem decode?_subjectLabel_bare (eol : List Char) (data : Bytes) :
    decode? subjectLabel (String.ofList (labelled eol bareLabel data)) = none := by
  obtain ⟨subject, hsubject⟩ : ∃ rest, Text.bytes subjectLabel = 80 :: rest := ⟨_, rfl⟩
  obtain ⟨bare, hbare⟩ : ∃ rest, Text.bytes bareLabel = 82 :: rest := ⟨_, rfl⟩
  obtain ⟨more, hbytes⟩ : ∃ more, Text.bytes (String.ofList (labelled eol bareLabel data)) =
      beginMark ++ (Text.bytes bareLabel ++ more) := by
    rw [Text.bytes_ofList (labelled eol bareLabel data)]
    unfold labelled
    dsimp only
    rw [List.append_assoc, List.append_assoc, Text.bytesOf_append, Text.bytesOf_append]
    exact ⟨_, rfl⟩
  have hbegin : fromBegin (beginMark ++ (Text.bytes bareLabel ++ more)) =
      some (beginMark ++ (Text.bytes bareLabel ++ more)) :=
    if_pos (List.isPrefixOf_iff_prefix.mpr (List.prefix_append _ _))
  have hnone : dropPrefix? (beginMark ++ Text.bytes subjectLabel ++ dashes)
      (beginMark ++ (Text.bytes bareLabel ++ more)) = none := by
    refine if_neg fun h => ?_
    rw [List.isPrefixOf_iff_prefix, List.append_assoc, List.prefix_append_right_inj, hsubject,
      hbare] at h
    exact absurd (List.cons_prefix_cons.mp h).1 (by decide)
  rw [decode?, hbytes, body?, hbegin]
  simp only [Option.bind_eq_bind, Option.bind_some, hnone, Option.bind_none]

theorem subjectData_ne_nil (key : PublicKey) : key.subjectData ≠ [] := List.cons_ne_nil _ _

theorem bareData_ne_nil (key : PublicKey) : key.bareData ≠ [] := List.cons_ne_nil _ _

/-- An accepted key is read back from its forms. -/
theorem FormOf.parse?_eq (hform : key.FormOf text) (h : key.Accepted) : parse? text = some key := by
  cases hform with
  | subject heol hbefore hafter =>
    have htrim := trim_encode subjectLabel (by decide) heol hbefore hafter key.subjectData
    have hdata := decode?_labelled subjectLabel heol key.subjectData_ne_nil
    rw [parse?, subjectText, htrim, hdata, Option.bind_eq_bind, Option.bind_some,
      ofSubjectData?_subjectData h]
  | bare heol hbefore hafter =>
    have htrim := trim_encode bareLabel (by decide) heol hbefore hafter key.bareData
    have hdata := decode?_labelled bareLabel heol key.bareData_ne_nil
    rw [parse?, bareText, htrim, decode?_subjectLabel_bare, hdata]
    exact ofBareData?_bareData h

end Texts

end AccountGate.Rsa.PublicKey
