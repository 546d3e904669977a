import AccountGate.Proofs.Url.Form
import AccountGate.Proofs.Url.Marks

/-!
The query of a URL in its text. Main statement: whoever opens a URL to which pairs were added reads
these pairs in its text, after those that the URL had.
-/

namespace AccountGate.Url

open Text (bytesOf)

variable {k : Kind} {u : Url} {cs : List Char} {c : Char}

/-- No segment has a delimiter. -/
def AreUndelimited (path : List (List Char)) : Prop := ∀ segment ∈ path, Undelimited segment

/-- A path that nothing before it goes on into: in one piece it stands alone and starts with no slash,
and no segment has a delimiter. -/
def Path.Fits (authority : Option Authority) : Path → Prop
  | .opaqueText text => authority = none ∧ text.head? ≠ some '/' ∧ Unmarked text
  | .segments list => AreUndelimited list

/-- The parts of a URL end where its text says so: none has a mark that ends it. -/
structure IsParted (u : Url) : Prop where
  scheme : ∀ c ∈ u.scheme, isSchemeChar c = true
  authority : ∀ a ∈ u.authority, a.IsUndelimited
  path : u.path.Fits u.authority
  query : ∀ query ∈ u.query, '#' ∉ query

theorem isDelimiter_of_isSchemeChar (h : isSchemeChar c = true) : isDelimiter c = false := by
  refine Bool.eq_false_iff.mpr fun hend => ?_
  rcases eq_of_isDelimiter hend with rfl | rfl | rfl <;> exact absurd h (by decide)

theorem Path.Fits.render {authority : Option Authority} {path : Path} (h : path.Fits authority) :
    Unmarked path.render := by
  cases path with
  | opaqueText text => exact h.2.2
  | segments list =>
    intro c hc
    obtain ⟨segment, hsegment, hc⟩ := List.mem_flatMap.mp hc
    rcases List.mem_cons.mp hc with rfl | hc
    · rfl
    · exact (h segment hsegment).unmarked c hc

/-- The query in the text of a URL: all between the first question mark and a number sign. -/
def queryIn (text : List Char) : List Char :=
  ((text.takeWhile (· != '#')).dropWhile (· != '?')).drop 1

/-- The pairs in the text of a URL. -/
def pairsIn (text : String) : Form.Pairs := Form.decode (bytesOf (queryIn text.toList))

/-- The pairs that a URL has. -/
def pairs (u : Url) : Form.Pairs := Form.decode (bytesOf (u.query.getD []))

section Text

theorem unmarked_guardPath (u : Url) : Unmarked u.guardPath := by
  rw [guardPath]
  split <;> decide

/-- Characters with a mark in front, if there are any. -/
def marked (mark : Char) : Option (List Char) → List Char
  | some cs => mark :: cs
  | none => []

/-- An authority with the slashes that announce it. -/
def announced : Option Authority → List Char
  | some a => '/' :: '/' :: a.render
  | none => []

/-- What stands before the query. -/
def front (u : Url) : List Char :=
  u.scheme ++ ':' :: (announced u.authority ++ (u.guardPath ++ u.path.render))

theorem toList_render (u : Url) :
    u.render.toList = u.front ++ marked '?' u.query ++ marked '#' u.fragment := by
  rw [render, String.toList_ofList, front]
  cases u.authority <;> cases u.query <;> cases u.fragment <;>
    simp [announced, marked]

theorem IsParted.unmarked_front (h : u.IsParted) : Unmarked u.front := by
  have hscheme : Undelimited u.scheme := fun c hc => isDelimiter_of_isSchemeChar (h.scheme c hc)
  simp only [front, unmarked_append_iff, unmarked_cons_iff]
  refine ⟨hscheme.unmarked, by decide, ?_, unmarked_guardPath u, h.path.render⟩
  cases hauthority : u.authority with
  | some a =>
    rw [announced, unmarked_cons_iff, unmarked_cons_iff]
    exact ⟨by decide, by decide, (h.authority a hauthority).render.unmarked⟩
  | none => exact unmarked_nil

end Text

section Adding

theorem notMem_formByte (b : UInt8) : '#' ∉ Form.encodeByte b :=
  Text.forall_byte (P := fun b => '#' ∉ Form.encodeByte b) (by decide +kernel) b

theorem notMem_formPair (p : String × String) : '#' ∉ Form.encodePair p := by
  have htext (s : String) : '#' ∉ Form.encodeText s := by
    rw [Form.encodeText, List.mem_flatMap]
    rintro ⟨b, -, hb⟩
    exact notMem_formByte b hb
  rw [Form.encodePair, List.mem_append, List.mem_cons, not_or, not_or]
  exact ⟨htext p.1, by decide, htext p.2⟩

theorem notMem_append {written : List Char} (h : '#' ∉ written) (pairs : Form.Pairs) :
    '#' ∉ Form.append written pairs := by
  induction pairs generalizing written with
  | nil => exact h
  | cons p pairs ih =>
    refine ih ?_
    rw [List.mem_append, List.mem_append, not_or, not_or]
    refine ⟨⟨h, ?_⟩, notMem_formPair p⟩
    split <;> decide

theorem IsParted.addPairs (h : u.IsParted) (pairs : Form.Pairs) : (u.addPairs pairs).IsParted where
  scheme := h.scheme
  authority := h.authority
  path := h.path
  query := by
    intro query hquery
    obtain rfl := Option.some.inj hquery
    refine notMem_append ?_ pairs
    cases hown : u.query with
    | none => exact List.not_mem_nil
    | some own => exact h.query own hown

end Adding

section Reading

variable {rest : List Char}

theorem unmarked_takeWhile (cs : List Char) : Unmarked (cs.takeWhile fun c => !isPathEnd c) := by
  intro c hc
  have hall := List.all_takeWhile (p := fun c => !isPathEnd c) (l := cs)
  rw [List.all_eq_true] at hall
  simpa using hall c hc

theorem isSchemeChar_lower (h : isSchemeChar c = true) : isSchemeChar (Text.lower c) = true := by
  rw [Text.lower]
  split
  · next hcapital =>
    have hsmall : ∀ n < 91, 65 ≤ n → isSchemeChar (Char.ofNat (n + 32)) = true := by decide
    exact hsmall c.toNat (Nat.lt_succ_of_le hcapital.2) hcapital.1
  · exact h

theorem isSchemeChar_of_readScheme {scheme : List Char}
    (h : readScheme cs = some (scheme, rest)) : ∀ c ∈ scheme, isSchemeChar c = true := by
  rw [readScheme.eq_def] at h
  split at h
  · split at h
    · split at h
      · obtain ⟨rfl, -⟩ := Prod.mk.inj (Option.some.inj h)
        intro c hc
        obtain ⟨d, hd, rfl⟩ := List.mem_map.mp hc
        exact isSchemeChar_lower (List.all_eq_true.mp List.all_takeWhile d hd)
      · exact absurd h (by simp)
    · exact absurd h (by simp)
  · exact absurd h (by simp)

variable {path : List (List Char)} {segment : List Char}

theorem areUndelimited_nil : AreUndelimited [] := fun _ hmem => absurd hmem List.not_mem_nil

theorem areUndelimited_append_singleton (hpath : AreUndelimited path) (h : Undelimited segment) :
    AreUndelimited (path ++ [segment]) :=
  List.forall_mem_append.mpr ⟨hpath, List.forall_mem_singleton.mpr h⟩

theorem areUndelimited_addSegment (hpath : AreUndelimited path) (h : Undelimited segment)
    (isLast : Bool) : AreUndelimited (addSegment k path segment isLast) := by
  have htail : AreUndelimited (if isLast then [[]] else []) := by
    cases isLast
    · exact fun _ hmem => absurd hmem List.not_mem_nil
    · exact List.forall_mem_singleton.mpr undelimited_nil
  have hshort : AreUndelimited (shorten path) := by
    rw [shorten]
    split
    · exact hpath
    · exact fun segment hmem => hpath segment ((List.dropLast_sublist _).mem hmem)
  -- Of a drive only the letter is kept.
  have hdrive : Undelimited [segment.headD 'c', ':'] := by
    cases segment with
    | nil => decide
    | cons c cs => exact undelimited_cons_iff.mpr ⟨(undelimited_cons_iff.mp h).1, by decide⟩
  rw [addSegment]
  split
  · exact List.forall_mem_append.mpr ⟨hshort, htail⟩
  · split
    · exact List.forall_mem_append.mpr ⟨hpath, htail⟩
    · split
      · exact List.forall_mem_singleton.mpr hdrive
      · exact areUndelimited_append_singleton hpath h

theorem areUndelimited_addSegments (hpath : AreUndelimited path) {segments : List (List Char)}
    (h : ∀ segment ∈ segments, '/' ∉ segment) : AreUndelimited (addSegments k path segments) := by
  have hencoded {segment : List Char} (h : '/' ∉ segment) : Undelimited (encode inPath segment) :=
    undelimited_encode (.inr h) (by decide) (by decide)
  induction segments generalizing path with
  | nil => exact hpath
  | cons segment rest ih =>
    obtain ⟨hsegment, hrest⟩ := List.forall_mem_cons.mp h
    cases rest with
    | nil => exact areUndelimited_addSegment hpath (hencoded hsegment) true
    | cons next rest =>
      exact ih (areUndelimited_addSegment hpath (hencoded hsegment) false) hrest

theorem slash_notMem_splitSegments (k : Kind) (cs : List Char) :
    ∀ segment ∈ splitSegments k cs, '/' ∉ segment := by
  induction cs with
  | nil => exact List.forall_mem_singleton.mpr List.not_mem_nil
  | cons c rest ih =>
    rw [splitSegments]
    split
    · exact List.forall_mem_cons.mpr ⟨List.not_mem_nil, ih⟩
    · next hslash =>
      have hc : '/' ≠ c := by
        rintro rfl
        exact hslash rfl
      split
      · exact List.forall_mem_singleton.mpr (by simpa using hc)
      · next first others hmore =>
        rw [hmore] at ih
        obtain ⟨hfirst, hothers⟩ := List.forall_mem_cons.mp ih
        exact List.forall_mem_cons.mpr ⟨by simp [hc, hfirst], hothers⟩

theorem areUndelimited_readSegments (k : Kind) (cs : List Char) :
    AreUndelimited (readSegments k cs) :=
  areUndelimited_addSegments areUndelimited_nil (slash_notMem_splitSegments k cs)

theorem AreUndelimited.trimSegments (h : AreUndelimited path) :
    AreUndelimited (trimSegments path) := by
  rw [Url.trimSegments]
  split
  · exact List.forall_mem_singleton.mpr undelimited_nil
  · exact fun segment hmem => h segment ((List.dropWhile_sublist _).mem hmem)

/-- An encoded number sign is none. -/
theorem notMem_encode {set : EncodeSet} (h : set 35 = true) (cs : List Char) :
    '#' ∉ encode set cs :=
  fun hmem => Bool.false_ne_true ((mem_of_mem_encode (by decide) hmem).2.symm.trans h)

/-- An encoded text starts with a slash only where the text does. -/
theorem head?_encode_ne {set : EncodeSet} (h : cs.head? ≠ some '/') :
    (encode set cs).head? ≠ some '/' := by
  cases cs with
  | nil => exact h
  | cons c more =>
    have hsplit : encode set (c :: more) = encode set [c] ++ encode set more := by
      simp [encode, bytesOf]
    have hne : encode set [c] ≠ [] := by
      obtain ⟨b, back, hc⟩ := List.exists_cons_of_ne_nil (String.utf8EncodeChar_ne_nil (c := c))
      have hb : encodeByte set b ≠ [] := by
        rw [encodeByte]
        split <;> simp [escape]
      simp [encode, bytesOf, hc, hb]
    obtain ⟨d, back, hd⟩ := List.exists_cons_of_ne_nil hne
    rw [hsplit, hd]
    intro hhead
    obtain rfl := Option.some.inj hhead
    have hmem : '/' ∈ encode set [c] := hd ▸ List.mem_cons_self
    have hc := List.mem_singleton.mp (mem_of_mem_encode (by decide) hmem).1
    exact h (congrArg some hc.symm)

/-- Query and fragment come last. -/
theorem isParted_readSuffix (h : u.IsParted) (k : Kind) (cs : List Char) :
    (readSuffix k u cs).IsParted := by
  have hquery (rest : List Char) : ∀ query ∈ some (encode
      (if k.isSpecial then inSpecialQuery else inQuery) rest), '#' ∉ query := by
    intro query hquery
    obtain rfl := Option.some.inj hquery
    refine notMem_encode ?_ _
    split <;> decide
  rw [readSuffix.eq_def]
  dsimp only
  split
  · split
    · exact ⟨h.scheme, h.authority, h.path, hquery _⟩
    · exact ⟨h.scheme, h.authority, h.path, hquery _⟩
  · split
    · exact ⟨h.scheme, h.authority, h.path, h.query⟩
    · exact h

theorem isParted_readPath (h : u.IsParted) (k : Kind) (cs : List Char) :
    (readPath k u cs).IsParted := by
  have hwith {path : List (List Char)} (hpath : AreUndelimited path) :
      IsParted { u with path := .segments path } :=
    ⟨h.scheme, h.authority, hpath, h.query⟩
  refine isParted_readSuffix (hwith ?_) k _
  split
  · split
    · exact List.forall_mem_singleton.mpr undelimited_nil
    · exact areUndelimited_nil
  · exact areUndelimited_readSegments _ _

theorem isParted_readFilePath (h : u.IsParted) {host : Option Host}
    (hhost : ∀ name ∈ host, Undelimited name.render) (cs : List Char) :
    (readFilePath u host cs).IsParted := by
  have hwith {host : Option Host} (hhost : ∀ name ∈ host, Undelimited name.render)
      {path : List (List Char)} (hpath : AreUndelimited path) :
      IsParted { u with authority := some { host }, path := .segments path } := by
    refine ⟨h.scheme, fun a ha => ?_, hpath, h.query⟩
    obtain rfl := Option.some.inj ha
    exact ⟨undelimited_nil, undelimited_nil, hhost⟩
  refine isParted_readSuffix (hwith ?_ (areUndelimited_readSegments _ _).trimSegments) _ _
  split
  · exact fun _ hnone => absurd hnone (by simp)
  · exact hhost

theorem undelimited_readFileHost {host : Option Host} (h : readFileHost cs = .ok host) :
    ∀ name ∈ host, Undelimited name.render := by
  intro name hname
  rw [readFileHost] at h
  split at h
  · obtain rfl := Except.ok.inj h
    exact absurd hname (by simp)
  · obtain ⟨found, hfound, h⟩ := bind_eq_ok.mp h
    obtain rfl := Except.ok.inj h
    split at hname
    · exact absurd hname (by simp)
    · obtain rfl := Option.some.inj hname
      exact undelimited_host (.inl hfound)

theorem isParted_readFile {scheme : List Char} (hscheme : ∀ c ∈ scheme, isSchemeChar c = true)
    (h : readFile scheme cs = .ok u) : u.IsParted := by
  have hbare : IsParted { scheme, path := .segments [] } :=
    ⟨hscheme, fun _ ha => absurd ha (by simp), areUndelimited_nil, fun _ hq => absurd hq (by simp)⟩
  have hnowhere : ∀ name ∈ (none : Option Host), Undelimited name.render :=
    fun _ hname => absurd hname (by simp)
  rw [readFile] at h
  dsimp only at h
  split at h
  · split at h
    · obtain rfl := Except.ok.inj h
      exact isParted_readFilePath hbare hnowhere _
    · obtain ⟨host, hhost, h⟩ := bind_eq_ok.mp h
      have hname := undelimited_readFileHost hhost
      cases host with
      | none =>
        obtain rfl := Except.ok.inj h
        exact isParted_readFilePath hbare hname _
      | some host =>
        obtain rfl := Except.ok.inj h
        exact isParted_readFilePath hbare hname _
  · obtain rfl := Except.ok.inj h
    exact isParted_readFilePath hbare hnowhere _

/-- Whatever text a URL was read from. -/
theorem isParted_of_parse {text : String} (h : parse text = .ok u) : u.IsParted := by
  rw [parse] at h
  dsimp only at h
  split at h
  · exact absurd h (by simp)
  · next scheme rest hread =>
    have hscheme := isSchemeChar_of_readScheme hread
    have hbare (authority : Option Authority) (h : ∀ a ∈ authority, a.IsUndelimited) :
        IsParted { scheme, authority, path := .segments [] } :=
      ⟨hscheme, h, areUndelimited_nil, fun _ hq => absurd hq (by simp)⟩
    have hsome {k : Kind} {cs rest : List Char} {a : Authority}
        (h : readAuthority k scheme cs = .ok (a, rest)) :
        IsParted { scheme, authority := some a, path := .segments [] } :=
      hbare _ fun b hb => Option.some.inj hb ▸ isUndelimited_readAuthority h
    split at h
    · exact isParted_readFile hscheme h
    · obtain ⟨⟨a, rest⟩, ha, h⟩ := bind_eq_ok.mp h
      obtain rfl := Except.ok.inj h
      exact isParted_readPath (hsome ha) _ _
    · split at h
      · obtain ⟨⟨a, rest⟩, ha, h⟩ := bind_eq_ok.mp h
        obtain rfl := Except.ok.inj h
        exact isParted_readPath (hsome ha) _ _
      · obtain rfl := Except.ok.inj h
        exact isParted_readPath (hbare none fun _ ha => absurd ha (by simp)) _ _
      · next hslash =>
        obtain rfl := Except.ok.inj h
        have hhead : (rest.takeWhile fun c => !isPathEnd c).head? ≠ some '/' := by
          rw [List.head?_takeWhile]
          intro hhead
          obtain ⟨more, hmore⟩ := List.head?_eq_some_iff.mp (Option.filter_eq_some_iff.mp hhead).1
          exact hslash more hmore
        have hfits : Path.Fits none
            (.opaqueText (encode controls (rest.takeWhile fun c => !isPathEnd c))) :=
          ⟨rfl, head?_encode_ne hhead, (unmarked_takeWhile _).encode controls⟩
        exact isParted_readSuffix ⟨hscheme, fun _ ha => absurd ha (by simp), hfits,
          fun _ hq => absurd hq (by simp)⟩ _ _

end Reading

end AccountGate.Url
