import AccountGate.Proofs.Url.Query

/-!
The five parts of the text of a URL. Main statement: cut at their marks, they are those of the URL.
-/

namespace AccountGate.Url

/-- The parts of a URL as they stand in its text, without the marks between them. -/
structure Parts where
  scheme : List Char
  authority : Option (List Char)
  path : List Char
  query : Option (List Char)
  fragment : Option (List Char)
  deriving DecidableEq, Repr

/-- The characters before a mark and those after it. -/
def cut (mark : Char) (cs : List Char) : List Char × Option (List Char) :=
  (cs.takeWhile (· != mark), (cs.dropWhile (· != mark)).tail?)

/-- An authority, where two slashes announce it, and the path. -/
def cutAuthority : List Char → Option (List Char) × List Char
  | '/' :: '/' :: rest => (some (rest.takeWhile (· != '/')), rest.dropWhile (· != '/'))
  | path => (none, path)

/-- A number sign ends the query, a question mark the path, and the first colon the scheme. -/
def partsIn (text : String) : Parts :=
  let (before, fragment) := cut '#' text.toList
  let (front, query) := cut '?' before
  let (scheme, rest) := cut ':' front
  let (authority, path) := cutAuthority (rest.getD [])
  { scheme, authority, path, query, fragment }

variable {u : Url} {cs back : List Char}

theorem cut_marked {mark : Char} (h : mark ∉ cs) (rest : Option (List Char)) :
    cut mark (cs ++ marked mark rest) = (cs, rest) := by
  have hall : ∀ c ∈ cs, (c != mark) = true := by
    intro c hc
    rw [bne_iff_ne]
    rintro rfl
    exact h hc
  rw [cut, List.takeWhile_append_of_pos hall, List.dropWhile_append_of_pos hall]
  cases rest with
  | none => simp [marked]
  | some back => simp [marked]

/-- What follows an authority is empty or starts with a slash. -/
theorem cutAuthority_append (h : '/' ∉ cs) {path : List Char} (hpath : path.head?.all (· == '/')) :
    cutAuthority ('/' :: '/' :: (cs ++ path)) = (some cs, path) := by
  have hall : ∀ c ∈ cs, (c != '/') = true := by
    intro c hc
    rw [bne_iff_ne]
    rintro rfl
    exact h hc
  rw [cutAuthority, List.takeWhile_append_of_pos hall, List.dropWhile_append_of_pos hall]
  cases path with
  | nil => simp
  | cons c path =>
    have hc : c = '/' := by simpa using hpath
    simp [hc]

theorem cutAuthority_path (h : ¬ ['/', '/'] <+: cs) : cutAuthority cs = (none, cs) := by
  rw [cutAuthority.eq_def]
  split
  · next rest => exact absurd (List.prefix_append ['/', '/'] rest) h
  · rfl

/-- The authority with its slashes, and the path. -/
theorem IsParted.cutAuthority_render (h : u.IsParted) :
    cutAuthority (announced u.authority ++ (u.guardPath ++ u.path.render)) =
      (u.authority.map Authority.render, u.guardPath ++ u.path.render) := by
  have hfits := h.path
  cases hauthority : u.authority with
  | some a =>
    have hguard : u.guardPath = [] := by rw [guardPath, hauthority]
    have hslash := (h.authority a hauthority).render.slash_notMem
    rw [hguard, List.nil_append]
    refine cutAuthority_append hslash ?_
    cases hpath : u.path with
    | opaqueText text =>
      rw [hpath, hauthority] at hfits
      exact absurd hfits.1 (by simp)
    | segments list => cases list <;> simp [Path.render]
  | none =>
    refine cutAuthority_path ?_
    rw [announced, List.nil_append, guardPath, hauthority]
    cases hpath : u.path with
    | opaqueText text =>
      rw [hpath] at hfits
      rintro ⟨rest, hrest⟩
      exact hfits.2.1 (by rw [show text = ['/', '/'] ++ rest from hrest.symm]; rfl)
    | segments list =>
      rw [hpath] at hfits
      cases list with
      | nil => simp [Path.render]
      | cons segment rest =>
        cases segment with
        | nil => cases rest <;> simp [Path.render]
        | cons c segment =>
          have hc : '/' ≠ c := by
            rintro rfl
            exact (hfits _ List.mem_cons_self).slash_notMem List.mem_cons_self
          simp [Path.render, hc]

theorem mem_marked {c mark : Char} {rest : Option (List Char)} (h : c ∈ marked mark rest) :
    c = mark ∨ ∃ cs ∈ rest, c ∈ cs := by
  cases rest with
  | none => exact absurd h List.not_mem_nil
  | some cs => exact (List.mem_cons.mp h).imp_right fun hc => ⟨cs, rfl, hc⟩

/-- The parts are read back from the text; a path like an authority has its guard before it. -/
theorem IsParted.partsIn_render (h : u.IsParted) : partsIn u.render =
    { scheme := u.scheme, authority := u.authority.map Authority.render,
      path := u.guardPath ++ u.path.render, query := u.query, fragment := u.fragment } := by
  have hfront := h.unmarked_front
  have hcolon : ':' ∉ u.scheme := fun hc => absurd (h.scheme ':' hc) (by decide)
  have hmark : '?' ∉ u.front := fun hc => absurd (hfront '?' hc) (by decide)
  have hsign : '#' ∉ u.front ++ marked '?' u.query := by
    rw [List.mem_append]
    rintro (hc | hc)
    · exact absurd (hfront '#' hc) (by decide)
    · rcases mem_marked hc with hc | ⟨query, hquery, hc⟩
      · exact absurd hc (by decide)
      · exact h.query query hquery hc
  have hscheme : cut ':' u.front =
      (u.scheme, some (announced u.authority ++ (u.guardPath ++ u.path.render))) :=
    cut_marked hcolon (some _)
  rw [partsIn, toList_render, cut_marked hsign]
  dsimp only
  rw [cut_marked hmark]
  dsimp only
  rw [hscheme]
  dsimp only
  rw [Option.getD_some, h.cutAuthority_render]

end AccountGate.Url
