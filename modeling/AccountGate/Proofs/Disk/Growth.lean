import AccountGate.Proofs.Disk.Alike

/-!
Directories that are made. Main statements: whatever was there stays, and what is new is a directory;
a directory stands once it has been made; and disks that differ in one file only do so afterwards.
-/

namespace AccountGate.Disk

/-- All that was there is there, and what has come are directories. -/
structure Grown (d d' : Disk) : Prop where
  home_eq : d'.home = d.home
  get?_eq : ∀ place, d'.get? place = d.get? place ∨
    d.get? place = none ∧ d'.get? place = some .directory

namespace Grown

variable {d d' d'' : Disk}

theorem refl (d : Disk) : Grown d d := ⟨rfl, fun _ => .inl rfl⟩

theorem trans (h : Grown d d') (h' : Grown d' d'') : Grown d d'' := by
  refine ⟨h'.home_eq.trans h.home_eq, fun place => ?_⟩
  rcases h.get?_eq place with heq | ⟨hnone, hdir⟩
  · rw [← heq]
    exact h'.get?_eq place
  · rcases h'.get?_eq place with heq' | ⟨hnone', _⟩
    · exact .inr ⟨hnone, heq'.trans hdir⟩
    · exact absurd (hdir.symm.trans hnone') (by simp)

theorem get?_of_some (h : Grown d d') {place : Place} {node : Node}
    (hnode : d.get? place = some node) : d'.get? place = some node := by
  rcases h.get?_eq place with heq | ⟨hnone, _⟩
  · exact heq.trans hnode
  · exact absurd (hnode.symm.trans hnone) (by simp)

theorem locate (h : Grown d d') {path : String} {place : Place} (hl : d.locate path = .ok place) :
    d'.locate path = .ok place := by
  rw [Disk.locate] at hl ⊢
  rw [h.home_eq]
  cases hnames : pathNames d.home path with
  | error e =>
    rw [hnames] at hl
    exact absurd hl (by simp [bind, Except.bind])
  | ok names =>
    rw [hnames] at hl
    exact follow_of_directories (fun _ hdir => h.get?_of_some hdir) hl

theorem stands (h : Grown d d') {dir : String} (hdir : Stands d dir) : Stands d' dir :=
  hdir.of_directories h.home_eq fun _ hnode => h.get?_of_some hnode

end Grown

theorem makeDir_eq_ok_iff {d e : Disk} {names : List String} : d.makeDir names = .ok e ↔
    ∃ place, d.follow [] names = .ok place ∧ d.get? place = none ∧ d.put place .directory = e := by
  rw [makeDir]
  cases d.follow [] names with
  | error e => simp
  | ok place =>
    simp only [Except.ok.injEq, exists_eq_left']
    cases hget : d.get? place with
    | none => simp
    | some node => simp

theorem ne_nil_of_get?_eq_none {d : Disk} {place : Place} (h : d.get? place = none) :
    place ≠ [] := by
  rintro rfl
  exact absurd h (by simp [get?])

theorem grown_put {d : Disk} {place : Place} (h : d.get? place = none) :
    Grown d (d.put place .directory) := by
  refine ⟨rfl, fun other => ?_⟩
  rw [get?_put d (ne_nil_of_get?_eq_none h)]
  split
  · next heq => exact .inr ⟨heq ▸ h, rfl⟩
  · exact .inl rfl

/-- Entering a place once more finds a directory there. -/
theorem follow_dot {d : Disk} {names : List String} {place : Place}
    (hf : d.follow [] names = .ok place) (hdir : d.get? place = some .directory) :
    d.follow [] (names ++ ["."]) = .ok place := by
  refine follow_append.mpr ⟨place, hf, ?_⟩
  have hshort : ¬ longestName < ".".utf8ByteSize := by decide
  rw [follow, hdir]
  simp only [hshort, if_false]
  rfl

/-- A directory that has been made, or was there already, can be entered. -/
theorem makeMissing_eq_ok {d e : Disk} {names : List String} (h : d.makeMissing names = .ok e) :
    Grown d e ∧ ∃ place, e.follow [] (names ++ ["."]) = .ok place := by
  rw [makeMissing] at h
  split at h
  · split at h
    · next place hf =>
      obtain rfl := Except.ok.inj h
      exact ⟨.refl d, place, hf⟩
    · exact absurd h (by simp)
  · obtain ⟨place, hf, hnone, rfl⟩ := makeDir_eq_ok_iff.mp h
    have hgrown := grown_put hnone
    have hdir : (d.put place .directory).get? place = some .directory := by
      rw [get?_put d (ne_nil_of_get?_eq_none hnone), if_pos rfl]
    exact ⟨hgrown, place,
      follow_dot (follow_of_directories (fun _ hnode => hgrown.get?_of_some hnode) hf) hdir⟩

theorem grown_makeFirst {d e : Disk} {wanted : List (List String)} (h : d.makeFirst wanted = .ok e) :
    Grown d e := by
  induction wanted generalizing e with
  | nil =>
    obtain rfl := Except.ok.inj h
    exact .refl d
  | cons names others ih =>
    rw [makeFirst] at h
    split at h
    · split at h
      · next d₁ hothers => exact (ih hothers).trans (makeMissing_eq_ok h).1
      · exact absurd h (by simp)
    · exact (makeMissing_eq_ok h).1

theorem grown_makeDirs {d e : Disk} {path : String} (h : d.makeDirs path = .ok e) : Grown d e := by
  rw [makeDirs] at h
  split at h
  · obtain rfl := Except.ok.inj h
    exact .refl d
  · split at h
    · exact absurd h (by simp)
    · exact grown_makeFirst h

/-- A directory stands once it has been made. -/
theorem stands_of_makeDirs {d e : Disk} {path : String} (h : d.makeDirs path = .ok e) :
    Stands e path := by
  have hhome := (grown_makeDirs h).home_eq
  rw [makeDirs] at h
  split at h
  · next hempty => exact .inl hempty
  · split at h
    · exact absurd h (by simp)
    · next names hnames =>
      -- The directory itself is made last, whether the others had to be made or not.
      have hlast : ∃ d₁ : Disk, d₁.makeMissing (trimNames names) = .ok e := by
        rw [makeFirst] at h
        split at h
        · split at h
          · next d₁ _ => exact ⟨d₁, h⟩
          · exact absurd h (by simp)
        · exact ⟨d, h⟩
      obtain ⟨d₁, hmade⟩ := hlast
      obtain ⟨_, place, hf⟩ := makeMissing_eq_ok hmade
      exact .inr ⟨names, place, hhome ▸ hnames, hf⟩

namespace Alike

variable {d d' : Disk} {file : Place}

theorem makeDir (h : Alike file d d') (names : List String) :
    Both file (d.makeDir names) (d'.makeDir names) := by
  rw [Disk.makeDir, Disk.makeDir, h.follow_eq]
  cases d.follow [] names with
  | error e => exact .error e
  | ok place =>
    by_cases hne : place = file
    · obtain ⟨data, hdata⟩ := h.left
      obtain ⟨data', hdata'⟩ := h.right
      simp only [hne, hdata, hdata']
      exact .error _
    · simp only [h.get?_eq place hne]
      split
      · exact .error _
      · next hnone => exact .ok (h.put (ne_nil_of_get?_eq_none hnone) hne .directory)

theorem makeMissing (h : Alike file d d') (names : List String) :
    Both file (d.makeMissing names) (d'.makeMissing names) := by
  have hmake := h.makeDir names
  rw [Disk.makeMissing, Disk.makeMissing, h.follow_eq]
  generalize d.makeDir names = made at hmake ⊢
  generalize d'.makeDir names = made' at hmake ⊢
  cases hmake with
  | ok hmade => exact .ok hmade
  | error e =>
    cases e with
    | «exists» =>
      dsimp only
      cases d.follow [] (names ++ ["."]) with
      | error e => exact .error _
      | ok place => exact .ok h
    | _ => exact .error _

theorem makeFirst (h : Alike file d d') (wanted : List (List String)) :
    Both file (d.makeFirst wanted) (d'.makeFirst wanted) := by
  induction wanted with
  | nil => exact .ok h
  | cons names others ih =>
    have hmissing := h.makeMissing names
    rw [Disk.makeFirst, Disk.makeFirst]
    generalize d.makeMissing names = made at hmissing ⊢
    generalize d'.makeMissing names = made' at hmissing ⊢
    cases hmissing with
    | ok hmade => exact .ok hmade
    | error e =>
      cases e with
      | notFound =>
        generalize d.makeFirst others = around at ih ⊢
        generalize d'.makeFirst others = around' at ih ⊢
        cases ih with
        | ok hmade => exact hmade.makeMissing names
        | error e => exact .error e
      | _ => exact .error _

theorem makeDirs (h : Alike file d d') (path : String) :
    Both file (d.makeDirs path) (d'.makeDirs path) := by
  rw [Disk.makeDirs, Disk.makeDirs, h.home_eq]
  split
  · exact .ok h
  · split
    · exact .error _
    · exact h.makeFirst _

end Alike

end AccountGate.Disk
