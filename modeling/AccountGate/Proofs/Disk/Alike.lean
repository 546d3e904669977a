import AccountGate.Proofs.Disk.Named

/-!
Disks that differ in one file only. Main statements: paths lead to the same places on both, other
files read the same, and what replaces another file does the same to both; and where a directory
stands already, replacing a file in it changes that file only.
-/

namespace AccountGate.Disk

theorem get?_erase (d : Disk) {place : Place} (h : place ≠ []) (other : Place) :
    (d.erase place).get? other = if other = place then none else d.get? other := by
  by_cases he : other = place
  · subst he
    simp [get?, erase, h, Assoc.lookup_filter_self]
  · by_cases ho : other = []
    · simp [get?, ho, Ne.symm h]
    · simp [get?, erase, ho, he, Assoc.lookup_filter_ne]

/-- Directories stay where they are; so what a path leads to stays as well. -/
theorem follow_of_directories {d d' : Disk}
    (h : ∀ place, d.get? place = some .directory → d'.get? place = some .directory)
    {here place : Place} {names : List String} (hf : d.follow here names = .ok place) :
    d'.follow here names = .ok place := by
  induction names generalizing here with
  | nil => exact hf
  | cons name rest ih =>
    rw [follow] at hf ⊢
    split at hf
    · exact absurd hf (by simp)
    · exact absurd hf (by simp)
    · next hdir =>
      rw [h here hdir]
      split at hf
      · exact absurd hf (by simp)
      · next hshort =>
        simp only [hshort, if_false]
        exact ih hf

/-- The directory of a path is there. -/
def Stands (d : Disk) (dir : String) : Prop :=
  dir.isEmpty = true ∨ ∃ names place, pathNames d.home dir = .ok names ∧
    d.follow [] (trimNames names ++ ["."]) = .ok place

theorem Stands.of_directories {d d' : Disk} {dir : String} (h : Stands d dir)
    (hhome : d'.home = d.home)
    (hdirs : ∀ place, d.get? place = some .directory → d'.get? place = some .directory) :
    Stands d' dir := by
  rcases h with hempty | ⟨names, place, hnames, hfollow⟩
  · exact .inl hempty
  · exact .inr ⟨names, place, hhome ▸ hnames, follow_of_directories hdirs hfollow⟩

/-- A directory that is there is not made. -/
theorem makeDirs_of_stands {d : Disk} {dir : String} (h : Stands d dir) :
    d.makeDirs dir = .ok d := by
  rw [makeDirs]
  rcases h with hempty | ⟨names, place, hnames, hfollow⟩
  · rw [if_pos hempty]
  · split
    · rfl
    · obtain ⟨mid, hmid, hdot⟩ := follow_append.mp hfollow
      have hdir : d.get? mid = some .directory := by
        rw [follow] at hdot
        split at hdot
        · exact absurd hdot (by simp)
        · exact absurd hdot (by simp)
        · assumption
      have hmake : d.makeDir (trimNames names) = .error .exists := by
        rw [makeDir, hmid]
        simp only [hdir]
      have hmissing : d.makeMissing (trimNames names) = .ok d := by
        rw [makeMissing, hmake]
        simp only [hfollow]
      rw [hnames]
      simp only [makeFirst, hmissing]

/-- Two disks that differ at most in what one file holds. -/
structure Alike (file : Place) (d d' : Disk) : Prop where
  home_eq : d'.home = d.home
  get?_eq : ∀ place, place ≠ file → d'.get? place = d.get? place
  left : ∃ data, d.get? file = some (.file data)
  right : ∃ data, d'.get? file = some (.file data)

namespace Alike

variable {file : Place} {d d' d'' : Disk}

theorem symm (h : Alike file d d') : Alike file d' d :=
  ⟨h.home_eq.symm, fun place hne => (h.get?_eq place hne).symm, h.right, h.left⟩

theorem trans (h : Alike file d d') (h' : Alike file d' d'') : Alike file d d'' :=
  ⟨h'.home_eq.trans h.home_eq, fun place hne => (h'.get?_eq place hne).trans (h.get?_eq place hne),
    h.left, h'.right⟩

theorem directory (h : Alike file d d') (place : Place)
    (hdir : d.get? place = some .directory) : d'.get? place = some .directory := by
  have hne : place ≠ file := by
    rintro rfl
    obtain ⟨data, hdata⟩ := h.left
    exact absurd (hdir.symm.trans hdata) (by simp)
  rw [h.get?_eq place hne, hdir]

theorem follow_eq (h : Alike file d d') (here : Place) (names : List String) :
    d'.follow here names = d.follow here names := by
  induction names generalizing here with
  | nil => rfl
  | cons name rest ih =>
    rw [follow, follow]
    by_cases hne : here = file
    · obtain ⟨data, hdata⟩ := h.left
      obtain ⟨data', hdata'⟩ := h.right
      rw [hne, hdata, hdata']
    · rw [h.get?_eq here hne]
      split
      · rfl
      · rfl
      · split
        · rfl
        · exact ih (enter here name)

theorem locate_eq (h : Alike file d d') (path : String) : d'.locate path = d.locate path := by
  rw [locate, locate, h.home_eq]
  exact congrArg _ (funext fun names => h.follow_eq [] names)

theorem look_eq (h : Alike file d d') {path : String} (hpath : d.locate path ≠ .ok file) :
    d'.look path = d.look path := by
  rw [look, look, h.locate_eq]
  split
  · rfl
  · next place hplace =>
    have hne : place ≠ file := fun heq => hpath (heq ▸ hplace)
    rw [h.get?_eq place hne]

theorem readBytes_eq (h : Alike file d d') {path : String} (hpath : d.locate path ≠ .ok file) :
    d'.readBytes path = d.readBytes path := by
  rw [readBytes, readBytes, h.look_eq hpath]

theorem readText_eq (h : Alike file d d') {path : String} (hpath : d.locate path ≠ .ok file) :
    d'.readText path = d.readText path := by
  rw [readText, readText, h.readBytes_eq hpath]

theorem stands (h : Alike file d d') {dir : String} (hdir : Stands d dir) : Stands d' dir :=
  hdir.of_directories h.home_eq h.directory

theorem put (h : Alike file d d') {place : Place} (hplace : place ≠ []) (hne : place ≠ file)
    (node : Node) : Alike file (d.put place node) (d'.put place node) := by
  refine ⟨h.home_eq, fun other hother => ?_, ?_, ?_⟩
  · rw [get?_put d' hplace, get?_put d hplace, h.get?_eq other hother]
  · rw [get?_put d hplace, if_neg (Ne.symm hne)]
    exact h.left
  · rw [get?_put d' hplace, if_neg (Ne.symm hne)]
    exact h.right

theorem erase (h : Alike file d d') {place : Place} (hplace : place ≠ []) (hne : place ≠ file) :
    Alike file (d.erase place) (d'.erase place) := by
  refine ⟨h.home_eq, fun other hother => ?_, ?_, ?_⟩
  · rw [get?_erase d' hplace, get?_erase d hplace, h.get?_eq other hother]
  · rw [get?_erase d hplace, if_neg (Ne.symm hne)]
    exact h.left
  · rw [get?_erase d' hplace, if_neg (Ne.symm hne)]
    exact h.right

end Alike

/-- What an operation came to on two such disks: the same fault, or two such disks again. -/
inductive Alike.Both (file : Place) : Except Fault Disk → Except Fault Disk → Prop
  | ok {d d' : Disk} : Alike file d d' → Both file (.ok d) (.ok d')
  | error (e : Fault) : Both file (.error e) (.error e)

theorem write_eq_ok_iff {d e : Disk} {path : String} {data : Bytes} : d.write path data = .ok e ↔
    ∃ place, d.locate path = .ok place ∧ d.get? place ≠ some .directory ∧
      d.put place (.file data) = e := by
  rw [write]
  cases d.locate path with
  | error e => simp
  | ok place =>
    simp only [Except.ok.injEq, exists_eq_left']
    split
    · next hdir => simp [hdir]
    · next hdir => simp only [Except.ok.injEq, iff_and_self]; exact fun _ => hdir

theorem rename_eq_ok_iff {d e : Disk} {source target : String} : d.rename source target = .ok e ↔
    ∃ start data place, d.locate source = .ok start ∧ d.readBytes source = .ok data ∧
      d.locate target = .ok place ∧ d.get? place ≠ some .directory ∧
      (d.erase start).put place (.file data) = e := by
  rw [rename]
  cases d.locate source with
  | error e => simp
  | ok start =>
    cases d.readBytes source with
    | error e => simp
    | ok data =>
      cases d.locate target with
      | error e => simp
      | ok place =>
        simp only [Except.ok.injEq, exists_and_left, exists_eq_left']
        split
        · next hdir => simp [hdir]
        · next hdir => simp only [Except.ok.injEq, iff_and_self]; exact fun _ => hdir

namespace Alike

variable {d d' : Disk} {file : Place}

theorem write (h : Alike file d d') {base name : String} (hname : IsPlain name)
    (hfile : file.getLast? ≠ some name) (data : Bytes) :
    Both file (d.write (join base name) data) (d'.write (join base name) data) := by
  rw [Disk.write, Disk.write, h.locate_eq]
  cases hl : d.locate (join base name) with
  | error e => exact .error e
  | ok place =>
    have hne : place ≠ file := fun heq => hfile (heq ▸ getLast?_locate hname hl)
    have hput := h.put (ne_nil_of_locate hname hl) hne (.file data)
    simp only [h.get?_eq place hne]
    split
    · exact .error _
    · exact .ok hput

theorem rename (h : Alike file d d') {base source target : String} (hsource : IsPlain source)
    (htarget : IsPlain target) (hs : file.getLast? ≠ some source)
    (ht : file.getLast? ≠ some target) :
    Both file (d.rename (join base source) (join base target))
      (d'.rename (join base source) (join base target)) := by
  have hread : d'.readBytes (join base source) = d.readBytes (join base source) :=
    h.readBytes_eq fun hl => hs (getLast?_locate hsource hl)
  rw [Disk.rename, Disk.rename, h.locate_eq, h.locate_eq, hread]
  cases hl : d.locate (join base source) with
  | error e => exact .error e
  | ok start =>
    have hstart : start ≠ file := fun heq => hs (heq ▸ getLast?_locate hsource hl)
    cases d.readBytes (join base source) with
    | error e => exact .error e
    | ok data =>
      cases hl' : d.locate (join base target) with
      | error e => exact .error e
      | ok place =>
        have hplace : place ≠ file := fun heq => ht (heq ▸ getLast?_locate htarget hl')
        have hput := (h.erase (ne_nil_of_locate hsource hl) hstart).put
          (ne_nil_of_locate htarget hl') hplace (.file data)
        simp only [h.get?_eq place hplace]
        split
        · exact .error _
        · exact .ok hput

end Alike

/-- Files of some names have come, changed or gone, and nothing else has. -/
structure OnlyAt (names : List String) (d d' : Disk) : Prop where
  home_eq : d'.home = d.home
  directory_iff : ∀ place, d'.get? place = some .directory ↔ d.get? place = some .directory
  get?_eq : ∀ place name, place.getLast? = some name → name ∉ names → d'.get? place = d.get? place

namespace OnlyAt

variable {names : List String} {d d' d'' : Disk}

theorem refl (names : List String) (d : Disk) : OnlyAt names d d :=
  ⟨rfl, fun _ => Iff.rfl, fun _ _ _ _ => rfl⟩

theorem trans (h : OnlyAt names d d') (h' : OnlyAt names d' d'') : OnlyAt names d d'' where
  home_eq := h'.home_eq.trans h.home_eq
  directory_iff place := (h'.directory_iff place).trans (h.directory_iff place)
  get?_eq place name hlast hname :=
    (h'.get?_eq place name hlast hname).trans (h.get?_eq place name hlast hname)

theorem put {place : Place} {name : String} (hplace : place.getLast? = some name)
    (hname : name ∈ names) (hdir : d.get? place ≠ some .directory) (data : Bytes) :
    OnlyAt names d (d.put place (.file data)) := by
  have hne : place ≠ [] := by
    rintro rfl
    exact absurd hplace (by simp)
  refine ⟨rfl, fun other => ?_, fun other name' hlast hname' => ?_⟩
  · rw [get?_put d hne]
    split
    · next heq => simp [heq, hdir]
    · exact Iff.rfl
  · rw [get?_put d hne, if_neg]
    rintro rfl
    exact hname' (Option.some.inj (hlast.symm.trans hplace) ▸ hname)

theorem erase {place : Place} {name : String} (hplace : place.getLast? = some name)
    (hname : name ∈ names) (hdir : d.get? place ≠ some .directory) :
    OnlyAt names d (d.erase place) := by
  have hne : place ≠ [] := by
    rintro rfl
    exact absurd hplace (by simp)
  refine ⟨rfl, fun other => ?_, fun other name' hlast hname' => ?_⟩
  · rw [get?_erase d hne]
    split
    · next heq => simp [heq, hdir]
    · exact Iff.rfl
  · rw [get?_erase d hne, if_neg]
    rintro rfl
    exact hname' (Option.some.inj (hlast.symm.trans hplace) ▸ hname)

theorem write {base name : String} {data : Bytes} (hname : IsPlain name) (hmem : name ∈ names)
    (h : d.write (join base name) data = .ok d') : OnlyAt names d d' := by
  obtain ⟨place, hl, hdir, rfl⟩ := write_eq_ok_iff.mp h
  exact .put (getLast?_locate hname hl) hmem hdir data

theorem rename {base source target : String} (hsource : IsPlain source) (htarget : IsPlain target)
    (hs : source ∈ names) (ht : target ∈ names)
    (h : d.rename (join base source) (join base target) = .ok d') : OnlyAt names d d' := by
  obtain ⟨start, data, place, hl, hread, hl', hdir, rfl⟩ := rename_eq_ok_iff.mp h
  have hfile : d.get? start ≠ some .directory := by
    intro hstart
    rw [readBytes, look, hl] at hread
    simp only [hstart] at hread
    exact absurd hread (by simp)
  have herase := OnlyAt.erase (getLast?_locate hsource hl) hs hfile
  have hdir' : (d.erase start).get? place ≠ some .directory :=
    mt (herase.directory_iff place).mp hdir
  exact herase.trans (.put (getLast?_locate htarget hl') ht hdir' data)

theorem locate_iff (h : OnlyAt names d d') {path : String} {place : Place} :
    d'.locate path = .ok place ↔ d.locate path = .ok place := by
  rw [locate, locate, h.home_eq]
  cases pathNames d.home path with
  | error e => exact Iff.rfl
  | ok parts =>
    exact ⟨follow_of_directories fun place => (h.directory_iff place).mp,
      follow_of_directories fun place => (h.directory_iff place).mpr⟩

theorem stands (h : OnlyAt names d d') {dir : String} (hdir : Stands d dir) : Stands d' dir :=
  hdir.of_directories h.home_eq fun place => (h.directory_iff place).mpr

theorem readBytes_iff {d : Disk} {path : String} {data : Bytes} : d.readBytes path = .ok data ↔
    ∃ place, d.locate path = .ok place ∧ d.get? place = some (.file data) := by
  rw [readBytes, look]
  cases d.locate path with
  | error e => simp
  | ok place =>
    simp only [Except.ok.injEq, exists_eq_left']
    cases d.get? place with
    | none => simp
    | some node => cases node <;> simp

end OnlyAt

/-- A file that has been written at one place and then moved to another. -/
def moved (d : Disk) (start place : Place) (data : Bytes) : Disk :=
  ((d.put start (.file data)).erase start).put place (.file data)

/-- A file is written beside another one and moved over it where no directory is in the way. -/
theorem write_rename_iff {d d' : Disk} {dir scratch name : String} {data : Bytes}
    (hscratch : IsPlain scratch) :
    (∃ written, d.write (join dir scratch) data = .ok written ∧
      written.rename (join dir scratch) (join dir name) = .ok d') ↔
    ∃ start place, d.locate (join dir scratch) = .ok start ∧ d.get? start ≠ some .directory ∧
      d.locate (join dir name) = .ok place ∧ d.get? place ≠ some .directory ∧
      moved d start place data = d' := by
  have honly {start : Place} (hl : d.locate (join dir scratch) = .ok start)
      (hfree : d.get? start ≠ some .directory) :
      OnlyAt [scratch] d (d.put start (.file data)) :=
    .put (getLast?_locate hscratch hl) List.mem_cons_self hfree data
  have hput {start : Place} (hl : d.locate (join dir scratch) = .ok start) :
      (d.put start (.file data)).get? start = some (.file data) := by
    rw [get?_put d (ne_nil_of_locate hscratch hl), if_pos rfl]
  constructor
  · rintro ⟨written, hwrite, hrename⟩
    obtain ⟨start, hl, hfree, rfl⟩ := write_eq_ok_iff.mp hwrite
    have hsame := honly hl hfree
    obtain ⟨start', data', place, hl', hread, hplace, hfree', rfl⟩ := rename_eq_ok_iff.mp hrename
    obtain rfl := Except.ok.inj (hl.symm.trans (hsame.locate_iff.mp hl'))
    -- What is moved is what has been written.
    obtain ⟨start', hl'', hdata⟩ := OnlyAt.readBytes_iff.mp hread
    obtain rfl := Except.ok.inj (hl'.symm.trans hl'')
    obtain rfl := Node.file.inj (Option.some.inj ((hput hl).symm.trans hdata))
    exact ⟨_, place, hl, hfree, hsame.locate_iff.mp hplace,
      mt (hsame.directory_iff place).mpr hfree', rfl⟩
  · rintro ⟨start, place, hl, hfree, hplace, hfree', rfl⟩
    have hsame := honly hl hfree
    have hl' := hsame.locate_iff.mpr hl
    exact ⟨_, write_eq_ok_iff.mpr ⟨start, hl, hfree, rfl⟩,
      rename_eq_ok_iff.mpr ⟨start, data, place, hl',
        OnlyAt.readBytes_iff.mpr ⟨start, hl', hput hl⟩, hsame.locate_iff.mpr hplace,
        mt (hsame.directory_iff place).mp hfree', rfl⟩⟩

end AccountGate.Disk
