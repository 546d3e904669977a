import AccountGate.Account.Shared
import AccountGate.Proofs.Auth.Registry
import AccountGate.Proofs.Disk.Growth

/-!
Settings that can be written. Main statements: where settings are kept in memory, or in a file that
has been written before, every write succeeds and leaves the key alone; and storing a key leaves the
settings alone, and comes to the same whatever they are.
-/

namespace AccountGate.Account

open Disk (Alike OnlyAt IsPlain)

theorem isPlain_settings : IsPlain SettingsFile.fileName := ⟨by decide, by decide, by decide⟩

theorem isPlain_scratch : IsPlain SettingsFile.scratchName := ⟨by decide, by decide, by decide⟩

theorem isPlain_key : IsPlain License.KeyCache.fileName := ⟨by decide, by decide, by decide⟩

/-- The name under which a key is written first. -/
def keyScratchName (serial : Nat) : String := License.KeyCache.scratchStart ++ "." ++ toString serial

theorem toList_keyScratchName (serial : Nat) : (keyScratchName serial).toList =
    License.KeyCache.scratchStart.toList ++ '.' :: Nat.toDigits 10 serial := by
  simp [keyScratchName]

theorem isPlain_keyScratch (serial : Nat) : IsPlain (keyScratchName serial) := by
  have hstart : (keyScratchName serial).toList.take 2 = ['.', 'p'] := by
    rw [toList_keyScratchName]
    rfl
  refine ⟨?_, ?_, ?_⟩
  · rw [toList_keyScratchName]
    intro hmem
    rcases List.mem_append.mp hmem with hmem | hmem
    · exact absurd hmem (by decide)
    · rcases List.mem_cons.mp hmem with heq | hmem
      · exact absurd heq (by decide)
      · exact absurd (Nat.isDigit_of_mem_toDigits (by decide) (by decide) hmem) (by decide)
  · rw [Disk.staysHere, Bool.or_eq_false_iff]
    constructor
    · rw [Bool.eq_false_iff, ne_eq, String.isEmpty_iff]
      intro h
      rw [h] at hstart
      exact absurd hstart (by decide)
    · apply beq_false_of_ne
      intro h
      rw [h] at hstart
      exact absurd hstart (by decide)
  · intro h
    rw [h] at hstart
    exact absurd hstart (by decide)

/-- The names of the files that storing a key writes. -/
def keyNames (serial : Nat) : List String := [keyScratchName serial, License.KeyCache.fileName]

theorem notMem_keyNames {name : String} (hkey : name ≠ License.KeyCache.fileName)
    (hstart : name.toList.take 5 ≠ ".publ".toList) (serial : Nat) : name ∉ keyNames serial := by
  intro hmem
  rcases List.mem_cons.mp hmem with rfl | hmem
  · exact hstart (by rw [toList_keyScratchName]; rfl)
  · exact hkey (List.mem_singleton.mp hmem)

theorem settings_notMem_keyNames (serial : Nat) : SettingsFile.fileName ∉ keyNames serial :=
  notMem_keyNames (by decide) (by decide) serial

theorem scratch_notMem_keyNames (serial : Nat) : SettingsFile.scratchName ∉ keyNames serial :=
  notMem_keyNames (by decide) (by decide) serial

namespace SettingsFile

variable {d d' : Disk} {dir : String} {place file : Disk.Place}

/-- Settings that have been put at one place, and then moved to another one. -/
def moved (d : Disk) (place file : Disk.Place) (s : Settings) : Disk :=
  ((d.put place (.file (Text.bytes s.render))).erase place).put file
    (.file (Text.bytes s.render))

/-- Whether settings are written does not depend on what they say. -/
theorem write_eq_ok_iff {s : Settings} : write d dir s = (.ok (), d') ↔
    ∃ (made : Disk) (place file : Disk.Place), d.makeDirs dir = .ok made ∧
      made.locate (scratchPath dir) = .ok place ∧ made.get? place ≠ some .directory ∧
      made.locate (path dir) = .ok file ∧ made.get? file ≠ some .directory ∧
      moved made place file s = d' := by
  have hsteps : write d dir s = (.ok (), d') ↔ ∃ made, d.makeDirs dir = .ok made ∧
      ∃ written, made.write (scratchPath dir) (Text.bytes s.render) = .ok written ∧
        written.rename (scratchPath dir) (path dir) = .ok d' := by
    rw [write]
    cases d.makeDirs dir with
    | error e => simp
    | ok made =>
      cases hwrite : made.write (scratchPath dir) (Text.bytes s.render) with
      | error e => simp [hwrite]
      | ok written =>
        cases hrename : written.rename (scratchPath dir) (path dir) with
        | error e => simp [hwrite, hrename]
        | ok renamed => simp [hwrite, hrename]
  rw [hsteps]
  constructor
  · rintro ⟨made, hmade, hwritten⟩
    obtain ⟨place, file, hmoved⟩ := (Disk.write_rename_iff isPlain_scratch).mp hwritten
    exact ⟨made, place, file, hmade, hmoved⟩
  · rintro ⟨made, place, file, hmade, hmoved⟩
    exact ⟨made, hmade, (Disk.write_rename_iff isPlain_scratch).mpr ⟨place, file, hmoved⟩⟩

theorem get?_moved (hl : d.locate (scratchPath dir) = .ok place)
    (hfile : d.locate (path dir) = .ok file) (s : Settings) (other : Disk.Place) :
    (moved d place file s).get? other = if other = file then some (.file (Text.bytes s.render))
      else if other = place then none else d.get? other := by
  have hplace : place ≠ [] := Disk.ne_nil_of_locate isPlain_scratch hl
  rw [moved, Disk.get?_put _ (Disk.ne_nil_of_locate isPlain_settings hfile),
    Disk.get?_erase _ hplace, Disk.get?_put d hplace]
  split
  · rfl
  · split
    · rfl
    · rfl

/-- The directories that were there are there: neither place was one. -/
theorem directory_moved (hl : d.locate (scratchPath dir) = .ok place)
    (hdir : d.get? place ≠ some .directory) (hfile : d.locate (path dir) = .ok file)
    (hfree : d.get? file ≠ some .directory) (s : Settings) {other : Disk.Place}
    (hother : d.get? other = some .directory) :
    (moved d place file s).get? other = some .directory := by
  have hother₁ : other ≠ file := by
    rintro rfl
    exact hfree hother
  have hother₂ : other ≠ place := by
    rintro rfl
    exact hdir hother
  rw [get?_moved hl hfile, if_neg hother₁, if_neg hother₂, hother]

/-- What a path leads to stays as it was. -/
theorem locate_moved (hl : d.locate (scratchPath dir) = .ok place)
    (hdir : d.get? place ≠ some .directory) (hfile : d.locate (path dir) = .ok file)
    (hfree : d.get? file ≠ some .directory) (s : Settings) {path : String} {other : Disk.Place}
    (hpath : d.locate path = .ok other) : (moved d place file s).locate path = .ok other := by
  rw [Disk.locate] at hpath ⊢
  cases hnames : Disk.pathNames d.home path with
  | error e =>
    rw [hnames] at hpath
    exact absurd hpath (by simp [bind, Except.bind])
  | ok names =>
    rw [hnames] at hpath
    rw [show (moved d place file s).home = d.home from rfl, hnames]
    exact Disk.follow_of_directories (fun _ => directory_moved hl hdir hfile hfree s) hpath

/-- Where nothing is left beside it, only the file itself changes. -/
theorem alike_moved (hl : d.locate (scratchPath dir) = .ok place) (hnone : d.get? place = none)
    (hfile : d.locate (path dir) = .ok file) {data : Bytes} (hdata : d.get? file = some (.file data))
    (s : Settings) : Alike file d (moved d place file s) := by
  refine ⟨rfl, fun other hother => ?_, ⟨data, hdata⟩, ⟨Text.bytes s.render, ?_⟩⟩
  · rw [get?_moved hl hfile, if_neg hother]
    split
    · next heq => rw [heq, hnone]
    · rfl
  · rw [get?_moved hl hfile, if_pos rfl]

end SettingsFile

/-- The settings have been written before: their file is there, and nothing is left beside it. -/
structure SettingsFile.Written (d : Disk) (dir : String) (file : Disk.Place) : Prop where
  stands : d.Stands dir
  file_at : d.locate (path dir) = .ok file
  is_file : ∃ data, d.get? file = some (.file data)
  scratch : ∃ place, d.locate (scratchPath dir) = .ok place ∧ d.get? place = none

namespace SettingsFile.Written

variable {d d' : Disk} {dir : String} {file : Disk.Place}

theorem getLast?_eq (h : Written d dir file) : file.getLast? = some SettingsFile.fileName :=
  Disk.getLast?_locate isPlain_settings h.file_at

theorem alike (h : Written d dir file) (h' : Alike file d d') : Written d' dir file := by
  refine ⟨h'.stands h.stands, (h'.locate_eq _).trans h.file_at, h'.right, ?_⟩
  obtain ⟨place, hl, hnone⟩ := h.scratch
  have hne : place ≠ file := Disk.place_ne isPlain_scratch isPlain_settings (by decide) hl h.file_at
  exact ⟨place, (h'.locate_eq _).trans hl, (h'.get?_eq place hne).trans hnone⟩

theorem onlyAt (h : Written d dir file) {serial : Nat} (h' : OnlyAt (keyNames serial) d d') :
    Written d' dir file := by
  obtain ⟨place, hl, hnone⟩ := h.scratch
  have hfile := h'.get?_eq file _ h.getLast?_eq (settings_notMem_keyNames serial)
  have hscratch := h'.get?_eq place _ (Disk.getLast?_locate isPlain_scratch hl)
    (scratch_notMem_keyNames serial)
  exact ⟨h'.stands h.stands, h'.locate_iff.mpr h.file_at, hfile ▸ h.is_file, place,
    h'.locate_iff.mpr hl, hscratch.trans hnone⟩

/-- Settings that have been written are written again, and nothing but their file changes. -/
theorem write (h : Written d dir file) (s : Settings) :
    ∃ d', SettingsFile.write d dir s = (.ok (), d') ∧ Alike file d d' := by
  obtain ⟨place, hl, hnone⟩ := h.scratch
  obtain ⟨data, hdata⟩ := h.is_file
  have hwrite : SettingsFile.write d dir s = (.ok (), moved d place file s) :=
    write_eq_ok_iff.mpr ⟨d, place, file, Disk.makeDirs_of_stands h.stands, hl, by simp [hnone],
      h.file_at, by simp [hdata], rfl⟩
  exact ⟨_, hwrite, alike_moved hl hnone h.file_at hdata s⟩

end SettingsFile.Written

/-- Settings that are written for the first time have been written before from then on; and had they
been others, only their file would be another one. -/
theorem SettingsFile.written_of_write {d d' : Disk} {dir : String} {s : Settings}
    (h : SettingsFile.write d dir s = (.ok (), d')) : ∃ file, Written d' dir file ∧
      ∀ t, ∃ d'', SettingsFile.write d dir t = (.ok (), d'') ∧ Alike file d' d'' := by
  obtain ⟨made, place, file, hmade, hl, hdir, hfile, hfree, rfl⟩ := write_eq_ok_iff.mp h
  have hne : place ≠ file := Disk.place_ne isPlain_scratch isPlain_settings (by decide) hl hfile
  have hget := get?_moved hl hfile s
  have hself : (moved made place file s).get? file = some (.file (Text.bytes s.render)) := by
    rw [hget, if_pos rfl]
  have hdirs (other : Disk.Place) (hother : made.get? other = some .directory) :
      (moved made place file s).get? other = some .directory :=
    directory_moved hl hdir hfile hfree s hother
  have hlocate {path : String} {other : Disk.Place} (hpath : made.locate path = .ok other) :
      (moved made place file s).locate path = .ok other :=
    locate_moved hl hdir hfile hfree s hpath
  refine ⟨file, ⟨(Disk.stands_of_makeDirs hmade).of_directories rfl hdirs, hlocate hfile,
    ⟨_, hself⟩, place, hlocate hl, ?_⟩, fun t => ?_⟩
  · rw [hget, if_neg hne, if_pos rfl]
  · refine ⟨_, write_eq_ok_iff.mpr ⟨made, place, file, hmade, hl, hdir, hfile, hfree, rfl⟩, rfl,
      fun other hother => ?_, ⟨_, hself⟩, ⟨Text.bytes t.render, ?_⟩⟩
    · rw [get?_moved hl hfile, get?_moved hl hfile, if_neg hother, if_neg hother]
    · rw [get?_moved hl hfile, if_pos rfl]

/-- The file of the settings is there, and if something stands beside it, it is no file. -/
structure SettingsFile.Kept (d : Disk) (dir : String) (file : Disk.Place) : Prop where
  stands : d.Stands dir
  file_at : d.locate (path dir) = .ok file
  is_file : ∃ data, d.get? file = some (.file data)
  scratch : ∃ place, d.locate (scratchPath dir) = .ok place ∧
    ∀ data, d.get? place ≠ some (.file data)

theorem SettingsFile.Written.kept {d : Disk} {dir : String} {file : Disk.Place}
    (h : SettingsFile.Written d dir file) : SettingsFile.Kept d dir file := by
  obtain ⟨place, hl, hnone⟩ := h.scratch
  exact ⟨h.stands, h.file_at, h.is_file, place, hl, fun data => by simp [hnone]⟩

namespace SettingsFile.Kept

variable {d d' : Disk} {dir : String} {file : Disk.Place}

theorem getLast?_eq (h : Kept d dir file) : file.getLast? = some SettingsFile.fileName :=
  Disk.getLast?_locate isPlain_settings h.file_at

theorem alike (h : Kept d dir file) (h' : Alike file d d') : Kept d' dir file := by
  obtain ⟨place, hl, hnone⟩ := h.scratch
  have hne : place ≠ file := Disk.place_ne isPlain_scratch isPlain_settings (by decide) hl h.file_at
  refine ⟨h'.stands h.stands, (h'.locate_eq _).trans h.file_at, h'.right, place,
    (h'.locate_eq _).trans hl, fun data => ?_⟩
  rw [h'.get?_eq place hne]
  exact hnone data

theorem onlyAt (h : Kept d dir file) {serial : Nat} (h' : OnlyAt (keyNames serial) d d') :
    Kept d' dir file := by
  obtain ⟨place, hl, hnone⟩ := h.scratch
  have hfile := h'.get?_eq file _ h.getLast?_eq (settings_notMem_keyNames serial)
  have hscratch := h'.get?_eq place _ (Disk.getLast?_locate isPlain_scratch hl)
    (scratch_notMem_keyNames serial)
  exact ⟨h'.stands h.stands, h'.locate_iff.mpr h.file_at, hfile ▸ h.is_file, place,
    h'.locate_iff.mpr hl, fun data => hscratch ▸ hnone data⟩

theorem grown (h : Kept d dir file) (h' : Disk.Grown d d') : Kept d' dir file := by
  obtain ⟨place, hl, hnone⟩ := h.scratch
  obtain ⟨data, hdata⟩ := h.is_file
  refine ⟨h'.stands h.stands, h'.locate h.file_at, ⟨data, h'.get?_of_some hdata⟩, place,
    h'.locate hl, fun data => ?_⟩
  rcases h'.get?_eq place with heq | ⟨_, hdir⟩
  · rw [heq]
    exact hnone data
  · simp [hdir]

/-- A write that succeeds changes nothing but the file. -/
theorem write (h : Kept d dir file) {s : Settings}
    (hs : SettingsFile.write d dir s = (.ok (), d')) : Alike file d d' := by
  obtain ⟨made, place, file', hmade, hl, hdir, hfile, _, rfl⟩ := write_eq_ok_iff.mp hs
  obtain rfl := Except.ok.inj ((Disk.makeDirs_of_stands h.stands).symm.trans hmade)
  obtain rfl := Except.ok.inj (hfile.symm.trans h.file_at)
  obtain ⟨place', hl', hnone⟩ := h.scratch
  obtain rfl := Except.ok.inj (hl.symm.trans hl')
  obtain ⟨data, hdata⟩ := h.is_file
  refine alike_moved hl ?_ hfile hdata s
  cases hget : d.get? place with
  | none => rfl
  | some node =>
    cases node with
    | file data => exact absurd hget (hnone data)
    | directory => exact absurd hget hdir

end SettingsFile.Kept

section Key

variable {d d' : Disk} {dir : String} {file : Disk.Place} {serial : Nat} {text : String}

open License (KeyCache.store KeyCache.load)

/-- Storing a key makes directories, and writes files of two names. -/
theorem exists_onlyAt_store (d : Disk) (dir : String) (serial : Nat) (text : String) :
    ∃ made, Disk.Grown d made ∧ (d.Stands dir → made = d) ∧
      OnlyAt (keyNames serial) made (License.KeyCache.store d dir serial text).2 := by
  have hscratch : keyScratchName serial ∈ keyNames serial := List.mem_cons_self
  have hkey : License.KeyCache.fileName ∈ keyNames serial := by simp [keyNames]
  rw [License.KeyCache.store]
  split
  · exact ⟨d, .refl d, fun _ => rfl, .refl _ d⟩
  · split
    · exact ⟨d, .refl d, fun _ => rfl, .refl _ d⟩
    · next made hmade =>
      refine ⟨made, Disk.grown_makeDirs hmade, fun hdir => ?_, ?_⟩
      · exact (Except.ok.inj ((Disk.makeDirs_of_stands hdir).symm.trans hmade)).symm
      · split
        · exact .refl _ made
        · next d₁ hwrite =>
          have honly := OnlyAt.write (isPlain_keyScratch serial) hscratch hwrite
          split
          · exact honly
          · next d₂ hrename =>
            exact honly.trans
              (.rename (isPlain_keyScratch serial) isPlain_key hscratch hkey hrename)

/-- Storing a key where its directory is there writes files of two names. -/
theorem onlyAt_store (hdir : d.Stands dir) :
    OnlyAt (keyNames serial) d (License.KeyCache.store d dir serial text).2 := by
  obtain ⟨made, _, hmade, honly⟩ := exists_onlyAt_store d dir serial text
  rwa [hmade hdir] at honly

theorem SettingsFile.Kept.store (h : SettingsFile.Kept d dir file) (keyDir : String) (serial : Nat)
    (text : String) : SettingsFile.Kept (License.KeyCache.store d keyDir serial text).2 dir file := by
  obtain ⟨made, hgrown, _, honly⟩ := exists_onlyAt_store d keyDir serial text
  exact (h.grown hgrown).onlyAt honly

/-- Storing a key comes to the same whatever the settings are. -/
theorem Alike.store (h : Alike file d d') (hfile : file.getLast? = some SettingsFile.fileName)
    (dir : String) (serial : Nat) (text : String) :
    Alike file (License.KeyCache.store d dir serial text).2
      (License.KeyCache.store d' dir serial text).2 := by
  have hscratch : file.getLast? ≠ some (keyScratchName serial) := fun heq =>
    settings_notMem_keyNames serial (Option.some.inj (hfile.symm.trans heq) ▸ List.mem_cons_self)
  have hkey : file.getLast? ≠ some License.KeyCache.fileName := by
    rw [hfile]
    decide
  rw [License.KeyCache.store, License.KeyCache.store]
  split
  · exact h
  · have hdirs := h.makeDirs dir
    generalize d.makeDirs dir = made at hdirs ⊢
    generalize d'.makeDirs dir = made' at hdirs ⊢
    cases hdirs with
    | error e => exact h
    | @ok d₀ d₀' hmade =>
      have hwrite : Alike.Both file (d₀.write (Disk.join dir (keyScratchName serial)) (Text.bytes text))
          (d₀'.write (Disk.join dir (keyScratchName serial)) (Text.bytes text)) :=
        hmade.write (isPlain_keyScratch serial) hscratch (Text.bytes text)
      dsimp only
      rw [show License.KeyCache.scratchPath dir serial = Disk.join dir (keyScratchName serial) from rfl]
      generalize d₀.write _ _ = written at hwrite ⊢
      generalize d₀'.write _ _ = written' at hwrite ⊢
      cases hwrite with
      | error e => exact hmade
      | @ok d₁ d₁' halike =>
        have hrename : Alike.Both file (d₁.rename (Disk.join dir (keyScratchName serial))
            (Disk.join dir License.KeyCache.fileName))
            (d₁'.rename (Disk.join dir (keyScratchName serial))
              (Disk.join dir License.KeyCache.fileName)) :=
          halike.rename (isPlain_keyScratch serial) isPlain_key hscratch hkey
        dsimp only
        rw [show License.KeyCache.path dir = Disk.join dir License.KeyCache.fileName from rfl]
        generalize d₁.rename _ _ = moved at hrename ⊢
        generalize d₁'.rename _ _ = moved' at hrename ⊢
        cases hrename with
        | error e => exact halike
        | ok halike' => exact halike'

theorem Alike.load_eq (h : Alike file d d') (hfile : file.getLast? = some SettingsFile.fileName) :
    License.KeyCache.load d' dir = License.KeyCache.load d dir := by
  refine h.readText_eq fun hl => ?_
  have hlast := Disk.getLast?_locate isPlain_key hl
  exact absurd (hfile.symm.trans hlast) (by decide)

end Key

/-- The directory of the settings, where they are kept in a file. -/
def SettingsStore.dir? : SettingsStore → Option String
  | .memory _ _ => none
  | .file f => some f.dir

/-- Disks that differ at most in the settings that are kept on them. -/
def Twins (store : SettingsStore) (d d' : Disk) : Prop :=
  match store.dir? with
  | none => d' = d
  | some dir => ∃ file, SettingsFile.Kept d dir file ∧ Alike file d d'

namespace Twins

variable {store store' : SettingsStore} {d d' d'' : Disk}

theorem trans (h : Twins store d d') (h' : Twins store d' d'') : Twins store d d'' := by
  unfold Twins at *
  cases hdir : store.dir? with
  | none =>
    rw [hdir] at h h'
    obtain rfl : d' = d := h
    exact h'
  | some dir =>
    rw [hdir] at h h'
    obtain ⟨file, hkept, halike⟩ := h
    obtain ⟨file', hkept', halike'⟩ := h'
    have heq : file' = file := Except.ok.inj
      (hkept'.file_at.symm.trans (hkept.alike halike).file_at)
    subst heq
    exact ⟨file', hkept, halike.trans halike'⟩

theorem load_eq (h : Twins store d d') (dir : String) :
    License.KeyCache.load d' dir = License.KeyCache.load d dir := by
  unfold Twins at h
  split at h
  · rw [h]
  · obtain ⟨file, hkept, halike⟩ := h
    exact Alike.load_eq halike hkept.getLast?_eq

theorem storeKey (h : Twins store d d') (dir : String) (serial : Nat) (text : String) :
    Twins store (License.KeyCache.store d dir serial text).2
      (License.KeyCache.store d' dir serial text).2 := by
  unfold Twins at *
  split at h
  · rw [h]
  · obtain ⟨file, hkept, halike⟩ := h
    exact ⟨file, hkept.store dir serial text, Alike.store halike hkept.getLast?_eq dir serial text⟩

/-- Settings that are written once more are all that changes. -/
theorem apply (h : Twins store d d') (hdir : store'.dir? = store.dir?) {changes : Entries}
    (hok : (store'.apply d' changes).1 = .ok ()) :
    Twins store d' (store'.apply d' changes).2.2 := by
  unfold Twins at *
  rw [← hdir] at h ⊢
  cases store' with
  | memory settings fault => cases fault <;> rfl
  | file f =>
    obtain ⟨file, hkept, halike⟩ := h
    have hwrite : SettingsFile.write d' f.dir (f.memory.merge changes) =
        (.ok (), ((SettingsStore.file f).apply d' changes).2.2) := Prod.ext hok rfl
    exact ⟨file, hkept.alike halike, (hkept.alike halike).write hwrite⟩

end Twins

/-- When settings are written for the first time, it does not matter to the rest of the disk what
they say. -/
theorem twins_of_first {store : SettingsStore} {d : Disk} {changes : Entries}
    (hok : (store.apply d changes).1 = .ok ()) :
    Twins store (store.apply d []).2.2 (store.apply d changes).2.2 := by
  unfold Twins
  cases store with
  | memory settings fault => cases fault <;> rfl
  | file f =>
    have hwrite : SettingsFile.write d f.dir (f.memory.merge changes) =
        (.ok (), ((SettingsStore.file f).apply d changes).2.2) := Prod.ext hok rfl
    obtain ⟨file, hwritten, hother⟩ := SettingsFile.written_of_write hwrite
    obtain ⟨d', hwrite', halike⟩ := hother (f.memory.merge [])
    have hd' : ((SettingsStore.file f).apply d []).2.2 = d' := (Prod.mk.inj hwrite').2
    exact ⟨file, hd' ▸ (hwritten.alike halike).kept, hd' ▸ halike.symm⟩

theorem dir?_apply (store : SettingsStore) (d : Disk) (changes : Entries) :
    (store.apply d changes).2.1.dir? = store.dir? := by
  cases store with
  | memory settings fault => cases fault <;> rfl
  | file f => rfl

/-- The key that is to be had. -/
def Shared.key? (s : Shared) : Option String := (License.KeyCache.load s.disk s.keyDir).toOption

/-- Only tokens, events and counters have changed. -/
structure Aside (s s' : Shared) : Prop where
  rest_eq : s' = { s with vault := s'.vault, events := s'.events, counters := s'.counters }

theorem Aside.refl (s : Shared) : Aside s s := ⟨rfl⟩

theorem replies_of_vault {s s' : Shared} {c : Auth.Call} {r : Auth.Reply c}
    (hs : (match s.vault.step c with
      | .reply r vault => .reply r { s with vault }
      | .wait => .wait
      | .outside => .outside : Outcome Shared (Auth.Reply c)) = .reply r s') :
    s.vault.Replies c r s'.vault ∧
      s' = { s with vault := s'.vault, counters := s'.counters } := by
  cases hv : s.vault.step c with
  | reply r' vault =>
    rw [hv] at hs
    obtain ⟨rfl, rfl⟩ := Outcome.reply.inj hs
    exact ⟨.inl hv, rfl⟩
  | wait =>
    rw [hv] at hs
    exact absurd hs (by simp)
  | outside =>
    rw [hv] at hs
    exact absurd hs (by simp)

/-- What becomes of a call around tokens. -/
theorem replies_of_auth {s s' : Shared} {c : Auth.Call} {r : Auth.Reply c}
    (hs : s.step (.auth c) = .reply r s') : s.vault.Replies c r s'.vault ∧
      s' = { s with vault := s'.vault, counters := s'.counters } := by
  cases c with
  | count counter =>
    obtain ⟨-, rfl⟩ := Outcome.reply.inj hs
    exact ⟨.inr ⟨rfl, rfl⟩, rfl⟩
  | _ => exact replies_of_vault hs

theorem aside_of_auth {s s' : Shared} {c : Auth.Call} {r : Auth.Reply c}
    (hs : s.step (.auth c) = .reply r s') : Aside s s' := by
  rw [(replies_of_auth hs).2]
  exact ⟨rfl⟩

/-- The session after a call. -/
def Call.onSession (session : Session) : Call → Session
  | .setSession written => written
  | .setUser authorized user => { session with authorized, user }
  | .setSupported supported => { session with supported }
  | _ => session

/-- What a call says of the service. -/
def Call.report? : Call → Option Bool
  | .setAvailable available => some available
  | _ => none

/-- A call that leaves settings and disk as they are. -/
def Call.SparesFiles : Call → Prop
  | .apply _ => False
  | .storeKey _ => False
  | _ => True

/-- What a call leaves as it was, and what it makes of the session. -/
structure Frames (c : Call) (s s' : Shared) : Prop where
  session_eq : s'.session = c.onSession s.session
  keyDir_eq : s'.keyDir = s.keyDir
  licenseDir_eq : s'.licenseDir = s.licenseDir
  vault_eq : (∀ c', c ≠ .auth c') → s'.vault = s.vault
  store_eq : (∀ changes, c ≠ .apply changes) → s'.store = s.store
  disk_eq : c.SparesFiles → s'.disk = s.disk

namespace Shared

/-- Settings are kept in memory without a fault, or in a file that has been written before, and
then the directory of the key is there too. -/
structure Settled (s : Shared) : Prop where
  faultless : ∀ settings fault, s.store = .memory settings fault → fault = none
  written : ∀ dir ∈ s.store.dir?,
    (∃ file, SettingsFile.Written s.disk dir file) ∧ s.disk.Stands s.keyDir

variable {s s' : Shared}

theorem Settled.congr (h : s.Settled) (hstore : s'.store = s.store) (hdisk : s'.disk = s.disk)
    (hdir : s'.keyDir = s.keyDir) : s'.Settled :=
  ⟨hstore ▸ h.faultless, by rw [hstore, hdisk, hdir]; exact h.written⟩

/-- Settings have been merged, and nothing else has changed but the disk. -/
structure Merged (changes : Entries) (s s' : Shared) : Prop where
  settings_eq : s'.store.settings = s.store.settings.merge changes
  rest_eq : s' = { s with store := s'.store, disk := s'.disk }

/-- What is stored without a failure is merged. -/
theorem merged_of_apply {changes : Entries} (hs : s.step (.apply changes) = .reply (.ok ()) s') :
    Merged changes s s' := by
  obtain ⟨vault, store, disk, keyDir, licenseDir, serial, session, available, checking, events,
    counters⟩ := s
  cases store with
  | memory settings fault =>
    cases fault with
    | none =>
      obtain ⟨-, rfl⟩ := Outcome.reply.inj hs
      exact ⟨rfl, rfl⟩
    | some fault => exact absurd (Outcome.reply.inj hs).1 (by simp)
  | file f =>
    obtain ⟨-, rfl⟩ := Outcome.reply.inj hs
    exact ⟨rfl, rfl⟩

/-- Settings have been stored: they are merged, and the disk differs in them at most. -/
structure Stores (changes : Entries) (s s' : Shared) : Prop extends Merged changes s s' where
  dir_eq : s'.store.dir? = s.store.dir?
  twins : Twins s.store s.disk s'.disk
  settled : s'.Settled

/-- A settled store takes every change. -/
theorem Settled.apply (h : s.Settled) (changes : Entries) :
    ∃ s', s.step (.apply changes) = .reply (.ok ()) s' ∧ Stores changes s s' := by
  obtain ⟨hfault, hwritten⟩ := h
  obtain ⟨vault, store, disk, keyDir, licenseDir, serial, session, available, checking, events,
    counters⟩ := s
  cases store with
  | memory settings fault =>
    obtain rfl : fault = none := hfault settings fault rfl
    refine ⟨_, rfl, ⟨rfl, rfl⟩, rfl, rfl, fun _ fault heq => ?_, fun dir hdir => ?_⟩
    · exact (SettingsStore.memory.inj heq).2.symm
    · exact absurd hdir (by simp [SettingsStore.dir?])
  | file f =>
    obtain ⟨⟨file, hfile⟩, hkey⟩ := hwritten f.dir rfl
    obtain ⟨d', hwrite, halike⟩ := hfile.write (f.memory.merge changes)
    have hstep : step ⟨vault, .file f, disk, keyDir, licenseDir, serial, session, available, checking,
        events, counters⟩ (.apply changes) = .reply (.ok ()) ⟨vault,
          .file ⟨f.dir, f.memory.merge changes⟩, d', keyDir, licenseDir, serial, session, available,
          checking, events, counters⟩ := by
      simp only [step, SettingsStore.apply, SettingsFile.apply, hwrite]
    refine ⟨_, hstep, ⟨rfl, rfl⟩, rfl, ⟨file, hfile.kept, halike⟩, fun _ _ heq => ?_,
      fun dir hdir => ?_⟩
    · exact absurd heq (by simp)
    · obtain rfl : f.dir = dir := Option.some.inj hdir
      exact ⟨⟨file, hfile.alike halike⟩, halike.stands hkey⟩

theorem Settled.stores (h : s.Settled) {changes : Entries} {r : Except Error Unit}
    (hs : s.step (.apply changes) = .reply r s') : r = .ok () ∧ Stores changes s s' := by
  obtain ⟨s'', hs'', hstores⟩ := h.apply changes
  obtain ⟨rfl, rfl⟩ := Outcome.reply.inj (hs.symm.trans hs'')
  exact ⟨rfl, hstores⟩

theorem step_storeKey (s : Shared) (text : String) : s.step (.storeKey text) =
    .reply (License.KeyCache.store s.disk s.keyDir s.serial text).1
      { s with
        disk := (License.KeyCache.store s.disk s.keyDir s.serial text).2
        serial := s.serial + 1 } := by
  simp only [step]

theorem rest_eq_of_storeKey {text : String} {r : Except License.KeyError Unit}
    (hs : s.step (.storeKey text) = .reply r s') :
    s' = { s with disk := s'.disk, serial := s'.serial } := by
  rw [step_storeKey] at hs
  obtain ⟨-, rfl⟩ := Outcome.reply.inj hs
  generalize (License.KeyCache.store s.disk s.keyDir s.serial text).2 = d
  rfl

/-- Storing a key leaves a settled store settled. -/
theorem Settled.storeKey (h : s.Settled) {text : String} {r : Except License.KeyError Unit}
    (hs : s.step (.storeKey text) = .reply r s') :
    s' = { s with disk := s'.disk, serial := s.serial + 1 } ∧ s'.Settled := by
  rw [step_storeKey] at hs
  obtain ⟨-, rfl⟩ := Outcome.reply.inj hs
  generalize hstored : (License.KeyCache.store s.disk s.keyDir s.serial text).2 = d
  refine ⟨rfl, h.faultless, fun dir hdir => ?_⟩
  obtain ⟨⟨file, hfile⟩, hkey⟩ := h.written dir hdir
  have honly : OnlyAt (keyNames s.serial) s.disk d := hstored ▸ onlyAt_store hkey
  exact ⟨⟨file, hfile.onlyAt honly⟩, honly.stands hkey⟩

/-- Any other call changes the session, what is available, and what is announced, at most. -/
theorem rest_eq_of_step {c : Call} {r : Reply c} (hs : s.step c = .reply r s')
    (hauth : ∀ c', c ≠ .auth c') (happly : ∀ changes, c ≠ .apply changes)
    (hkey : ∀ text, c ≠ .storeKey text) :
    s' = { s with
      session := c.onSession s.session
      available := c.report?.getD s.available
      checking := s'.checking
      events := s'.events } := by
  cases c with
  | auth c => exact absurd rfl (hauth c)
  | apply changes => exact absurd rfl (happly changes)
  | storeKey text => exact absurd rfl (hkey text)
  | enterCheck =>
    simp only [Shared.step] at hs
    split at hs
    · exact absurd hs (by simp)
    · obtain ⟨-, rfl⟩ := Outcome.reply.inj hs
      rfl
  | random _ => exact absurd hs (by simp [Shared.step])
  | listen _ => exact absurd hs (by simp [Shared.step])
  | awaitRedirect _ _ => exact absurd hs (by simp [Shared.step])
  | openBrowser _ => exact absurd hs (by simp [Shared.step])
  | spawn _ => exact absurd hs (by simp [Shared.step])
  | join _ => exact absurd hs (by simp [Shared.step])
  | _ =>
    obtain ⟨-, rfl⟩ := Outcome.reply.inj hs
    rfl

theorem frames_of_step {c : Call} {r : Reply c} (hs : s.step c = .reply r s') : Frames c s s' := by
  cases c with
  | auth c =>
    rw [(replies_of_auth hs).2]
    exact ⟨rfl, rfl, rfl, fun hne => absurd rfl (hne c), fun _ => rfl, fun _ => rfl⟩
  | apply changes =>
    obtain ⟨-, rfl⟩ := Outcome.reply.inj hs
    exact ⟨rfl, rfl, rfl, fun _ => rfl, fun hne => absurd rfl (hne changes), False.elim⟩
  | storeKey text =>
    rw [rest_eq_of_storeKey hs]
    exact ⟨rfl, rfl, rfl, fun _ => rfl, fun _ => rfl, False.elim⟩
  | _ =>
    rw [rest_eq_of_step hs (by simp) (by simp) (by simp)]
    exact ⟨rfl, rfl, rfl, fun _ => rfl, fun _ => rfl, fun _ => rfl⟩

/-- Every step leaves a settled store settled. -/
theorem Settled.step (h : s.Settled) {c : Call} {r : Reply c} (hs : s.step c = .reply r s') :
    s'.Settled := by
  cases c with
  | apply changes => exact (h.stores hs).2.settled
  | storeKey text => exact (h.storeKey hs).2
  | _ =>
    have hframes := frames_of_step hs
    exact h.congr (hframes.store_eq (by simp)) (hframes.disk_eq trivial) hframes.keyDir_eq

end Shared

end AccountGate.Account
