import AccountGate.Proofs.Account.Filing
import AccountGate.Proofs.Account.Keyring
import AccountGate.Proofs.Flow.World

/-!
What storing a key leaves behind. Main statement: a key that is stored changes no file but its own,
and one that is not stored changes none, unless a directory is in its place; then the file that it
was written to first is left, and stays whatever is done afterwards.
-/

namespace AccountGate

namespace Disk

variable {d d' : Disk} {place start : Place} {data : Bytes}

/-- What the file at a place holds, if there is one. -/
def file? (d : Disk) (place : Place) : Option Bytes :=
  match d.get? place with
  | some (.file data) => some data
  | _ => none

theorem file?_congr (h : d'.get? place = d.get? place) : d'.file? place = d.file? place := by
  rw [file?, file?, h]

/-- A directory that has come is no file. -/
theorem file?_of_get?_eq (h : d'.get? place = d.get? place ∨
    d.get? place = none ∧ d'.get? place = some .directory) : d'.file? place = d.file? place := by
  rcases h with heq | ⟨hnone, hdir⟩
  · exact file?_congr heq
  · rw [file?, file?, hnone, hdir]

theorem Grown.file?_eq (h : Grown d d') (place : Place) : d'.file? place = d.file? place :=
  file?_of_get?_eq (h.get?_eq place)

theorem file?_put (hne : place ≠ []) (other : Place) : (d.put place (.file data)).file? other =
    if other = place then some data else d.file? other := by
  rw [file?, get?_put d hne]
  by_cases hother : other = place
  · rw [if_pos hother, if_pos hother]
  · rw [if_neg hother, if_neg hother, file?]

/-- A file that is moved from beside is the only one that changes, and none is left beside. -/
theorem file?_moved (hstart : start ≠ []) (hplace : place ≠ []) (other : Place) :
    (moved d start place data).file? other =
      if other = place then some data else if other = start then none else d.file? other := by
  rw [moved, file?_put hplace]
  by_cases hother : other = place
  · rw [if_pos hother, if_pos hother]
  · rw [if_neg hother, if_neg hother, file?, get?_erase _ hstart, get?_put d hstart]
    by_cases hbeside : other = start
    · rw [if_pos hbeside, if_pos hbeside]
    · rw [if_neg hbeside, if_neg hbeside, if_neg hbeside, file?]

/-- No file can be put where a path leads: it leads nowhere, or to a directory. -/
def Bars (d : Disk) (path : String) : Prop :=
  ∀ place, d.locate path = .ok place → d.get? place = some .directory

/-- What is written to one path cannot be moved to another one that is barred. -/
theorem rename_of_bars {d : Disk} (source : String) {target : String} (h : d.Bars target) :
    ∃ fault, d.rename source target = .error fault := by
  cases hrename : d.rename source target with
  | error fault => exact ⟨fault, rfl⟩
  | ok d' =>
    obtain ⟨_, _, place, _, _, hl, hfree, _⟩ := rename_eq_ok_iff.mp hrename
    exact absurd (h place hl) hfree

/-- A name that is no longer than another one in the same directory leads into it as well. -/
theorem locate_beside {base name name' : String} {parent : Place} (hrooted : Rooted d.home base)
    (hname : IsPlain name) (hname' : IsPlain name') (hnul : '\x00' ∉ name'.toList)
    (hshort : name'.utf8ByteSize ≤ name.utf8ByteSize)
    (h : d.locate (join base name) = .ok (parent ++ [name])) :
    d.locate (join base name') = .ok (parent ++ [name']) := by
  obtain ⟨names, hnames, hfollow⟩ := locate_eq_ok_iff.mp h
  obtain ⟨front, hfront⟩ := exists_front hrooted
  obtain ⟨hnul₀, hlong, rfl⟩ := (hfront name hname.no_slash hname.ne_nil _).mp hnames
  have hjoin := toList_join_eq_stem base hname.head_ne
  have hjoin' := toList_join_eq_stem base hname'.head_ne
  have hsize {name : String} (hname : IsPlain name) : (join base name).utf8ByteSize =
      (String.ofList (stem base)).utf8ByteSize + name.utf8ByteSize := by
    have heq : join base name = String.ofList (stem base) ++ name := by
      apply String.toList_injective
      simpa using toList_join_eq_stem base hname.head_ne
    rw [heq, String.utf8ByteSize_append]
  have hnames' : pathNames d.home (join base name') = .ok (front ++ [name']) := by
    refine (hfront name' hname'.no_slash hname'.ne_nil _).mpr ⟨?_, ?_, rfl⟩
    · rw [hjoin] at hnul₀
      rw [hjoin', List.mem_append, not_or]
      exact ⟨fun hmem => hnul₀ (List.mem_append_left _ hmem), hnul⟩
    · rw [hsize hname] at hlong
      rw [hsize hname']
      omega
  obtain ⟨mid, hmid, hlast⟩ := follow_append.mp hfollow
  obtain ⟨hdir, hplace⟩ := follow_plain hname hlast
  obtain rfl : mid = parent := List.append_cancel_right (Except.ok.inj hplace)
  refine locate_eq_ok_iff.mpr ⟨_, hnames', follow_append.mpr ⟨mid, hmid, ?_⟩⟩
  -- The name is looked up where the longer one was.
  have hbound : ¬ longestName < name.utf8ByteSize := by
    intro hlonger
    rw [follow, hdir] at hlast
    simp [hlonger] at hlast
  have hbound' : ¬ longestName < name'.utf8ByteSize := by omega
  have hleave : (name' == "..") = false := beq_false_of_ne hname'.no_leave
  rw [follow, hdir]
  simp only [hbound', if_false, enter, hname'.no_stay, hleave, Bool.false_eq_true]
  rfl

end Disk

namespace License.KeyCache

open Account (isPlain_key isPlain_keyScratch keyNames keyScratchName toList_keyScratchName)
open Disk (BreaksOff Grown Place Rooted)

/-- Every writer has a name of its own, since its number can be read back from it. -/
theorem keyScratchName_injective {m n : Nat} (h : keyScratchName m = keyScratchName n) : m = n := by
  have hchars := congrArg String.toList h
  rw [toList_keyScratchName, toList_keyScratchName] at hchars
  have hdigits := (List.cons.inj (List.append_cancel_left hchars)).2
  have hread (k : Nat) : Nat.ofDigitChars 10 (Nat.toDigits 10 k) 0 = k :=
    Nat.ofDigitChars_toDigits (by decide) (by decide)
  rw [← hread m, hdigits, hread n]

/-- The name under which a key is written first is longer than the one that it gets. -/
theorem size_fileName_le (serial : Nat) :
    fileName.utf8ByteSize ≤ (keyScratchName serial).utf8ByteSize := by
  have hstart : scratchStart.utf8ByteSize = 15 := by decide
  have hname : fileName.utf8ByteSize = 10 := by decide
  rw [keyScratchName, String.utf8ByteSize_append, String.utf8ByteSize_append]
  omega

/-- A key that is written to the file beside, and cannot be moved from there. -/
structure Strands (d : Disk) (dir : String) (serial : Nat) (text : String) (made : Disk)
    (start : Place) : Prop where
  key : (Rsa.PublicKey.parse? text).isSome
  made_eq : d.makeDirs dir = .ok made
  beside : made.locate (scratchPath dir serial) = .ok start
  free : made.get? start ≠ some .directory
  barred : made.Bars (path dir)

section Store

variable {d d' made : Disk} {dir text : String} {serial : Nat} {start : Place}

theorem Strands.ne_nil (h : Strands d dir serial text made start) : start ≠ [] :=
  Disk.ne_nil_of_locate (isPlain_keyScratch serial) h.beside

theorem Strands.store_eq (h : Strands d dir serial text made start) :
    ∃ fault, store d dir serial text = (.error fault, made.put start (.file (Text.bytes text))) := by
  have hkey : ¬ (Rsa.PublicKey.parse? text).isNone := by
    simpa [Option.isSome_iff_ne_none] using h.key
  have hwrite : made.write (scratchPath dir serial) (Text.bytes text) =
      .ok (made.put start (.file (Text.bytes text))) :=
    Disk.write_eq_ok_iff.mpr ⟨start, h.beside, h.free, rfl⟩
  -- The file beside bars nothing that was not barred.
  have honly : Disk.OnlyAt [keyScratchName serial] made (made.put start (.file (Text.bytes text))) :=
    .put (Disk.getLast?_locate (isPlain_keyScratch serial) h.beside) List.mem_cons_self h.free _
  have hbars : (made.put start (.file (Text.bytes text))).Bars (path dir) :=
    fun place hl => (honly.directory_iff place).mpr (h.barred place (honly.locate_iff.mp hl))
  obtain ⟨fault, hrename⟩ := Disk.rename_of_bars (scratchPath dir serial) hbars
  refine ⟨.unstorable fault, ?_⟩
  rw [store, if_neg hkey, h.made_eq]
  simp only [hwrite, hrename]

/-- The file beside is all that such a key changes. -/
theorem Strands.file?_eq (h : Strands d dir serial text made start) (other : Place) :
    (store d dir serial text).2.file? other =
      if other = start then some (Text.bytes text) else d.file? other := by
  obtain ⟨fault, hstore⟩ := h.store_eq
  rw [hstore, Disk.file?_put h.ne_nil, (Disk.grown_makeDirs h.made_eq).file?_eq]

/-- It is a directory that is in the place of the key. -/
theorem Strands.exists_directory (h : Strands d dir serial text made start)
    (hrooted : Rooted d.home dir) :
    ∃ place, made.locate (path dir) = .ok place ∧ made.get? place = some .directory := by
  have hbeside := h.beside
  obtain ⟨parent, hstart, -, -⟩ :=
    Disk.exists_parent_of_locate (isPlain_keyScratch serial) hbeside
  rw [← (Disk.grown_makeDirs h.made_eq).home_eq] at hrooted
  rw [hstart] at hbeside
  have hplace := Disk.locate_beside hrooted (isPlain_keyScratch serial) isPlain_key (by decide)
    (size_fileName_le serial) hbeside
  exact ⟨_, hplace, h.barred _ hplace⟩

/-- A key that is not stored, and not stranded either, changes no file. -/
theorem file?_of_refused {fault : KeyError} (h : store d dir serial text = (.error fault, d'))
    (hfree : ∀ made start, ¬ Strands d dir serial text made start) (place : Place) :
    d'.file? place = d.file? place := by
  rw [store] at h
  split at h
  · rw [(Prod.mk.inj h).2]
  · next hkey =>
    split at h
    · rw [(Prod.mk.inj h).2]
    · next made hmade =>
      have hgrown := Disk.grown_makeDirs hmade
      split at h
      · rw [← (Prod.mk.inj h).2]
        exact hgrown.file?_eq place
      · next written hwrite =>
        split at h
        · next fault hrename =>
          -- What has been written could not be moved, so the place of the key is barred.
          obtain ⟨start, hl, hstart, rfl⟩ := Disk.write_eq_ok_iff.mp hwrite
          exfalso
          refine hfree made start ⟨by simpa [Option.isSome_iff_ne_none] using hkey, hmade, hl,
            hstart, fun place hplace => ?_⟩
          by_contra hdir
          obtain ⟨written, hwrite', hmoved⟩ :=
            (Disk.write_rename_iff (isPlain_keyScratch serial)).mpr
              ⟨start, place, hl, hstart, hplace, hdir, rfl⟩
          obtain rfl := Except.ok.inj (hwrite.symm.trans hwrite')
          exact absurd (hrename.symm.trans hmoved) (by simp)
        · exact absurd (Prod.mk.inj h).1 (by simp)

/-- A key that is stored is in its file, and what was beside it has gone. -/
theorem file?_of_stored (h : store d dir serial text = (.ok (), d')) :
    ∃ start place, start.getLast? = some (keyScratchName serial) ∧
      d'.locate (path dir) = .ok place ∧ ∀ other, d'.file? other =
        if other = place then some (Text.bytes text)
        else if other = start then none else d.file? other := by
  obtain ⟨-, made, start, place, hgrown, hl, hfree, hplace, hfree', rfl⟩ := store_eq_ok h
  have hfrom := Disk.ne_nil_of_locate (isPlain_keyScratch serial) hl
  have hto := Disk.ne_nil_of_locate isPlain_key hplace
  have hspares : Disk.Spares (fun _ => False) made (Disk.moved made start place (Text.bytes text)) :=
    Disk.spares_moved hfrom hto hfree hfree' not_false not_false
  refine ⟨start, place, Disk.getLast?_locate (isPlain_keyScratch serial) hl,
    hspares.locate hplace, fun other => ?_⟩
  rw [Disk.file?_moved hfrom hto, hgrown.file?_eq]

/-- At whichever step a key breaks off, only the file beside may have come or changed. -/
theorem file?_of_breaksOff (h : BreaksOff (scratchPath dir serial) d d') {place : Place}
    (hplace : place.getLast? ≠ some (keyScratchName serial)) : d'.file? place = d.file? place :=
  Disk.file?_of_get?_eq (h.get?_eq (isPlain_keyScratch serial) hplace)

end Store

end License.KeyCache

namespace Account

open License.KeyCache (keyScratchName_injective)

variable {s s' : Shared} {place : Disk.Place} {n : Nat}

/-- The number that a name was made of is not the next one. -/
theorem keyScratchName_notMem {serial : Nat} (hn : n < serial) :
    keyScratchName n ∉ keyNames serial := by
  intro hmem
  rcases List.mem_cons.mp hmem with heq | hmem
  · have hsame := keyScratchName_injective heq
    omega
  · exact License.KeyCache.keyScratchName_ne n (List.mem_singleton.mp hmem)

theorem keyScratchName_ne_settings (n : Nat) : keyScratchName n ≠ SettingsFile.fileName ∧
    keyScratchName n ≠ SettingsFile.scratchName := by
  have hself : keyScratchName n ∈ keyNames n := List.mem_cons_self
  constructor
  · intro heq
    exact settings_notMem_keyNames n (heq ▸ hself)
  · intro heq
    exact scratch_notMem_keyNames n (heq ▸ hself)

/-- Settings are written elsewhere. -/
theorem file?_of_apply (store : SettingsStore) (d : Disk) (changes : Entries)
    (hplace : place.getLast? = some (keyScratchName n)) :
    (store.apply d changes).2.2.file? place = d.file? place := by
  have hname := keyScratchName_ne_settings n
  cases store with
  | memory settings fault => cases fault <;> rfl
  | file f =>
    show (SettingsFile.write d f.dir (f.memory.merge changes)).2.file? place = d.file? place
    generalize hwrite : SettingsFile.write d f.dir (f.memory.merge changes) = outcome
    obtain ⟨result, d'⟩ := outcome
    cases result with
    | error fault =>
      have hends := SettingsFile.breaksOff_of_write hwrite
      have hbeside : place.getLast? ≠ some SettingsFile.scratchName := by
        rw [hplace]
        exact fun heq => hname.2 (Option.some.inj heq)
      exact Disk.file?_of_get?_eq (hends.get?_eq isPlain_scratch hbeside)
    | ok =>
      obtain ⟨made, start, file, hmade, hl, -, hfile, -, rfl⟩ := SettingsFile.write_eq_ok_iff.mp hwrite
      have hstart := Disk.getLast?_locate isPlain_scratch hl
      have hlast := Disk.getLast?_locate isPlain_settings hfile
      rw [← (Disk.grown_makeDirs hmade).file?_eq]
      apply Disk.file?_congr
      rw [SettingsFile.get?_moved hl hfile, if_neg, if_neg]
      · intro heq
        exact hname.2 (Option.some.inj (hplace.symm.trans (heq ▸ hstart)))
      · intro heq
        exact hname.1 (Option.some.inj (hplace.symm.trans (heq ▸ hlast)))

/-- A key is written under a new name, so what is left from others stays. -/
theorem file?_of_store (hn : n < s.serial) (hplace : place.getLast? = some (keyScratchName n))
    (text : String) : (License.KeyCache.store s.disk s.keyDir s.serial text).2.file? place =
      s.disk.file? place := by
  obtain ⟨made, hgrown, -, honly⟩ := exists_onlyAt_store s.disk s.keyDir s.serial text
  rw [← hgrown.file?_eq]
  exact Disk.file?_congr (honly.get?_eq place _ hplace (keyScratchName_notMem hn))

/-- Numbers only go up. -/
theorem serial_of_step {c : Call} {r : Reply c} (hs : s.step c = .reply r s') :
    s.serial ≤ s'.serial := by
  cases c with
  | auth c =>
    rw [(replies_of_auth hs).2]
  | storeKey text =>
    rw [Shared.step_storeKey] at hs
    rw [← (Outcome.reply.inj hs).2]
    exact Nat.le_succ s.serial
  | apply changes => rw [← (Outcome.reply.inj hs).2]
  | _ => rw [Shared.rest_eq_of_step hs (by simp) (by simp) (by simp)]

/-- No step takes away or changes what is left from a key that has been written before. -/
theorem leftover_of_step {c : Call} {r : Reply c} (hs : s.step c = .reply r s')
    (hn : n < s.serial) (hplace : place.getLast? = some (keyScratchName n)) :
    s'.disk.file? place = s.disk.file? place := by
  cases c with
  | apply changes =>
    rw [← (Outcome.reply.inj hs).2]
    exact file?_of_apply s.store s.disk changes hplace
  | storeKey text =>
    have hkept := file?_of_store hn hplace text
    rw [Shared.step_storeKey] at hs
    rw [← (Outcome.reply.inj hs).2]
    generalize (License.KeyCache.store s.disk s.keyDir s.serial text).2 = d at hkept ⊢
    exact hkept
  | _ => rw [(Shared.frames_of_step hs).disk_eq trivial]

/-- So it is there after every run. -/
theorem leftover_of_reaches {ι α : Type} [DecidableEq ι] {w₀ w : World interface Shared ι α}
    {log : Trace interface ι} (h : World.Reaches Shared.step w₀ log w) (hn : n < w₀.state.serial)
    (hplace : place.getLast? = some (keyScratchName n)) :
    w₀.state.serial ≤ w.state.serial ∧
      w.state.disk.file? place = w₀.state.disk.file? place := by
  apply h.invariant (fun s => w₀.state.serial ≤ s.serial ∧
    s.disk.file? place = w₀.state.disk.file? place) ⟨Nat.le_refl _, rfl⟩
  intro s c r s' hkept hs
  obtain ⟨hserial, hfile⟩ := hkept
  have hn' : n < s.serial := Nat.lt_of_lt_of_le hn hserial
  exact ⟨Nat.le_trans hserial (serial_of_step hs), (leftover_of_step hs hn' hplace).trans hfile⟩

end Account

namespace License.KeyCache

open Account (Shared interface keyScratchName)
open Disk (BreaksOff Place Rooted)

/-- A key that is stored changes its own file, and takes what was beside it; a key that is not
changes no file, unless it is stranded. Then a directory is in its place, and the file to which it
was written first is left with the whole key. Nothing in any run takes such a file away again, and
each key has another one, so they add up. A write that breaks off for another reason can leave a
file of that name only. -/
theorem stranded_key_stays_beside (d : Disk) (dir text : String) (serial : Nat) :
    (∀ d', store d dir serial text = (.ok (), d') →
      ∃ start place, start.getLast? = some (keyScratchName serial) ∧
        d'.locate (path dir) = .ok place ∧ ∀ other, d'.file? other =
          if other = place then some (Text.bytes text)
          else if other = start then none else d.file? other) ∧
    (∀ d' fault, store d dir serial text = (.error fault, d') →
      (∀ made start, ¬ Strands d dir serial text made start) →
      ∀ place, d'.file? place = d.file? place) ∧
    (∀ made start, Strands d dir serial text made start →
      (∃ fault, (store d dir serial text).1 = .error fault) ∧
      start.getLast? = some (keyScratchName serial) ∧
      (∀ other, (store d dir serial text).2.file? other =
        if other = start then some (Text.bytes text) else d.file? other) ∧
      (Rooted d.home dir →
        ∃ place, made.locate (path dir) = .ok place ∧ made.get? place = some .directory)) ∧
    (∀ d', BreaksOff (scratchPath dir serial) d d' → ∀ place : Place,
      place.getLast? ≠ some (keyScratchName serial) → d'.file? place = d.file? place) ∧
    (∀ other, keyScratchName other = keyScratchName serial → other = serial) ∧
    ∀ (ι α : Type) [DecidableEq ι] (w₀ w : World interface Shared ι α) (log : Trace interface ι),
      World.Reaches Shared.step w₀ log w → serial < w₀.state.serial → ∀ place : Place,
        place.getLast? = some (keyScratchName serial) →
        serial < w.state.serial ∧ w.state.disk.file? place = w₀.state.disk.file? place := by
  refine ⟨fun d' => file?_of_stored, fun d' fault => file?_of_refused, fun made start h => ?_,
    fun d' h place => file?_of_breaksOff h, fun other => keyScratchName_injective, ?_⟩
  · obtain ⟨fault, hstore⟩ := h.store_eq
    exact ⟨⟨fault, by rw [hstore]⟩, Disk.getLast?_locate (Account.isPlain_keyScratch serial) h.beside,
      h.file?_eq, h.exists_directory⟩
  · intro ι α _ w₀ w log h hn place hplace
    obtain ⟨hserial, hfile⟩ := Account.leftover_of_reaches h hn hplace
    exact ⟨Nat.lt_of_lt_of_le hn hserial, hfile⟩

section Sample

open Entitlement (sampleKeyText parse?_sampleKeyText)

/-- A disk with a directory where the key is to be. -/
def barredDisk : Disk := ⟨"/", [(["k"], .directory), (["k", "public.key"], .directory)]⟩

/-- A key that could not be stored has left its text under another name. -/
theorem refused_key_leaves_file : ∃ fault d',
    store barredDisk "/k" 0 sampleKeyText = (.error fault, d') ∧
    barredDisk.file? ["k", ".public.key.tmp.0"] = none ∧
    d'.file? ["k", ".public.key.tmp.0"] = some (Text.bytes sampleKeyText) := by
  have hplace : barredDisk.locate (path "/k") = .ok ["k", "public.key"] := by decide +kernel
  have hstrands : Strands barredDisk "/k" 0 sampleKeyText barredDisk ["k", ".public.key.tmp.0"] := by
    refine ⟨?_, by decide +kernel, by decide +kernel, by decide +kernel, fun place hl => ?_⟩
    · rw [parse?_sampleKeyText]
      rfl
    · rw [← Except.ok.inj (hplace.symm.trans hl)]
      rfl
  obtain ⟨fault, hstore⟩ := hstrands.store_eq
  refine ⟨fault, _, hstore, rfl, ?_⟩
  rw [Disk.file?_put (by decide), if_pos rfl]

end Sample

end License.KeyCache

end AccountGate
