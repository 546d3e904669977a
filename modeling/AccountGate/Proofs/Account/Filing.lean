import AccountGate.Proofs.Account.Merge
import AccountGate.Proofs.Account.Settled
import AccountGate.Proofs.Disk.BreakingOff
import AccountGate.Proofs.Json.Texts
import Mathlib.Data.List.DropRight

/-!
Settings and their file. Main statements: settings are read back from their text, whatever keys and
values they have; settings that have been stored are read back from the file, with all changes in
the order in which they came; and changes that could not be stored stay in memory all the same,
while the file keeps what was stored last.
-/

namespace AccountGate.Account

open Disk (BreaksOff)

namespace Settings

/-- The last change of a key counts, and where there is none, what was there before. -/
theorem get?_merge (s : Settings) (changes : Entries) (key : String) :
    (s.merge changes).get? key = (changes.reverse.lookup key).or (s.get? key) := by
  induction changes generalizing s with
  | nil => rfl
  | cons change rest ih =>
    obtain ⟨k, v⟩ := change
    show ((s.insert k v).merge rest).get? key = _
    rw [ih, get?_insert, List.reverse_cons, List.lookup_append, Option.or_assoc]
    congr 1
    by_cases hkey : key = k
    · simp [hkey]
    · simp [List.lookup_cons, hkey, beq_false_of_ne hkey]

theorem get?_merge_of_sorted {es : Entries} (h : es.Sorted) (s : Settings) (key : String) :
    (s.merge es).get? key = (es.find? key).or (s.get? key) := by
  induction es generalizing s with
  | nil => rfl
  | cons e rest ih =>
    obtain ⟨hfirst, hrest⟩ := List.pairwise_cons.mp h
    show ((s.insert e.1 e.2).merge rest).get? key = _
    rw [ih hrest, get?_insert, Entries.find?]
    by_cases hkey : key = e.1
    · rw [if_pos hkey, if_pos hkey, Entries.find?_eq_none (hkey ▸ hfirst)]
      rfl
    · rw [if_neg hkey, if_neg hkey]

theorem ofEntries_entries (s : Settings) : ofEntries s.entries = s := by
  refine ext fun key => ?_
  rw [ofEntries, get?_merge_of_sorted s.sorted]
  exact Option.or_none

theorem mapM_textMember? (es : Entries) : (Json.textMembers es).mapM textMember? = some es := by
  induction es with
  | nil => rfl
  | cons e rest ih =>
    rw [Json.textMembers, List.map_cons, List.mapM_cons, ← Json.textMembers, ih]
    rfl

/-- Settings are read back from their text. -/
theorem parse?_render (s : Settings) : parse? (Text.bytes s.render) = some s := by
  rw [parse?, render, Json.parseMembers?_renderTexts]
  simp only [Option.bind_eq_bind, Option.bind_some, mapM_textMember?, ofEntries_entries]
  rfl

theorem merge_append (s : Settings) (a b : Entries) : s.merge (a ++ b) = (s.merge a).merge b :=
  List.foldl_append

end Settings

namespace SettingsFile

variable {f g : SettingsFile} {d d' e : Disk} {dir : String} {s : Settings} {node : Disk.Node}

/-- What is read depends on nothing but what the path of the file leads to. -/
theorem load_congr (h : ∀ node, d'.look (path dir) = .ok node ↔ d.look (path dir) = .ok node) :
    load d' dir = load d dir := by
  cases hlook : d.look (path dir) with
  | ok node =>
    have hlook' := (h node).mpr hlook
    simp only [load, Disk.exists?, Disk.readText, Disk.readBytes, hlook, hlook']
  | error fault =>
    cases hlook' : d'.look (path dir) with
    | ok node => exact absurd (hlook.symm.trans ((h node).mp hlook')) (by simp)
    | error fault' => simp only [load, Disk.exists?, hlook, hlook', Except.isOk, Except.toBool,
        Bool.false_eq_true, if_false]

theorem load_of_missing (h : d.exists? (path dir) = false) : load d dir = .ok ⟨dir, .empty⟩ := by
  rw [load, h]
  rfl

theorem load_of_look (h : d.look (path dir) = .ok (.file (Text.bytes s.render))) :
    load d dir = .ok ⟨dir, s⟩ := by
  obtain ⟨place, hplace, hnode⟩ := Disk.look_eq_ok_iff.mp h
  have hthere : d.exists? (path dir) = true := by
    rw [Disk.exists?, h]
    rfl
  rw [load, if_pos hthere, Disk.readText_eq hplace hnode (Text.decode?_bytes _)]
  simp only [Settings.parse?_render]

theorem look_of_write (h : write d dir s = (.ok (), d')) :
    d'.look (path dir) = .ok (.file (Text.bytes s.render)) := by
  obtain ⟨made, place, file, _, hl, hdir, hfile, hfree, rfl⟩ := write_eq_ok_iff.mp h
  refine Disk.look_eq_ok_iff.mpr ⟨file, locate_moved hl hdir hfile hfree s hfile, ?_⟩
  rw [get?_moved hl hfile, if_pos rfl]

/-- A write that fails has broken off, at whichever step. -/
theorem breaksOff_of_write {fault : Error} (h : write d dir s = (.error fault, d')) :
    BreaksOff (scratchPath dir) d d' := by
  rw [write] at h
  cases hmade : d.makeDirs dir with
  | error e =>
    rw [hmade] at h
    obtain ⟨_, rfl⟩ := Prod.mk.inj h
    exact .making (.refl d)
  | ok made =>
    rw [hmade] at h
    dsimp only at h
    have hgrown := Disk.grown_makeDirs hmade
    cases hwrite : made.write (scratchPath dir) (Text.bytes s.render) with
    | error e =>
      rw [hwrite] at h
      obtain ⟨_, rfl⟩ := Prod.mk.inj h
      exact .making hgrown
    | ok written =>
      rw [hwrite] at h
      dsimp only at h
      obtain ⟨place, hl, hfree, rfl⟩ := Disk.write_eq_ok_iff.mp hwrite
      split at h
      · obtain ⟨_, rfl⟩ := Prod.mk.inj h
        exact .writing hgrown hl hfree _
      · exact absurd (Prod.mk.inj h).1 (by simp)

theorem apply_eq_iff {changes : Entries} {result : Except Error Unit} :
    f.apply d changes = (result, g, e) ↔
      write d f.dir (f.memory.merge changes) = (result, e) ∧
        g = { f with memory := f.memory.merge changes } := by
  rw [apply]
  simp only [Prod.ext_iff]
  constructor
  · rintro ⟨hresult, hg, he⟩
    exact ⟨⟨hresult, he⟩, hg.symm⟩
  · rintro ⟨⟨hresult, he⟩, hg⟩
    exact ⟨hresult, hg.symm, he⟩

/-- What is in memory afterwards does not depend on the disk. -/
theorem snd_apply (f : SettingsFile) (d : Disk) (changes : Entries) :
    (f.apply d changes).2.1 = { f with memory := f.memory.merge changes } := rfl

/-- A call that has been made: the changes that it asked for, and whether they were stored. -/
structure Filing where
  changes : Entries
  stored : Bool

/-- All that was asked for, in order. -/
def asked (filings : List Filing) : Entries := filings.flatMap Filing.changes

/-- What was asked for up to the last call that stored it. -/
def onFile (filings : List Filing) : Entries :=
  asked (filings.rdropWhile fun filing => !filing.stored)

/-- Settings and a disk after some calls, while nobody else writes the file. -/
inductive Filed (f : SettingsFile) (d : Disk) : List Filing → SettingsFile → Disk → Prop
  | start : Filed f d [] f d
  | called {filings : List Filing} {g g' : SettingsFile} {e e' : Disk} (h : Filed f d filings g e)
      {changes : Entries} {result : Except Error Unit}
      (happly : g.apply e changes = (result, g', e')) :
      Filed f d (filings ++ [⟨changes, result.isOk⟩]) g' e'
  /-- A fault that disks do not have here ends a call, at whichever step: the disk is full, the
  file must not be written, its mode cannot be set. -/
  | broken {filings : List Filing} {g : SettingsFile} {e e' : Disk} (h : Filed f d filings g e)
      (changes : Entries) (hends : BreaksOff (scratchPath g.dir) e e') :
      Filed f d (filings ++ [⟨changes, false⟩]) (g.apply e changes).2.1 e'
  | elsewhere {filings : List Filing} {g : SettingsFile} {e e' : Disk} (h : Filed f d filings g e)
      (hsame : e'.look (path g.dir) = e.look (path g.dir)) : Filed f d filings g e'

theorem asked_snoc (filings : List Filing) (filing : Filing) :
    asked (filings ++ [filing]) = asked filings ++ filing.changes := by
  simp [asked]

theorem onFile_snoc_stored (filings : List Filing) (changes : Entries) :
    onFile (filings ++ [⟨changes, true⟩]) = asked (filings ++ [⟨changes, true⟩]) := by
  rw [onFile, List.rdropWhile_concat_neg _ _ _ (by simp)]

theorem onFile_snoc_refused (filings : List Filing) (changes : Entries) :
    onFile (filings ++ [⟨changes, false⟩]) = onFile filings := by
  rw [onFile, List.rdropWhile_concat_pos _ _ _ (by simp), onFile]

theorem onFile_of_refused {filings : List Filing} (h : ∀ filing ∈ filings, filing.stored = false) :
    onFile filings = [] := by
  rw [onFile, List.rdropWhile_eq_nil_iff.mpr fun filing hmem => by simp [h filing hmem]]
  rfl

theorem onFile_of_stored {filings : List Filing} (h : ∀ filing ∈ filings, filing.stored = true) :
    onFile filings = asked filings := by
  rw [onFile, List.rdropWhile_eq_self_iff.mpr fun hne => by simp [h _ (List.getLast_mem hne)]]

/-- What the path of the file leads to after some calls: what was stored last, and before anything
was stored, what was there. -/
def Holds (f : SettingsFile) (d : Disk) (filings : List Filing) (node : Disk.Node) : Prop :=
  if filings.any Filing.stored then
    node = .file (Text.bytes (f.memory.merge (onFile filings)).render)
  else d.look (path f.dir) = .ok node

theorem holds_snoc_refused {filings : List Filing} {changes : Entries} :
    Holds f d (filings ++ [⟨changes, false⟩]) node ↔ Holds f d filings node := by
  rw [Holds, Holds, onFile_snoc_refused]
  simp

theorem holds_snoc_stored {filings : List Filing} {changes : Entries} :
    Holds f d (filings ++ [⟨changes, true⟩]) node ↔
      node = .file (Text.bytes (f.memory.merge (asked filings ++ changes)).render) := by
  rw [Holds, onFile_snoc_stored, asked_snoc]
  simp

namespace Filed

variable {filings : List Filing}

theorem snoc (h : Filed f d filings g e) (changes : Entries) (stored : Bool)
    (hresult : (g.apply e changes).1.isOk = stored) :
    Filed f d (filings ++ [⟨changes, stored⟩]) (g.apply e changes).2.1 (g.apply e changes).2.2 :=
  hresult ▸ h.called rfl

/-- In memory is all that was asked for, stored or not. -/
theorem eq_merge (h : Filed f d filings g e) :
    g = { f with memory := f.memory.merge (asked filings) } := by
  induction h with
  | start => rfl
  | called h happly ih =>
    obtain ⟨-, rfl⟩ := apply_eq_iff.mp happly
    rw [ih, asked_snoc, Settings.merge_append]
  | broken h changes hends ih => rw [snd_apply, ih, asked_snoc, Settings.merge_append]
  | elsewhere h hsame ih => exact ih

theorem dir_eq (h : Filed f d filings g e) : g.dir = f.dir := by
  rw [h.eq_merge]

/-- A call that breaks off leaves the file as it was. -/
theorem look_of_breaksOff {d d' : Disk} (h : BreaksOff (scratchPath dir) d d')
    (hlook : d.look (path dir) = .ok node) : d'.look (path dir) = .ok node :=
  h.look isPlain_scratch isPlain_settings (by decide) hlook

theorem look_of_holds (h : Filed f d filings g e) (hnode : Holds f d filings node) :
    e.look (path f.dir) = .ok node := by
  induction h generalizing node with
  | start => simpa [Holds] using hnode
  | @called filings g g' e e' h changes result happly ih =>
    obtain ⟨hwrite, rfl⟩ := apply_eq_iff.mp happly
    rw [h.dir_eq] at hwrite
    cases result with
    | ok =>
      rw [show (Except.ok () : Except Error Unit).isOk = true from rfl, holds_snoc_stored] at hnode
      rw [look_of_write hwrite, hnode, h.eq_merge, Settings.merge_append]
    | error fault =>
      rw [show (Except.error fault : Except Error Unit).isOk = false from rfl,
        holds_snoc_refused] at hnode
      exact look_of_breaksOff (breaksOff_of_write hwrite) (ih hnode)
  | broken h changes hends ih =>
    rw [h.dir_eq] at hends
    exact look_of_breaksOff hends (ih (holds_snoc_refused.mp hnode))
  | elsewhere h hsame ih =>
    rw [h.dir_eq] at hsame
    exact hsame.trans (ih hnode)

/-- Where something has been stored, it is read back. -/
theorem load_of_stored (h : Filed f d filings g e)
    (hstored : ∃ filing ∈ filings, filing.stored = true) :
    load e f.dir = .ok { f with memory := f.memory.merge (onFile filings) } := by
  refine load_of_look (h.look_of_holds ?_)
  rw [Holds, if_pos (List.any_eq_true.mpr hstored)]

/-- Where nothing has been stored, what was read is read again, or a directory that was made on the
way to the file has brought one to light. -/
theorem load_of_refused (h : Filed f d filings g e)
    (hrefused : ∀ filing ∈ filings, filing.stored = false) : load e f.dir = load d f.dir ∨
      d.exists? (path f.dir) = false ∧ e.exists? (path f.dir) = true := by
  have hnone : ¬ filings.any Filing.stored = true := by simpa using hrefused
  have hkept (node : Disk.Node) (hlook : d.look (path f.dir) = .ok node) :
      e.look (path f.dir) = .ok node := h.look_of_holds (by rwa [Holds, if_neg hnone])
  cases hlook : d.look (path f.dir) with
  | ok node => exact .inl (load_congr fun other => by rw [hlook, hkept node hlook])
  | error fault =>
    cases hlook' : e.look (path f.dir) with
    | ok node => exact .inr (by simp [Disk.exists?, hlook, hlook', Except.isOk, Except.toBool])
    | error fault' => exact .inl (load_congr fun other => by simp [hlook, hlook'])

theorem look_eq_of_nil (h : Filed f d [] g e) : e.look (path f.dir) = d.look (path f.dir) := by
  generalize hnil : ([] : List Filing) = filings at h
  induction h with
  | start => rfl
  | called h happly ih => exact absurd hnil (by simp)
  | broken h changes hends ih => exact absurd hnil (by simp)
  | elsewhere h hsame ih =>
    rw [h.dir_eq] at hsame
    exact hsame.trans (ih hnil)

end Filed

/-- Settings that are stored, with whatever keys and values, are those that the file is read back
to: each key has the last text that was stored under it, or else the one that it had at the start. -/
theorem stored_changes_are_reread {filings : List Filing} (hrun : Filed f d filings g e)
    (hstored : ∀ filing ∈ filings, filing.stored = true)
    (hstart : filings = [] → load d f.dir = .ok f) :
    load e f.dir = .ok g ∧
    (∀ key, g.memory.get? key = ((asked filings).reverse.lookup key).or (f.memory.get? key)) ∧
    ∀ s : Settings, Settings.parse? (Text.bytes s.render) = some s := by
  have hmemory := hrun.eq_merge
  refine ⟨?_, fun key => ?_, Settings.parse?_render⟩
  · cases filings with
    | nil =>
      have hsame : load e f.dir = load d f.dir := load_congr fun node => by rw [hrun.look_eq_of_nil]
      rw [hsame, hstart rfl, hmemory]
      rfl
    | cons filing rest =>
      rw [hrun.load_of_stored ⟨filing, List.mem_cons_self, hstored _ List.mem_cons_self⟩,
        onFile_of_stored hstored, ← hmemory]
  · rw [hmemory]
    exact Settings.get?_merge f.memory (asked filings) key

/-- Quotation marks, backslashes, control characters, empty texts and characters beyond the first
plane are read back. -/
theorem odd_texts_are_reread : ∃ g e, Filed ⟨"/cfg", .empty⟩ ⟨"/", []⟩
      [⟨[("\"\\\u0001", "\n😀")], true⟩, ⟨[("", ""), ("a", "\u007f")], true⟩] g e ∧
    load e "/cfg" = .ok g ∧ g.memory.get? "\"\\\u0001" = some "\n😀" ∧
    g.memory.get? "" = some "" ∧ g.memory.get? "a" = some "\u007f" := by
  have hrun := (Filed.start (f := ⟨"/cfg", .empty⟩) (d := ⟨"/", []⟩)).snoc
    [("\"\\\u0001", "\n😀")] true (by decide +kernel) |>.snoc
    [("", ""), ("a", "\u007f")] true (by decide +kernel)
  obtain ⟨hload, hget, -⟩ := stored_changes_are_reread hrun (by simp) (by simp)
  exact ⟨_, _, hrun, hload, by rw [hget]; decide, by rw [hget]; decide, by rw [hget]; decide⟩

/-- A call that fails leaves the file as it was, but what it asked for is in memory from then on.
So, while nobody else writes the file, memory has all that was asked for, and the file what had been
asked for when something was stored last; they agree where the calls refused since then change
nothing. -/
theorem refused_changes_stay_in_memory (f : SettingsFile) (d : Disk) :
    (∀ changes fault g e, f.apply d changes = (.error fault, g, e) →
      g = { f with memory := f.memory.merge changes } ∧
      (∀ place, place.getLast? ≠ some scratchName → e.get? place = d.get? place ∨
        d.get? place = none ∧ e.get? place = some .directory) ∧
      ∀ node, d.look (path f.dir) = .ok node → e.look (path f.dir) = .ok node) ∧
    (load d f.dir = .ok f → ∀ filings g e, Filed f d filings g e →
      g = { f with memory := f.memory.merge (asked filings) } ∧
      (load e f.dir = .ok { f with memory := f.memory.merge (onFile filings) } ∧
          (load e f.dir = .ok g ↔
            f.memory.merge (asked filings) = f.memory.merge (onFile filings)) ∨
        (∀ filing ∈ filings, filing.stored = false) ∧
          d.exists? (path f.dir) = false ∧ e.exists? (path f.dir) = true)) := by
  constructor
  · intro changes fault g e happly
    obtain ⟨hwrite, hmemory⟩ := apply_eq_iff.mp happly
    have hends := breaksOff_of_write hwrite
    exact ⟨hmemory, fun place hplace => hends.get?_eq isPlain_scratch hplace,
      fun node => Filed.look_of_breaksOff hends⟩
  · intro hload filings g e hrun
    have hmemory := hrun.eq_merge
    have hagree (h : load e f.dir = .ok { f with memory := f.memory.merge (onFile filings) }) :
        load e f.dir = .ok g ↔
          f.memory.merge (asked filings) = f.memory.merge (onFile filings) := by
      rw [h, hmemory]
      simp only [Except.ok.injEq, SettingsFile.mk.injEq, true_and]
      exact eq_comm
    refine ⟨hmemory, ?_⟩
    by_cases hstored : ∃ filing ∈ filings, filing.stored = true
    · have hfile := hrun.load_of_stored hstored
      exact .inl ⟨hfile, hagree hfile⟩
    · have hrefused : ∀ filing ∈ filings, filing.stored = false := by simpa using hstored
      rcases hrun.load_of_refused hrefused with hsame | hnew
      · have hfile : load e f.dir = .ok { f with memory := f.memory.merge (onFile filings) } := by
          rw [hsame, hload, onFile_of_refused hrefused]
          rfl
        exact .inl ⟨hfile, hagree hfile⟩
      · exact .inr ⟨hrefused, hnew⟩

section Occupied

/-- Where the directory of the settings should be, there is a file. -/
def occupied : Disk := ⟨"/", [(["cfg"], .file [])]⟩

theorem load_occupied : load occupied "/cfg" = .ok ⟨"/cfg", .empty⟩ :=
  load_of_missing (by decide +kernel)

theorem apply_occupied : ∃ fault, apply ⟨"/cfg", .empty⟩ occupied [("b", "2")] =
    (.error fault, ⟨"/cfg", Settings.empty.insert "b" "2"⟩, occupied) := by
  cases hmade : occupied.makeDirs "/cfg" with
  | error fault => exact ⟨.disk fault, apply_eq_iff.mpr ⟨by rw [write, hmade], rfl⟩⟩
  | ok made =>
    have hnone : (occupied.makeDirs "/cfg").toOption = none := by decide +kernel
    rw [hmade] at hnone
    exact absurd hnone (by simp [Except.toOption])

/-- What could not be stored is still in memory, and not in the file. -/
theorem refused_change_is_kept : ∃ g,
    Filed ⟨"/cfg", .empty⟩ occupied [⟨[("b", "2")], false⟩] g occupied ∧
    g.memory.get? "b" = some "2" ∧ load occupied "/cfg" = .ok ⟨"/cfg", .empty⟩ := by
  obtain ⟨fault, happly⟩ := apply_occupied
  have hrun := (Filed.start (f := ⟨"/cfg", .empty⟩) (d := occupied)).called happly
  obtain ⟨hmemory, hfile | ⟨-, hhidden, hseen⟩⟩ :=
    (refused_changes_stay_in_memory ⟨"/cfg", .empty⟩ occupied).2 load_occupied _ _ _ hrun
  · exact ⟨_, hrun, by rw [hmemory]; rfl, hfile.1⟩
  · exact absurd (hhidden.symm.trans hseen) (by simp)

/-- Memory and file differ after a call that failed. -/
theorem refused_change_is_not_undone : ∃ f d changes fault g e, load d f.dir = .ok f ∧
    f.apply d changes = (.error fault, g, e) ∧ g.memory ≠ f.memory ∧ load e f.dir ≠ .ok g := by
  obtain ⟨fault, happly⟩ := apply_occupied
  have hne : Settings.empty.insert "b" "2" ≠ Settings.empty := by decide
  refine ⟨⟨"/cfg", .empty⟩, occupied, [("b", "2")], fault, _, _, load_occupied, happly, hne, ?_⟩
  rw [load_occupied]
  simpa using hne.symm

end Occupied

end SettingsFile

end AccountGate.Account
