import AccountGate.Proofs.Disk.BreakingOff
import AccountGate.Proofs.Disk.Children

/-!
What is left alone at places of some kind. Main statements: operations that write files at other
places leave it alone, those that succeed and those that break off; so what a path led to there is
still what it leads to, and no file has come there.
-/

namespace AccountGate.Disk

/-- Places of some kind hold what they held, but for directories that have come, and no directory
has gone anywhere. -/
structure Spares (P : Place → Prop) (d d' : Disk) : Prop where
  home_eq : d'.home = d.home
  directory : ∀ place, d.get? place = some .directory → d'.get? place = some .directory
  get?_eq : ∀ place, P place → d'.get? place = d.get? place ∨
    d.get? place = none ∧ d'.get? place = some .directory

theorem Grown.spares {d d' : Disk} (h : Grown d d') (P : Place → Prop) : Spares P d d' :=
  ⟨h.home_eq, fun _ => h.get?_of_some, fun place _ => h.get?_eq place⟩

namespace Spares

variable {P : Place → Prop} {d d' d'' : Disk} {place : Place}

theorem refl (P : Place → Prop) (d : Disk) : Spares P d d := (Grown.refl d).spares P

theorem trans (h : Spares P d d') (h' : Spares P d' d'') : Spares P d d'' := by
  refine ⟨h'.home_eq.trans h.home_eq, fun place hdir => h'.directory place (h.directory place hdir),
    fun place hplace => ?_⟩
  rcases h.get?_eq place hplace with heq | ⟨hnone, hdir⟩
  · rw [← heq]
    exact h'.get?_eq place hplace
  · exact .inr ⟨hnone, h'.directory place hdir⟩

/-- A file comes, changes or goes at one place. -/
theorem of_one (hhome : d'.home = d.home)
    (h : ∀ other, other ≠ place → d'.get? other = d.get? other) (hplace : ¬ P place)
    (hfree : d.get? place ≠ some .directory) : Spares P d d' := by
  refine ⟨hhome, fun other hdir => ?_, fun other hother => .inl (h other ?_)⟩
  · rw [h other, hdir]
    rintro rfl
    exact hfree hdir
  · rintro rfl
    exact hplace hother

theorem put (hne : place ≠ []) (hplace : ¬ P place) (hfree : d.get? place ≠ some .directory)
    (data : Bytes) : Spares P d (d.put place (.file data)) :=
  .of_one rfl (fun other hother => by rw [get?_put d hne, if_neg hother]) hplace hfree

theorem erase (hne : place ≠ []) (hplace : ¬ P place) (hfree : d.get? place ≠ some .directory) :
    Spares P d (d.erase place) :=
  .of_one rfl (fun other hother => by rw [get?_erase d hne, if_neg hother]) hplace hfree

theorem locate (h : Spares P d d') {path : String} (hl : d.locate path = .ok place) :
    d'.locate path = .ok place := by
  obtain ⟨names, hnames, hfollow⟩ := locate_eq_ok_iff.mp hl
  exact locate_eq_ok_iff.mpr
    ⟨names, h.home_eq ▸ hnames, follow_of_directories h.directory hfollow⟩

/-- What a path led to at a place that is spared is what it leads to. -/
theorem look (h : Spares P d d') {path : String} {node : Node}
    (hpath : ∀ place, d.locate path = .ok place → P place) (hlook : d.look path = .ok node) :
    d'.look path = .ok node := by
  obtain ⟨place, hl, hnode⟩ := look_eq_ok_iff.mp hlook
  refine look_eq_ok_iff.mpr ⟨place, h.locate hl, ?_⟩
  rcases h.get?_eq place (hpath place hl) with heq | ⟨hnone, _⟩
  · exact heq.trans hnode
  · exact absurd (hnone.symm.trans hnode) (by simp)

theorem get?_ne_file (h : Spares P d d') (hplace : P place) {data : Bytes}
    (hfile : d.get? place ≠ some (.file data)) : d'.get? place ≠ some (.file data) := by
  rcases h.get?_eq place hplace with heq | ⟨_, hdir⟩
  · rwa [heq]
  · simp [hdir]

end Spares

/-- A write that breaks off spares all files of other names. -/
theorem BreaksOff.spares {d d' : Disk} {dir scratch : String} {P : Place → Prop}
    (h : BreaksOff (join dir scratch) d d') (hscratch : IsPlain scratch)
    (hP : ∀ place, P place → place.getLast? ≠ some scratch) : Spares P d d' := by
  cases h with
  | making hmade => exact hmade.spares P
  | @writing made place hmade hplace hfree data =>
    have hlast := getLast?_locate hscratch hplace
    exact (hmade.spares P).trans
      (.put (ne_nil_of_locate hscratch hplace) (fun hp => hP place hp hlast) hfree data)

section Moved

variable {d : Disk} {start place : Place} {data : Bytes}

theorem spares_moved {P : Place → Prop} (hstart : start ≠ []) (hne : place ≠ [])
    (hfree : d.get? start ≠ some .directory) (hfree' : d.get? place ≠ some .directory)
    (hP : ¬ P start) (hP' : ¬ P place) : Spares P d (moved d start place data) := by
  have hput := Spares.put hstart hP hfree data
  have hfile : (d.put start (.file data)).get? start ≠ some .directory := by
    simp [get?_put d hstart]
  refine (hput.trans (.erase hstart hP hfile)).trans (.put hne hP' ?_ data)
  rw [get?_erase _ hstart, get?_put d hstart]
  split
  · simp
  · exact hfree'

theorem get?_moved_self (hne : place ≠ []) :
    (moved d start place data).get? place = some (.file data) := by
  rw [moved, get?_put _ hne, if_pos rfl]

end Moved

end AccountGate.Disk
