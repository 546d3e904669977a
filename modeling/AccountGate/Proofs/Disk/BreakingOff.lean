import AccountGate.Proofs.Disk.Growth

/-!
Writes that break off. A file is written beside the one that it is to replace, after the
directories on the way have been made; at whatever step this ends, the disk is as it was but for
directories that have come and for the file beside. Main statements: no other place changes, and
what a path led to is still what it leads to.
-/

namespace AccountGate.Disk

theorem look_eq_ok_iff {d : Disk} {path : String} {node : Node} : d.look path = .ok node ↔
    ∃ place, d.locate path = .ok place ∧ d.get? place = some node := by
  rw [look]
  cases d.locate path with
  | error e => simp
  | ok place =>
    simp only [Except.ok.injEq, exists_eq_left']
    cases d.get? place with
    | none => simp
    | some other => simp

/-- The disks on which a write can end early: with some directories made, and then perhaps with
something, not always the whole of it, in the file that was to be moved. -/
inductive BreaksOff (beside : String) (d : Disk) : Disk → Prop
  | making {made : Disk} (hmade : Grown d made) : BreaksOff beside d made
  | writing {made : Disk} {place : Place} (hmade : Grown d made)
      (hplace : made.locate beside = .ok place) (hfree : made.get? place ≠ some .directory)
      (data : Bytes) : BreaksOff beside d (made.put place (.file data))

namespace BreaksOff

variable {d d' : Disk} {dir scratch : String}

/-- All that a write can leave behind, where it ends early, is directories and the file beside. -/
theorem get?_eq (h : BreaksOff (join dir scratch) d d') (hscratch : IsPlain scratch) {place : Place}
    (hplace : place.getLast? ≠ some scratch) : d'.get? place = d.get? place ∨
      d.get? place = none ∧ d'.get? place = some .directory := by
  cases h with
  | making hmade => exact hmade.get?_eq place
  | @writing made beside hmade hbeside hfree data =>
    have hne : place ≠ beside := by
      rintro rfl
      exact hplace (getLast?_locate hscratch hbeside)
    rw [get?_put made (ne_nil_of_locate hscratch hbeside), if_neg hne]
    exact hmade.get?_eq place

theorem locate (h : BreaksOff (join dir scratch) d d') (hscratch : IsPlain scratch) {path : String}
    {place : Place} (hl : d.locate path = .ok place) : d'.locate path = .ok place := by
  cases h with
  | making hmade => exact hmade.locate hl
  | @writing made beside hmade hbeside hfree data =>
    have honly : OnlyAt [scratch] made (made.put beside (.file data)) :=
      .put (getLast?_locate hscratch hbeside) List.mem_cons_self hfree data
    exact honly.locate_iff.mpr (hmade.locate hl)

/-- What a path led to is what it leads to, unless it is the path of the file beside. -/
theorem look (h : BreaksOff (join dir scratch) d d') (hscratch : IsPlain scratch)
    {base name : String} (hname : IsPlain name) (hne : name ≠ scratch) {node : Node}
    (hlook : d.look (join base name) = .ok node) : d'.look (join base name) = .ok node := by
  obtain ⟨place, hl, hnode⟩ := look_eq_ok_iff.mp hlook
  have hlast : place.getLast? ≠ some scratch := by
    rw [getLast?_locate hname hl]
    exact fun heq => hne (Option.some.inj heq)
  refine look_eq_ok_iff.mpr ⟨place, h.locate hscratch hl, ?_⟩
  rcases h.get?_eq hscratch hlast with heq | ⟨hnone, _⟩
  · exact heq.trans hnode
  · exact absurd (hnone.symm.trans hnode) (by simp)

end BreaksOff

end AccountGate.Disk
