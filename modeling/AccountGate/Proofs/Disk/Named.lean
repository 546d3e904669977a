import AccountGate.Disk.Tree
import AccountGate.Proofs.Text.Pieces

/-!
Files found by their names. Main statement: a path that is a directory and a name leads, where it
leads anywhere, to a place of that name; so files of different names are never at one place.
-/

namespace AccountGate

namespace Disk

/-- A name that leads to something of that name, in whatever directory. -/
structure IsPlain (name : String) : Prop where
  no_slash : '/' ∉ name.toList
  no_stay : staysHere name = false
  no_leave : name ≠ ".."

/-- The last name of a path. -/
theorem getLast?_split {name path : String} (hname : '/' ∉ name.toList)
    (hpath : path.toList = name.toList ∨ ∃ cs, path.toList = cs ++ '/' :: name.toList) :
    (Text.split '/' path).getLast? = some name := by
  have hlast : (Text.pieces '/' path.toList).getLast? = some name.toList := by
    rcases hpath with hpath | ⟨cs, hpath⟩
    · rw [hpath, Text.pieces_of_not_mem hname]
      rfl
    · rw [hpath, Text.pieces_append, Text.pieces_of_not_mem hname, List.getLast?_concat]
  rw [Text.split, List.getLast?_map, hlast]
  simp

/-- One path after another ends with the other. -/
theorem toList_join (base : String) {path : String} (h : path.toList.head? ≠ some '/') :
    (join base path).toList = path.toList ∨
      ∃ cs, (join base path).toList = cs ++ '/' :: path.toList := by
  have hstart : path.startsWith "/" = false := by
    rw [Bool.eq_false_iff, ne_eq, String.startsWith_string_iff]
    rintro ⟨rest, hrest⟩
    exact h (by rw [← hrest]; rfl)
  rw [join, hstart, Bool.or_false]
  split
  · exact .inl rfl
  · split
    · next hend =>
      obtain ⟨front, hfront⟩ := String.Slice.endsWith_string_iff.mp hend
      have hbase : base.toList = front ++ ['/'] := by simpa using hfront.symm
      exact .inr ⟨front, by simp [hbase]⟩
    · exact .inr ⟨base.toList, by simp⟩

theorem IsPlain.head_ne {name : String} (h : IsPlain name) : name.toList.head? ≠ some '/' :=
  fun hhead => h.no_slash (List.mem_of_head? hhead)

/-- The last name from the root on. -/
theorem getLast?_pathNames {home base name : String} {names : List String} (hname : IsPlain name)
    (h : pathNames home (join base name) = .ok names) : names.getLast? = some name := by
  have hpath := toList_join base hname.head_ne
  rw [pathNames] at h
  split at h
  · exact absurd h (by simp)
  · split at h
    · exact absurd h (by simp)
    · split at h
      · exact absurd h (by simp)
      · split at h
        · obtain rfl := Except.ok.inj h
          exact getLast?_split hname.no_slash hpath
        · next hrelative =>
          obtain rfl := Except.ok.inj h
          -- A path without a slash in front is meant from the home directory.
          have hhead : (join base name).toList.head? ≠ some '/' := by
            intro hhead
            apply hrelative
            rw [Bool.or_eq_true, String.startsWith_string_iff]
            left
            obtain ⟨rest, hrest⟩ := List.head?_eq_some_iff.mp hhead
            exact ⟨rest, hrest.symm⟩
          rcases toList_join home hhead with hwhole | ⟨ds, hwhole⟩
          · rw [← hwhole] at hpath
            exact getLast?_split hname.no_slash hpath
          · rcases hpath with hpath | ⟨cs, hpath⟩
            · exact getLast?_split hname.no_slash (.inr ⟨ds, by rw [hwhole, hpath]⟩)
            · refine getLast?_split hname.no_slash (.inr ⟨ds ++ '/' :: cs, ?_⟩)
              rw [hwhole, hpath]
              simp

theorem follow_append {d : Disk} {here place : Place} {names more : List String} :
    d.follow here (names ++ more) = .ok place ↔
      ∃ mid, d.follow here names = .ok mid ∧ d.follow mid more = .ok place := by
  induction names generalizing here with
  | nil => simp [follow]
  | cons name rest ih =>
    rw [List.cons_append, follow, follow]
    split
    · simp
    · simp
    · split
      · simp
      · exact ih

theorem getLast?_locate {d : Disk} {base name : String} {place : Place} (hname : IsPlain name)
    (h : d.locate (join base name) = .ok place) : place.getLast? = some name := by
  rw [locate] at h
  obtain ⟨names, hnames, hfollow⟩ : ∃ names, pathNames d.home (join base name) = .ok names ∧
      d.follow [] names = .ok place := by
    cases hp : pathNames d.home (join base name) with
    | error e =>
      rw [hp] at h
      exact absurd h (by simp [bind, Except.bind])
    | ok names =>
      rw [hp] at h
      exact ⟨names, rfl, h⟩
  obtain ⟨front, rfl⟩ := List.getLast?_eq_some_iff.mp (getLast?_pathNames hname hnames)
  obtain ⟨mid, _, hmid⟩ := follow_append.mp hfollow
  -- The last step enters the name itself.
  rw [follow] at hmid
  split at hmid
  · exact absurd hmid (by simp)
  · exact absurd hmid (by simp)
  · split at hmid
    · exact absurd hmid (by simp)
    · have hleave : (name == "..") = false := beq_false_of_ne hname.no_leave
      rw [follow, enter, hname.no_stay, hleave] at hmid
      obtain rfl := Except.ok.inj hmid
      simp

/-- Files of different names are at different places, whatever became of the disk in between. -/
theorem place_ne {d d' : Disk} {base base' name name' : String} {place place' : Place}
    (hname : IsPlain name) (hname' : IsPlain name') (hne : name ≠ name')
    (h : d.locate (join base name) = .ok place) (h' : d'.locate (join base' name') = .ok place') :
    place ≠ place' := by
  rintro rfl
  have hlast := getLast?_locate hname h
  rw [getLast?_locate hname' h'] at hlast
  exact hne (Option.some.inj hlast).symm

theorem ne_nil_of_locate {d : Disk} {base name : String} {place : Place} (hname : IsPlain name)
    (h : d.locate (join base name) = .ok place) : place ≠ [] := by
  rintro rfl
  exact absurd (getLast?_locate hname h) (by simp)

theorem readText_eq {d : Disk} {path text : String} {place : Place} {data : Bytes}
    (hplace : d.locate path = .ok place) (hnode : d.get? place = some (.file data))
    (htext : Text.decode? data = some text) : d.readText path = .ok text := by
  rw [readText, readBytes, look, hplace]
  simp only [hnode, htext]

end Disk

end AccountGate
