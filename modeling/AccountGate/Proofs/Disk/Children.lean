import AccountGate.Proofs.Disk.Growth

/-!
What lies in a directory. Main statements: a path that is a directory and a name leads to a place in
that directory, and nowhere else; and a path that is a directory, the name of a directory in it and
a name leads to a place that ends in both names.
-/

namespace AccountGate.Disk

/-- What a path puts before a name. -/
def stem (base : String) : List Char :=
  if base.isEmpty then [] else if base.endsWith "/" then base.toList else base.toList ++ ['/']

theorem slash_prefix_iff {cs : List Char} : "/".toList <+: cs ↔ cs.head? = some '/' := by
  have hslash : "/".toList = ['/'] := rfl
  cases cs with
  | nil => simp [hslash]
  | cons c rest => simp [hslash, eq_comm]

theorem toList_join_eq_stem (base : String) {name : String} (h : name.toList.head? ≠ some '/') :
    (join base name).toList = stem base ++ name.toList := by
  have hstart : name.startsWith "/" = false := by
    rwa [Bool.eq_false_iff, ne_eq, String.startsWith_string_iff, slash_prefix_iff]
  rw [join, stem, hstart, Bool.or_false]
  split
  · rfl
  · split
    · simp
    · simp

theorem stem_eq (base : String) : stem base = [] ∨ ∃ front, stem base = front ++ ['/'] := by
  rw [stem]
  split
  · exact .inl rfl
  · split
    · next hend =>
      obtain ⟨front, hfront⟩ := String.Slice.endsWith_string_iff.mp hend
      exact .inr ⟨front, by simpa using hfront.symm⟩
    · exact .inr ⟨base.toList, rfl⟩

theorem prefix_stem (base : String) : base.toList <+: stem base := by
  rw [stem]
  split
  · next hempty =>
    rw [String.isEmpty_iff.mp hempty]
    exact List.nil_prefix
  · split
    · exact List.prefix_refl _
    · exact List.prefix_append _ _

/-- Names that stand last in a path. -/
theorem pieces_stem_append {front : List Char} (h : front = [] ∨ ∃ cs, front = cs ++ ['/']) :
    ∃ names, ∀ cs, Text.pieces '/' (front ++ cs) = names ++ Text.pieces '/' cs := by
  rcases h with rfl | ⟨ds, rfl⟩
  · exact ⟨[], fun cs => rfl⟩
  · refine ⟨Text.pieces '/' ds, fun cs => ?_⟩
    rw [List.append_assoc, List.singleton_append, Text.pieces_append]

/-- A path from the root on, whatever name it ends in: it starts there itself, or the home
directory does. -/
def Rooted (home base : String) : Prop :=
  "/".toList <+: home.toList ∨ "/".toList <+: base.toList ∨ home.toList <+: base.toList

theorem split_eq_map (path : String) :
    Text.split '/' path = (Text.pieces '/' path.toList).map String.ofList := rfl

theorem IsPlain.ne_nil {name : String} (h : IsPlain name) : name.toList ≠ [] := by
  intro hnil
  have hstay := h.no_stay
  rw [String.toList_eq_nil_iff.mp hnil] at hstay
  exact absurd hstay (by decide)

theorem pathNames_eq_ok_iff {home path : String} {names : List String} :
    pathNames home path = .ok names ↔ '\x00' ∉ path.toList ∧ path.toList ≠ [] ∧
      path.utf8ByteSize ≤ longestPath ∧
      names = if "/".toList <+: path.toList ∨ home.toList <+: path.toList then Text.split '/' path
        else Text.split '/' (join home path) := by
  have hstart : (path.startsWith "/" || path.startsWith home) = true ↔
      "/".toList <+: path.toList ∨ home.toList <+: path.toList := by
    rw [Bool.or_eq_true, String.startsWith_string_iff, String.startsWith_string_iff]
  have hempty : path.isEmpty = true ↔ path.toList = [] := by
    rw [String.isEmpty_iff, String.toList_eq_nil_iff]
  rw [pathNames]
  by_cases hnul : '\x00' ∈ path.toList
  · simp [hnul]
  · by_cases hnil : path.toList = []
    · simp [hempty.mpr hnil, hnil]
    · by_cases hlong : longestPath < path.utf8ByteSize
      · simp [hnul, hempty, hnil, hlong, Nat.not_le.mpr hlong]
      · simp only [List.contains_eq_mem, hnul, decide_false, Bool.false_eq_true, if_false, hempty,
          hnil, hlong, hstart, not_false_eq_true, ne_eq, true_and, Nat.not_lt.mp hlong]
        split
        · simp [eq_comm]
        · simp [eq_comm]

/-- Where a path is meant from is not decided by its last name. -/
theorem Rooted.starts_iff {home base : String} (h : Rooted home base) {cs ds : List Char}
    (hcs : cs.head? ≠ some '/') (hds : ds.head? ≠ some '/') :
    ("/".toList <+: stem base ++ cs ∨ home.toList <+: stem base ++ cs) ↔
      "/".toList <+: stem base ++ ds ∨ home.toList <+: stem base ++ ds := by
  have hbase (rest : List Char) : base.toList <+: stem base ++ rest :=
    (prefix_stem base).trans (List.prefix_append _ _)
  rcases h with hhome | hslash | hhome
  · have hiff (rest : List Char) : ("/".toList <+: stem base ++ rest ∨
        home.toList <+: stem base ++ rest) ↔ "/".toList <+: stem base ++ rest :=
      ⟨fun h => h.elim id hhome.trans, .inl⟩
    rw [hiff, hiff]
    cases hstem : stem base with
    | nil => exact iff_of_false (mt slash_prefix_iff.mp hcs) (mt slash_prefix_iff.mp hds)
    | cons c front => simp
  · exact iff_of_true (.inl (hslash.trans (hbase cs))) (.inl (hslash.trans (hbase ds)))
  · exact iff_of_true (.inr (hhome.trans (hbase cs))) (.inr (hhome.trans (hbase ds)))

theorem stem_append_stem (home base : String) : stem home ++ stem base = [] ∨
    ∃ cs, stem home ++ stem base = cs ++ ['/'] := by
  rcases stem_eq base with hbase | ⟨cs, hbase⟩
  · rw [hbase, List.append_nil]
    exact stem_eq home
  · exact .inr ⟨stem home ++ cs, by rw [hbase, List.append_assoc]⟩

/-- Paths that differ in the last name only lead the same way to it. -/
theorem exists_front {home base : String} (h : Rooted home base) : ∃ front : List String,
    ∀ name : String, '/' ∉ name.toList → name.toList ≠ [] → ∀ names,
      pathNames home (join base name) = .ok names ↔ '\x00' ∉ (join base name).toList ∧
        (join base name).utf8ByteSize ≤ longestPath ∧ names = front ++ [name] := by
  have hhead {name : String} (hslash : '/' ∉ name.toList) : name.toList.head? ≠ some '/' :=
    fun hhead => hslash (List.mem_of_head? hhead)
  have hlast {names : List (List Char)} {name : String} (hslash : '/' ∉ name.toList) :
      (names ++ Text.pieces '/' name.toList).map String.ofList =
        names.map String.ofList ++ [name] := by
    rw [Text.pieces_of_not_mem hslash, List.map_append, List.map_singleton, String.ofList_toList]
  by_cases hstarts : "/".toList <+: stem base ++ ".".toList ∨
      home.toList <+: stem base ++ ".".toList
  · obtain ⟨names, hnames⟩ := pieces_stem_append (stem_eq base)
    refine ⟨names.map String.ofList, fun name hslash hne others => ?_⟩
    have hjoin := toList_join_eq_stem base (hhead hslash)
    have hfull := (h.starts_iff (hhead hslash) (by decide)).mpr hstarts
    rw [pathNames_eq_ok_iff, hjoin, if_pos hfull, split_eq_map, hjoin, hnames, hlast hslash]
    simp [hne]
  · obtain ⟨names, hnames⟩ := pieces_stem_append (stem_append_stem home base)
    refine ⟨names.map String.ofList, fun name hslash hne others => ?_⟩
    have hjoin := toList_join_eq_stem base (hhead hslash)
    have hpart := mt (h.starts_iff (hhead hslash) (by decide)).mp hstarts
    have hrelative : (join base name).toList.head? ≠ some '/' := by
      rw [hjoin]
      exact fun hslash => hpart (.inl (slash_prefix_iff.mpr hslash))
    rw [pathNames_eq_ok_iff, hjoin, if_neg hpart, split_eq_map, toList_join_eq_stem home hrelative,
      hjoin, ← List.append_assoc, hnames, hlast hslash]
    simp [hne]

/-- The last names of a path are the last ones from the root on. -/
theorem suffix_pathNames {home base path : String} {cs : List Char} {names : List String}
    (hpath : path.toList = stem base ++ cs) (h : pathNames home path = .ok names) :
    (Text.pieces '/' cs).map String.ofList <:+ names := by
  have hend {front : List Char} (hfront : front = [] ∨ ∃ ds, front = ds ++ ['/']) :
      (Text.pieces '/' cs).map String.ofList <:+
        (Text.pieces '/' (front ++ cs)).map String.ofList := by
    obtain ⟨before, hbefore⟩ := pieces_stem_append hfront
    rw [hbefore, List.map_append]
    exact List.suffix_append _ _
  obtain ⟨_, _, _, rfl⟩ := pathNames_eq_ok_iff.mp h
  split
  · rw [split_eq_map, hpath]
    exact hend (stem_eq base)
  · next hpart =>
    have hrelative : path.toList.head? ≠ some '/' :=
      fun hslash => hpart (.inl (slash_prefix_iff.mpr hslash))
    rw [split_eq_map, toList_join_eq_stem home hrelative, hpath, ← List.append_assoc]
    exact hend (stem_append_stem home base)

theorem locate_eq_ok_iff {d : Disk} {path : String} {place : Place} :
    d.locate path = .ok place ↔
      ∃ names, pathNames d.home path = .ok names ∧ d.follow [] names = .ok place := by
  rw [locate]
  cases pathNames d.home path with
  | error e => simp [bind, Except.bind]
  | ok names => simp [bind, Except.bind]

/-- A plain name leads from a directory to what has this name in it. -/
theorem follow_plain {d : Disk} {here place : Place} {name : String} {more : List String}
    (hname : IsPlain name) (h : d.follow here (name :: more) = .ok place) :
    d.get? here = some .directory ∧ d.follow (here ++ [name]) more = .ok place := by
  rw [follow] at h
  split at h
  · exact absurd h (by simp)
  · exact absurd h (by simp)
  · next hdir =>
    split at h
    · exact absurd h (by simp)
    · have hleave : (name == "..") = false := beq_false_of_ne hname.no_leave
      rw [enter, hname.no_stay, hleave] at h
      exact ⟨hdir, h⟩

theorem follow_dot_of_directory {d : Disk} {here : Place} (h : d.get? here = some .directory) :
    d.follow here ["."] = .ok here := by
  have hshort : ¬ longestName < ".".utf8ByteSize := by decide
  rw [follow, h]
  simp only [hshort, if_false]
  rfl

/-- What is in a directory by its name is right below that directory. -/
theorem exists_parent_of_locate {d : Disk} {base name : String} {place : Place}
    (hname : IsPlain name) (h : d.locate (join base name) = .ok place) :
    ∃ parent, place = parent ++ [name] ∧ d.get? parent = some .directory ∧
      (Rooted d.home base → d.locate (join base ".") = .ok parent) := by
  obtain ⟨names, hnames, hfollow⟩ := locate_eq_ok_iff.mp h
  obtain ⟨front, rfl⟩ := List.getLast?_eq_some_iff.mp (getLast?_pathNames hname hnames)
  obtain ⟨parent, hparent, hlast⟩ := follow_append.mp hfollow
  obtain ⟨hdir, hplace⟩ := follow_plain hname hlast
  refine ⟨parent, (Except.ok.inj hplace).symm, hdir, fun hrooted => ?_⟩
  obtain ⟨front', hfront⟩ := exists_front hrooted
  obtain ⟨hnul, hlong, heq⟩ := (hfront name hname.no_slash hname.ne_nil _).mp hnames
  obtain rfl : front = front' := (List.append_inj' heq rfl).1
  -- The way to the name with a dot in its place ends where the name is looked up.
  have hjoin := toList_join_eq_stem base hname.head_ne
  have hdot : (join base ".").toList = stem base ++ ['.'] := toList_join_eq_stem base (by decide)
  have hdots : pathNames d.home (join base ".") = .ok (front ++ ["."]) := by
    refine (hfront "." (by decide) (by decide) _).mpr ⟨?_, ?_, rfl⟩
    · rw [hjoin] at hnul
      rw [hdot]
      simpa using fun hmem => hnul (List.mem_append_left _ hmem)
    · refine Nat.le_trans ?_ hlong
      have hone : ".".utf8ByteSize ≤ name.utf8ByteSize := by
        have hne : name.utf8ByteSize ≠ 0 := by
          rw [ne_eq, String.utf8ByteSize_eq_zero_iff, ← String.toList_eq_nil_iff]
          exact hname.ne_nil
        exact Nat.one_le_iff_ne_zero.mpr hne
      have hname' : join base name = String.ofList (stem base) ++ name := by
        apply String.toList_injective
        simpa using hjoin
      have hdot' : join base "." = String.ofList (stem base) ++ "." := by
        apply String.toList_injective
        simpa using hdot
      rw [hname', hdot', String.utf8ByteSize_append, String.utf8ByteSize_append]
      omega
  exact locate_eq_ok_iff.mpr
    ⟨_, hdots, follow_append.mpr ⟨parent, hparent, follow_dot_of_directory hdir⟩⟩

/-- A path that ends in a plain name puts a slash after it. -/
theorem stem_join {base dir : String} (hdir : IsPlain dir) :
    stem (join base dir) = (join base dir).toList ++ ['/'] := by
  have hjoin := toList_join_eq_stem base hdir.head_ne
  have hne : ¬ (join base dir).isEmpty = true := by
    rw [String.isEmpty_iff, ← String.toList_eq_nil_iff, hjoin]
    exact List.append_ne_nil_of_right_ne_nil _ hdir.ne_nil
  have hend : ¬ (join base dir).endsWith "/" = true := by
    intro hend
    obtain ⟨front, hfront⟩ := String.Slice.endsWith_string_iff.mp hend
    have hlast : (stem base ++ dir.toList).getLast? = some '/' := by
      rw [← hjoin]
      simpa using congrArg List.getLast? hfront.symm
    obtain ⟨c, hc⟩ := Option.isSome_iff_exists.mp (List.getLast?_isSome.mpr hdir.ne_nil)
    rw [List.getLast?_append, hc] at hlast
    exact hdir.no_slash (Option.some.inj hlast ▸ List.mem_of_getLast? hc)
  rw [stem, if_neg hne, if_neg hend]

/-- What is in a directory of a directory has both names last. -/
theorem suffix_locate {d : Disk} {base dir name : String} {place : Place} (hdir : IsPlain dir)
    (hname : IsPlain name) (h : d.locate (join (join base dir) name) = .ok place) :
    [dir, name] <:+ place := by
  obtain ⟨names, hnames, hfollow⟩ := locate_eq_ok_iff.mp h
  have hpath : (join (join base dir) name).toList =
      stem base ++ (dir.toList ++ '/' :: name.toList) := by
    rw [toList_join_eq_stem _ hname.head_ne, stem_join hdir, toList_join_eq_stem _ hdir.head_ne]
    simp
  have hlast : [dir, name] <:+ names := by
    have hsuffix := suffix_pathNames hpath hnames
    rw [Text.pieces_append, Text.pieces_of_not_mem hdir.no_slash,
      Text.pieces_of_not_mem hname.no_slash] at hsuffix
    simpa using hsuffix
  obtain ⟨front, rfl⟩ := hlast
  obtain ⟨mid, _, hmid⟩ := follow_append.mp hfollow
  obtain ⟨_, hmid⟩ := follow_plain hdir hmid
  obtain ⟨_, hmid⟩ := follow_plain hname hmid
  exact ⟨mid, by rw [← Except.ok.inj hmid]; simp⟩

end AccountGate.Disk
