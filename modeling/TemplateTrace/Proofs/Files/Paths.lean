import TemplateTrace.Files.Tree

namespace TemplateTrace

namespace Path

structure IsName (name : String) : Prop where
  nonempty : name ≠ ""
  no_slash : '/' ∉ name.toList
  no_nul : '\x00' ∉ name.toList
  ne_dot : name ≠ "."
  ne_dots : name ≠ ".."

variable {base name : String}

theorem IsName.head_ne (h : IsName name) : isAbsolute name = false := by
  rw [isAbsolute, beq_eq_false_iff_ne]
  exact fun heq => h.no_slash (List.mem_of_head? heq)

theorem toList_ne_nil (h : base ≠ "") : base.toList ≠ [] := by
  rwa [ne_eq, String.toList_eq_nil_iff]

theorem join_eq (hname : IsName name) (hbase : base ≠ "") :
    (join base name).toList =
      if endsWithSlash base then base.toList ++ name.toList
      else base.toList ++ '/' :: name.toList := by
  rw [join, hname.head_ne]
  by_cases h : endsWithSlash base <;> simp [h, hbase]

theorem suffix_join (base name : String) : name.toList <:+ (join base name).toList := by
  rw [join]
  split
  · exact List.suffix_rfl
  · split
    · rw [String.toList_append]
      exact List.suffix_append _ _
    · rw [String.toList_append]
      exact List.suffix_append _ _

theorem isAbsolute_append (hbase : base ≠ "") (suffix : String) :
    isAbsolute (base ++ suffix) = isAbsolute base := by
  obtain ⟨c, rest, hcons⟩ := List.exists_cons_of_ne_nil (toList_ne_nil hbase)
  rw [isAbsolute, isAbsolute, String.toList_append, hcons]
  rfl

theorem isAbsolute_join {path : String} (hpath : isAbsolute path = false) (hbase : base ≠ "") :
    isAbsolute (join base path) = isAbsolute base := by
  rw [join, hpath]
  simp only [Bool.false_eq_true, if_false, hbase, false_or]
  split
  · rw [isAbsolute_append hbase]
  · rw [String.append_assoc, isAbsolute_append hbase]

theorem endsWithSlash_join (hname : IsName name) (base : String) :
    endsWithSlash (join base name) = false := by
  have hlast : name.toList.getLast?.isSome := by simpa using hname.nonempty
  have hjoin : (join base name).toList.getLast? = name.toList.getLast? := by
    by_cases hbase : base = ""
    · rw [hbase, join, hname.head_ne]
      simp
    · rw [join_eq hname hbase]
      split
      · rw [List.getLast?_append, Option.or_of_isSome hlast]
      · rw [List.append_cons, List.getLast?_append, Option.or_of_isSome hlast]
  rw [endsWithSlash, hjoin, beq_eq_false_iff_ne]
  exact fun heq => hname.no_slash (List.mem_of_getLast? heq)

theorem join_append (hname : IsName name) (base suffix : String) :
    join base name ++ suffix = join base (name ++ suffix) := by
  rw [join, join, isAbsolute_append hname.nonempty, hname.head_ne]
  simp only [Bool.false_eq_true, if_false]
  split
  · rw [String.append_assoc]
  · rw [String.append_assoc]

theorem le_size_join (hname : IsName name) (base : String) :
    Text.size base + Text.size name ≤ Text.size (join base name) := by
  rw [join, hname.head_ne]
  simp only [Bool.false_eq_true, if_false]
  split
  · have hsize : Text.size (base ++ name) = Text.size base + Text.size name := by
      rw [Text.size, Text.bytes_append, List.length_append]
      rfl
    exact Nat.le_of_eq hsize.symm
  · rw [Text.size, Text.size, Text.size, Text.bytes_append, Text.bytes_append, List.length_append,
      List.length_append]
    omega

theorem splitOn_name (hname : IsName name) : name.toList.splitOn '/' = [name.toList] := by
  rw [List.splitOn_eq_splitOnP]
  apply List.splitOnP_eq_singleton
  rintro c hc
  rw [beq_eq_false_iff_ne]
  rintro rfl
  exact hname.no_slash hc

theorem not_mem_of_mem_splitOn {l part : List Char} {c : Char} (h : part ∈ l.splitOn c) : c ∉ part := by
  induction l generalizing part with
  | nil =>
    rw [List.splitOn_nil, List.mem_singleton] at h
    rw [h]
    exact List.not_mem_nil
  | cons d rest ih =>
    rw [List.splitOn_cons_eq_if_modifyHead] at h
    split at h
    · rcases List.mem_cons.mp h with rfl | h
      · exact List.not_mem_nil
      · exact ih h
    · rename_i hd
      rcases hrest : rest.splitOn c with _ | ⟨first, more⟩
      · rw [hrest] at h
        cases h
      · rw [hrest, List.modifyHead_cons] at h
        rcases List.mem_cons.mp h with rfl | h
        · have hfirst := ih (hrest ▸ List.mem_cons_self)
          have hne : c ≠ d := fun heq => hd (beq_iff_eq.mpr heq.symm)
          exact fun hmem => (List.mem_cons.mp hmem).elim hne hfirst
        · exact ih (hrest ▸ List.mem_cons_of_mem _ h)

theorem isName_of_fileName? {path : String} (h : fileName? path = some name)
    (hnul : '\x00' ∉ name.toList) : IsName name := by
  have hmem : .name name ∈ components path := by
    rw [fileName?] at h
    split at h
    · cases h
      apply List.mem_of_getLast?
      assumption
    · cases h
  have hnames : name ∈ names path ∧ name ≠ ".." := by
    rw [components, List.mem_append] at hmem
    rcases hmem with hlead | hmem
    · split at hlead
      · simp at hlead
      · split at hlead <;> simp at hlead
    · obtain ⟨other, hother, heq⟩ := List.mem_map.mp hmem
      rw [Component.ofName] at heq
      split at heq
      · cases heq
      · cases heq
        exact ⟨hother, by assumption⟩
  obtain ⟨hname, hdots⟩ := hnames
  rw [names, List.mem_filter] at hname
  obtain ⟨hpart, hkept⟩ := hname
  obtain ⟨part, hsplit, rfl⟩ := List.mem_map.mp hpart
  have hslash := not_mem_of_mem_splitOn hsplit
  simp only [decide_eq_true_eq] at hkept
  refine ⟨hkept.1, ?_, hnul, hkept.2, hdots⟩
  rwa [String.toList_ofList]

theorem eq_append_slash (h : endsWithSlash base = true) : ∃ dir, base = dir ++ "/" := by
  rw [endsWithSlash, beq_iff_eq] at h
  obtain ⟨before, hbefore⟩ := List.getLast?_eq_some_iff.mp h
  refine ⟨String.ofList before, ?_⟩
  rw [← String.toList_inj, hbefore, String.toList_append, String.toList_ofList]
  rfl

theorem parts_append_slash (base path : String) :
    parts (base ++ "/" ++ path) = parts base ++ parts path := by
  have hslash : (base ++ "/" ++ path).toList = base.toList ++ '/' :: path.toList := by
    rw [String.toList_append, String.toList_append, List.append_assoc]
    rfl
  rw [parts, parts, parts, hslash, List.splitOn_eq_splitOnP,
    List.splitOnP_append_cons _ _ (by rfl), List.map_append, List.splitOn_eq_splitOnP,
    List.splitOn_eq_splitOnP]

theorem parts_slash (base : String) : parts (base ++ "/") = parts base ++ [""] := by
  have hparts := parts_append_slash base ""
  rwa [String.append_empty] at hparts

theorem parts_ne_nil (path : String) : parts path ≠ [] := by
  simp [parts, List.splitOn_eq_splitOnP, List.splitOnP_ne_nil]

theorem head_parts_append_slash (base path : String) :
    (parts (base ++ "/" ++ path)).head? = (parts base).head? := by
  obtain ⟨first, rest, hcons⟩ := List.exists_cons_of_ne_nil (parts_ne_nil base)
  rw [parts_append_slash, hcons]
  rfl

theorem names_append_slash (base path : String) :
    names (base ++ "/" ++ path) = names base ++ names path := by
  rw [names, parts_append_slash, List.filter_append]
  rfl

theorem components_append_slash (hbase : base ≠ "") (path : String) :
    components (base ++ "/" ++ path) = components base ++ (names path).map .ofName := by
  have habsolute : isAbsolute (base ++ "/" ++ path) = isAbsolute base := by
    rw [String.append_assoc, isAbsolute_append hbase]
  rw [components, components, habsolute, head_parts_append_slash, names_append_slash,
    List.map_append, List.append_assoc]

theorem components_slash (hbase : base ≠ "") : components (base ++ "/") = components base := by
  have hnothing : names "" = [] := by decide
  have hcomponents := components_append_slash hbase ""
  rwa [String.append_empty, hnothing, List.map_nil, List.append_nil] at hcomponents

theorem parent?_slash (hbase : base ≠ "") : parent? (base ++ "/") = parent? base := by
  have htrim : trimBack (parts (base ++ "/")).reverse = trimBack (parts base).reverse := by
    obtain ⟨last, before, hcons⟩ :=
      List.exists_cons_of_ne_nil (List.reverse_ne_nil_iff.mpr (parts_ne_nil base))
    rw [parts_slash, List.reverse_append, hcons]
    simp [trimBack]
  rw [parent?, parent?, components_slash hbase, htrim]

end Path

theorem FileTree.stepsOf_slash (base : String) : stepsOf (base ++ "/") = stepsOf base := by
  rw [stepsOf, stepsOf, Path.parts_slash, List.filter_append]
  simp

theorem FileTree.stepsOf_join_relative {base path : String} (hpath : Path.isAbsolute path = false)
    (hbase : base ≠ "") : stepsOf (Path.join base path) = stepsOf base ++ stepsOf path := by
  rw [Path.join, hpath]
  simp only [Bool.false_eq_true, if_false, hbase, false_or]
  by_cases hslash : Path.endsWithSlash base = true
  · rw [if_pos hslash]
    obtain ⟨dir, rfl⟩ := Path.eq_append_slash hslash
    rw [stepsOf_slash, stepsOf, Path.parts_append_slash, List.filter_append]
    rfl
  · rw [if_neg hslash, stepsOf, Path.parts_append_slash, List.filter_append]
    rfl

theorem FileTree.stepsOf_join {name : String} (hname : Path.IsName name) (base : String) :
    stepsOf (Path.join base name) = stepsOf base ++ [name] := by
  have hsteps : stepsOf name = [name] := by
    simp [stepsOf, Path.parts, Path.splitOn_name hname, hname.nonempty]
  by_cases hbase : base = ""
  · have hnothing : stepsOf "" = [] := by decide
    rw [hbase, hnothing, Path.join, hname.head_ne]
    simpa using hsteps
  · rw [stepsOf_join_relative hname.head_ne hbase, hsteps]

namespace FileTree

variable {base name : String}

theorem checkPath_eq_ok_iff {path : String} :
    checkPath path = .ok () ↔
      '\x00' ∉ path.toList ∧ path ≠ "" ∧ Text.size path ≤ maxPath := by
  rw [checkPath]
  by_cases hnul : '\x00' ∈ path.toList
  · simp [hnul]
  · by_cases hempty : path = ""
    · simp [hempty]
    · by_cases hsize : maxPath < Text.size path
      · simp [hnul, hempty, hsize]
      · simp [hnul, hempty, hsize, Nat.le_of_not_lt hsize]

theorem checkPath_join (hname : Path.IsName name) (hbase : checkPath base = .ok ())
    (hsize : Text.size (Path.join base name) ≤ maxPath) :
    checkPath (Path.join base name) = .ok () := by
  obtain ⟨hnul, hempty, -⟩ := checkPath_eq_ok_iff.mp hbase
  refine checkPath_eq_ok_iff.mpr ⟨?_, ?_, hsize⟩
  · rw [Path.join_eq hname hempty]
    split <;> simp [hnul, hname.no_nul]
  · rw [ne_eq, ← String.toList_eq_nil_iff, Path.join_eq hname hempty]
    split <;> simp [hempty]

theorem checkPath_of_join (hname : Path.IsName name) (hbase : base ≠ "")
    (h : checkPath (Path.join base name) = .ok ()) : checkPath base = .ok () := by
  obtain ⟨hnul, -, hsize⟩ := checkPath_eq_ok_iff.mp h
  refine checkPath_eq_ok_iff.mpr ⟨?_, hbase, ?_⟩
  · rw [Path.join_eq hname hbase] at hnul
    split at hnul
    · exact fun hmem => hnul (List.mem_append_left _ hmem)
    · exact fun hmem => hnul (List.mem_append_left _ hmem)
  · have hle := Path.le_size_join hname base
    omega

theorem origin_join (t : FileTree) (hname : Path.IsName name) (base : String) :
    t.origin (Path.join base name) = t.origin base := by
  by_cases hbase : base = ""
  · have hrelative : Path.isAbsolute "" = false := by decide
    rw [hbase, Path.join, hname.head_ne, origin, origin, hrelative]
    simp [hname.head_ne]
  · rw [origin, origin, Path.isAbsolute_join hname.head_ne hbase]

end FileTree

end TemplateTrace
