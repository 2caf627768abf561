import Mathlib.Data.List.TakeWhile
import TemplateTrace.Proofs.Files.Destinations

namespace TemplateTrace

namespace Path

variable {base path name last : String} {before segments : List String}

structure IsSegment (name : String) : Prop where
  nonempty : name ≠ ""
  ne_dot : name ≠ "."
  no_slash : '/' ∉ name.toList

theorem isSegment_of_mem_names (h : name ∈ names path) : IsSegment name := by
  rw [names, List.mem_filter, decide_eq_true_eq] at h
  obtain ⟨part, hpart, rfl⟩ := List.mem_map.mp h.1
  refine ⟨h.2.1, h.2.2, ?_⟩
  rw [String.toList_ofList]
  exact not_mem_of_mem_splitOn hpart

theorem components_of_relative (habsolute : isAbsolute path = false)
    (hdot : (parts path).head? ≠ some ".") : components path = (names path).map .ofName := by
  rw [components, habsolute]
  simp only [Bool.false_eq_true, if_false, if_neg hdot, List.nil_append]

theorem components_join_names (hbase : base ≠ "") (hpath : isAbsolute path = false) :
    components (join base path) = components base ++ (names path).map .ofName := by
  rw [join, hpath]
  simp only [Bool.false_eq_true, if_false, hbase, false_or]
  split
  · rename_i hslash
    obtain ⟨dir, rfl⟩ := eq_append_slash hslash
    by_cases hdir : dir = ""
    · rw [hdir]
      have hroot : components ("" ++ "/" ++ path) = .root :: (names path).map .ofName := by
        have habsolute : isAbsolute ("" ++ "/" ++ path) = true := by
          rw [isAbsolute, String.toList_append]
          rfl
        rw [components, habsolute, names_append_slash]
        rfl
      have hslash : components ("" ++ "/") = [.root] := by decide
      rw [hroot, hslash]
      rfl
    · rw [components_append_slash hdir, components_slash hdir]
  · exact components_append_slash hbase path

theorem components_join (hpath : isAbsolute path = false) (hdot : (parts path).head? ≠ some ".") :
    components (join base path) = components base ++ components path := by
  rw [components_of_relative hpath hdot]
  by_cases hbase : base = ""
  · have hnothing : components "" = [] := by decide
    rw [hbase, hnothing, join, hpath, List.nil_append, ← components_of_relative hpath hdot]
    simp
  · exact components_join_names hbase hpath

theorem names_ofParts (h : ∀ name ∈ segments, IsSegment name) : names (ofParts segments) = segments := by
  rcases segments with _ | ⟨first, rest⟩
  · decide
  · rw [names, parts_ofParts (List.cons_ne_nil _ _) fun name hname => (h name hname).no_slash,
      List.filter_eq_self]
    intro name hname
    exact decide_eq_true ⟨(h name hname).nonempty, (h name hname).ne_dot⟩

theorem relative_ofParts (h : ∀ name ∈ segments, IsSegment name) :
    isAbsolute (ofParts segments) = false ∧ (parts (ofParts segments)).head? ≠ some "." := by
  rcases segments with _ | ⟨first, rest⟩
  · decide
  · have hfirst := h first List.mem_cons_self
    have hparts := parts_ofParts (List.cons_ne_nil first rest) fun name hname => (h name hname).no_slash
    constructor
    · rw [Bool.eq_false_iff]
      intro habsolute
      have hhead := head_parts_of_isAbsolute habsolute
      rw [hparts] at hhead
      exact hfirst.nonempty (Option.some.inj hhead)
    · rw [hparts]
      exact fun hhead => hfirst.ne_dot (Option.some.inj hhead)

theorem components_ofParts (h : ∀ name ∈ segments, IsSegment name) :
    components (ofParts segments) = segments.map .ofName := by
  rw [components_of_relative (relative_ofParts h).1 (relative_ofParts h).2, names_ofParts h]

theorem components_join_ofParts (h : ∀ name ∈ segments, IsSegment name) :
    components (join base (ofParts segments)) = components base ++ segments.map .ofName := by
  rw [components_join (relative_ofParts h).1 (relative_ofParts h).2, components_ofParts h]

theorem map_ofName (h : ".." ∉ segments) : segments.map Component.ofName = segments.map .name := by
  apply List.map_congr_left
  intro name hname
  have hdots : name ≠ ".." := fun heq => h (heq ▸ hname)
  rw [Component.ofName, if_neg hdots]

theorem eq_of_map_ofName {others : List String}
    (h : others.map Component.ofName = segments.map .name) : others = segments := by
  induction others generalizing segments with
  | nil => exact (List.map_eq_nil_iff.mp h.symm).symm
  | cons other rest ih =>
    rcases segments with _ | ⟨name, more⟩
    · cases h
    · obtain ⟨hhead, htail⟩ := List.cons.inj h
      rw [Component.ofName] at hhead
      split at hhead
      · cases hhead
      · cases hhead
        rw [ih htail]

theorem of_components_eq_names (h : components path = segments.map .name) :
    isAbsolute path = false ∧ names path = segments := by
  have hlead : ∀ {c : Component} {rest}, c :: rest = segments.map .name → ∃ name, c = .name name := by
    intro c rest heq
    have hmem : c ∈ segments.map .name := heq ▸ List.mem_cons_self
    obtain ⟨name, -, hname⟩ := List.mem_map.mp hmem
    exact ⟨name, hname.symm⟩
  rw [components] at h
  split at h
  · obtain ⟨name, hname⟩ := hlead h
    cases hname
  · rename_i habsolute
    split at h
    · obtain ⟨name, hname⟩ := hlead h
      cases hname
    · exact ⟨by simpa using habsolute, eq_of_map_ofName h⟩

theorem extension?_ofParts (h : ∀ name ∈ before ++ [last], IsSegment name) (hdots : last ≠ "..") :
    extension? (ofParts (before ++ [last])) = (splitExtension last).2 := by
  have hlast : (components (ofParts (before ++ [last]))).getLast? = some (.name last) := by
    rw [components_ofParts h, List.map_append, List.map_singleton, List.getLast?_concat,
      Component.ofName, if_neg hdots]
  rw [extension?, fileName?, hlast]
  rfl

theorem ne_dot_of_mem_reverse {l : List Char} (h : '.' ∉ l) :
    ∀ c ∈ l.reverse, decide (c ≠ '.') = true := by
  intro c hc
  refine decide_eq_true fun heq => h ?_
  rw [← heq]
  exact List.mem_reverse.mp hc

theorem splitExtension_of_no_dot (h : '.' ∉ name.toList) : (splitExtension name).2 = none := by
  rw [splitExtension, List.takeWhile_eq_self_iff.mpr (ne_dot_of_mem_reverse h), if_pos (.inl rfl)]

theorem splitExtension_of_last_dot {stem extension : List Char}
    (hname : name.toList = stem ++ '.' :: extension) (h : '.' ∉ extension) :
    (splitExtension name).2 = if stem = [] then none else some (String.ofList extension) := by
  have hreverse : name.toList.reverse = extension.reverse ++ '.' :: stem.reverse := by
    rw [hname]
    simp
  have htake : name.toList.reverse.takeWhile (· ≠ '.') = extension.reverse := by
    rw [hreverse, List.takeWhile_append_of_pos (ne_dot_of_mem_reverse h)]
    simp
  have hdrop : name.toList.reverse.drop (extension.reverse.length + 1) = stem.reverse := by
    rw [hreverse, List.drop_length_add_append]
    rfl
  rw [splitExtension, htake, hdrop, hreverse]
  by_cases hstem : stem = []
  · simp [hstem]
  · simp [hstem]

theorem splitExtension_eq_none_iff : (splitExtension name).2 = none ↔ '.' ∉ name.toList.tail := by
  by_cases hdot : '.' ∈ name.toList
  -- The last dot is the first one of the reversed name.
  · obtain ⟨after, before, hsplit, hafter⟩ :=
      List.eq_append_cons_of_mem (List.mem_reverse.mpr hdot)
    have hname : name.toList = before.reverse ++ '.' :: after.reverse := by
      rw [← List.reverse_reverse name.toList, hsplit]
      simp
    rw [splitExtension_of_last_dot hname (by simpa using hafter), hname]
    rcases before.reverse with _ | ⟨c, stem⟩
    · simpa using hafter
    · simp
  · rw [splitExtension_of_no_dot hdot]
    exact iff_of_true rfl fun h => hdot (List.mem_of_mem_tail h)

theorem components_foldl_join (h : ∀ name ∈ segments, IsSegment name) :
    components (segments.foldl join base) = components base ++ segments.map .ofName := by
  induction segments generalizing base with
  | nil => simp
  | cons name rest ih =>
    rw [List.forall_mem_cons] at h
    have hname : ∀ other ∈ [name], IsSegment other := by simpa using h.1
    have hone : ofParts [name] = name := String.intercalate_singleton
    have hjoin : components (join base name) = components base ++ [name].map .ofName := by
      rw [← components_join_ofParts hname, hone]
    rw [List.foldl_cons, ih h.2, hjoin, List.append_assoc]
    rfl

theorem join_ne_empty (hbase : base ≠ "") (path : String) : join base path ≠ "" := by
  rw [join]
  split
  · rintro rfl
    contradiction
  · split <;> simp [hbase]

theorem foldl_join_ne_empty (hbase : base ≠ "") : segments.foldl join base ≠ "" := by
  induction segments generalizing base with
  | nil => exact hbase
  | cons name rest ih => exact ih (join_ne_empty hbase name)

theorem components_extend {start : String} (hstart : start ≠ "") (path : String) :
    components (if endsWithSlash path ∧ ¬ endsWithSlash ((names path).foldl join start)
      then (names path).foldl join start ++ "/" else (names path).foldl join start) =
      components start ++ (names path).map .ofName := by
  rw [← components_foldl_join fun name => isSegment_of_mem_names]
  split
  · exact components_slash (foldl_join_ne_empty hstart)
  · rfl

theorem ne_empty_of_isAbsolute (h : isAbsolute path = true) : path ≠ "" := by
  rintro rfl
  cases h

theorem of_absolute? {here? : Option String} {whole : String} (h : absolute? here? path = some whole) :
    ∃ start, (if isAbsolute path then start = "/" ∨ start = "//" else here? = some start) ∧
      whole = if endsWithSlash path ∧ ¬ endsWithSlash ((names path).foldl join start)
        then (names path).foldl join start ++ "/" else (names path).foldl join start := by
  rw [absolute?] at h
  split at h
  · cases h
  · obtain ⟨start, hstart, rfl⟩ := Option.map_eq_some_iff.mp h
    refine ⟨start, ?_, rfl⟩
    cases habsolute : isAbsolute path with
    | false =>
      simp only [habsolute, Bool.false_eq_true, not_false_eq_true, if_true] at hstart
      exact hstart
    | true =>
      simp only [habsolute, not_true_eq_false, if_false] at hstart
      rw [if_pos rfl]
      split at hstart
      · split at hstart <;> cases hstart
        · exact .inl rfl
        · exact .inr rfl
      · cases hstart
        exact .inl rfl

theorem absolute?_eq_none_iff {here? : Option String} :
    absolute? here? path = none ↔ path = "" ∨ isAbsolute path = false ∧ here? = none := by
  rw [absolute?]
  by_cases hpath : path = ""
  · simp [hpath]
  · rw [if_neg hpath, Option.map_eq_none_iff]
    cases isAbsolute path with
    | false => simp [hpath]
    | true =>
      simp only [not_true_eq_false, if_false]
      split <;> simp [hpath]

theorem components_absolute? {here? : Option String} {whole : String}
    (h : absolute? here? path = some whole) (hdir : isAbsolute path = false → here? ≠ some "") :
    components whole = if isAbsolute path then components path
      else components (here?.getD "") ++ (names path).map .ofName := by
  obtain ⟨start, hstart, rfl⟩ := of_absolute? h
  cases habsolute : isAbsolute path with
  | false =>
    rw [habsolute, if_neg Bool.false_ne_true] at hstart
    subst hstart
    exact components_extend (fun hempty => hdir habsolute (congrArg some hempty)) path
  | true =>
    have hroot : components path = .root :: (names path).map .ofName := by
      rw [components, habsolute]
      rfl
    have hslash : components "/" = [.root] := by decide
    have hslashes : components "//" = [.root] := by decide
    rw [habsolute, if_pos rfl] at hstart
    rw [if_pos rfl, hroot]
    rcases hstart with rfl | rfl
    · rw [components_extend (by decide), hslash]
      rfl
    · rw [components_extend (by decide), hslashes]
      rfl

end Path

end TemplateTrace
