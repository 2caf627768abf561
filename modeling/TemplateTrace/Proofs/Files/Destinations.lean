import TemplateTrace.Proofs.Files.Walks

/-!
Where a path leads in every tree that it can be walked in, which depends on its text and the
current directory only. What is below a directory leads below where the directory leads.
-/

namespace TemplateTrace

namespace FileTree

variable {t : FileTree} {p q : List String} {path name : String} {names : List String}

def follow (p : List String) (name : String) : List String :=
  if name = "." then p else if name = ".." then p.dropLast else p ++ [name]

def destination (dir : List String) (path : String) : List String :=
  (stepsOf path).foldl follow (if Path.isAbsolute path then [] else dir)

theorem eq_follow_of_step (h : t.step p name = .ok q) : q = follow p name := by
  rw [step_dir (look?_of_step h), nextOf] at h
  rw [follow]
  split at h
  · rename_i hdot
    cases h
    rw [if_pos hdot]
  · rename_i hdot
    rw [if_neg hdot]
    split at h
    · rename_i hdots
      cases h
      rw [if_pos hdots]
    · rename_i hdots
      rw [if_neg hdots]
      split at h
      · cases h
      · cases h
        rfl

theorem eq_foldl_of_walk (h : t.walk p names = .ok q) : q = names.foldl follow p := by
  induction names generalizing p with
  | nil =>
    cases h
    rfl
  | cons name rest ih =>
    obtain ⟨next, hstep, hwalk⟩ := ok_of_bind h
    rw [List.foldl_cons, ← eq_follow_of_step hstep]
    exact ih hwalk

theorem eq_destination_of_place (h : t.place path = .ok p) : p = destination t.currentDir path := by
  rw [place_of_check t (checkPath_of_place h)] at h
  exact eq_foldl_of_walk h

theorem prefix_foldl_follow (p : List String) (h : ".." ∉ names) : p <+: names.foldl follow p := by
  induction names generalizing p with
  | nil => exact List.prefix_rfl
  | cons name rest ih =>
    rw [List.mem_cons, not_or] at h
    have hnext : p <+: follow p name := by
      rw [follow, if_neg (Ne.symm h.1)]
      split
      · exact List.prefix_rfl
      · exact List.prefix_append _ _
    exact hnext.trans (ih _ h.2)

theorem prefix_destination_join {base : String} (hbase : Path.isAbsolute base = true)
    (hpath : Path.isAbsolute path = false) (hup : ".." ∉ stepsOf path) (dir dir' : List String) :
    destination dir base <+: destination dir' (Path.join base path) := by
  have hempty : base ≠ "" := by
    rintro rfl
    cases hbase
  rw [destination, destination, stepsOf_join_relative hpath hempty,
    Path.isAbsolute_join hpath hempty, hbase, if_pos rfl, if_pos rfl, List.foldl_append]
  exact prefix_foldl_follow _ hup

end FileTree

namespace Path

variable {names before : List String} {last suffix : String}

theorem parts_ofParts (h : names ≠ []) (hslash : ∀ name ∈ names, '/' ∉ name.toList) :
    parts (ofParts names) = names := by
  have hsplit : (List.intercalate ['/'] (names.map String.toList)).splitOn '/' =
      names.map String.toList := by
    apply List.splitOn_intercalate
    · simpa using hslash
    · simpa using h
  have htext : (ofParts names).toList = List.intercalate ['/'] (names.map String.toList) :=
    String.toList_intercalate
  rw [parts, htext, hsplit, List.map_map]
  simp

theorem ofParts_concat (before : List String) (last suffix : String) :
    ofParts (before ++ [last]) ++ suffix = ofParts (before ++ [last ++ suffix]) := by
  rcases before with _ | ⟨first, rest⟩
  · simp [ofParts]
  · have hne : first :: rest ≠ [] := List.cons_ne_nil first rest
    rw [ofParts, ofParts, String.intercalate_append_of_ne_nil hne (by simp),
      String.intercalate_append_of_ne_nil hne (by simp), String.append_assoc]
    simp

theorem head_parts_of_isAbsolute {path : String} (h : isAbsolute path = true) :
    (parts path).head? = some "" := by
  rw [isAbsolute, beq_iff_eq] at h
  obtain ⟨rest, hrest⟩ := List.head?_eq_some_iff.mp h
  rw [parts, hrest, List.splitOn_cons_eq_if_modifyHead]
  rfl

end Path

end TemplateTrace
