import Mathlib.Data.List.Basic
import TemplateTrace.Proofs.Assoc
import TemplateTrace.SourceMap.Build

namespace TemplateTrace

namespace SourceMap

def newIn : List String → List String → List String
  | _, [] => []
  | known, name :: rest =>
    if name ∈ known then newIn known rest else name :: newIn (known ++ [name]) rest

theorem mem_newIn_iff {name : String} {known names : List String} :
    name ∈ newIn known names ↔ name ∈ names ∧ name ∉ known := by
  induction names generalizing known with
  | nil => simp [newIn]
  | cons other rest ih =>
    rw [newIn]
    split
    · rw [ih, List.mem_cons]
      constructor
      · rintro ⟨hr, hk⟩
        exact ⟨.inr hr, hk⟩
      · rintro ⟨rfl | hr, hk⟩
        · contradiction
        · exact ⟨hr, hk⟩
    · rename_i hother
      simp only [List.mem_cons, ih, List.mem_append, List.not_mem_nil, or_false, not_or]
      by_cases h : name = other
      · subst h; simp [hother]
      · simp [h]

theorem nodup_newIn (known names : List String) : (newIn known names).Nodup := by
  induction names generalizing known with
  | nil => exact List.nodup_nil
  | cons other rest ih =>
    rw [newIn]
    split
    · exact ih known
    · refine List.nodup_cons.mpr ⟨?_, ih _⟩
      rw [mem_newIn_iff]
      simp

theorem pairwise_newIn (known names : List String) :
    (newIn known names).Pairwise fun a b => names.idxOf a < names.idxOf b := by
  induction names generalizing known with
  | nil => exact .nil
  | cons name rest ih =>
    have hne {known : List String} (hname : name ∈ known) : ∀ other ∈ newIn known rest, name ≠ other := by
      rintro _ hother rfl
      exact (mem_newIn_iff.mp hother).2 hname
    have hrest {known : List String} (hname : name ∈ known) : (newIn known rest).Pairwise
        fun a b => (name :: rest).idxOf a < (name :: rest).idxOf b := by
      refine (ih known).imp_of_mem fun ha hb hlt => ?_
      rw [List.idxOf_cons_ne _ (hne hname _ ha), List.idxOf_cons_ne _ (hne hname _ hb)]
      exact Nat.succ_lt_succ hlt
    rw [newIn]
    split
    · rename_i hname
      exact hrest hname
    · have hname : name ∈ known ++ [name] := by simp
      refine List.pairwise_cons.mpr ⟨fun other hother => ?_, hrest hname⟩
      rw [List.idxOf_cons_self, List.idxOf_cons_ne _ (hne hname _ hother)]
      exact Nat.succ_pos _

theorem newIn_append (known names more : List String) :
    newIn known (names ++ more) =
      newIn known names ++ newIn (known ++ newIn known names) more := by
  induction names generalizing known with
  | nil => simp [newIn]
  | cons other rest ih =>
    rw [List.cons_append, newIn, newIn]
    split
    · exact ih known
    · rw [ih]
      simp

theorem newIn_map_newIn {seen known : List String} (g : String → String) (h : ∀ name ∈ known, g name ∈ seen)
    (names : List String) : newIn seen ((newIn known names).map g) = newIn seen (names.map g) := by
  induction names generalizing seen known with
  | nil => rfl
  | cons name rest ih =>
    rw [List.map_cons, newIn]
    split
    · rename_i hname
      rw [ih h, newIn, if_pos (h name hname)]
    · have hlater {seen : List String} (hseen : ∀ name ∈ known, g name ∈ seen) (hname : g name ∈ seen) :
          newIn seen ((newIn (known ++ [name]) rest).map g) = newIn seen (rest.map g) := by
        refine ih fun other hother => ?_
        rcases List.mem_append.mp hother with hother | hother
        · exact hseen other hother
        · rwa [List.mem_singleton.mp hother]
      rw [List.map_cons, newIn, newIn]
      split
      · rename_i hname
        exact hlater h hname
      · rw [hlater (fun other hother => List.mem_append_left _ (h other hother)) (by simp)]

theorem foldl_firstSeen (seen names : List String) :
    names.foldl (fun seen name => if seen.contains name then seen else seen ++ [name]) seen =
      seen ++ newIn seen names := by
  induction names generalizing seen with
  | nil => simp [newIn]
  | cons other rest ih =>
    rw [List.foldl_cons, ih, newIn]
    by_cases h : other ∈ seen <;> simp [h]

theorem firstSeen_eq (names : List String) : firstSeen names = newIn [] names := by
  rw [firstSeen, foldl_firstSeen, List.nil_append]

namespace Progress

def paths (p : Progress) : List String := Assoc.keys p.sources

def learn (p : Progress) (path : String) (source : Source) : Progress :=
  { sources := Assoc.insert path source p.sources, files := (p.intern source.filename).2.files }

def extend (p : Progress) (answers : Assoc String Source) : Progress :=
  answers.foldl (fun p e => p.learn e.1 e.2) p

def source (p : Progress) (path : String) : Source := (p.sources.lookup path).getD ⟨"", ""⟩

def link (p : Progress) (site : Site) : Link :=
  ⟨p.files.idxOf (p.source site.path).filename, (p.source site.path).lineAt site.offset⟩

def Named (p : Progress) : Prop :=
  ∀ path source, Assoc.lookup path p.sources = some source → source.filename ∈ p.files

theorem named_empty : Named {} := fun _ _ h => by cases h

theorem intern_known {p : Progress} {name : String} (h : name ∈ p.files) :
    p.intern name = (p.files.idxOf name, p) := by
  obtain ⟨i, hi⟩ := Option.isSome_iff_exists.mp (List.isSome_idxOf?.mpr h)
  have hidx : p.files.idxOf name = i := by rw [List.idxOf_eq_getD_idxOf?, hi, Option.getD_some]
  simp [intern, hi, hidx]

theorem intern_new {p : Progress} {name : String} (h : name ∉ p.files) :
    p.intern name = (p.files.length, { p with files := p.files ++ [name] }) := by
  simp [intern, List.idxOf?_eq_none_iff.mpr h]

theorem prefix_intern (p : Progress) (name : String) : p.files <+: (p.intern name).2.files := by
  by_cases h : name ∈ p.files
  · simp [intern_known h]
  · simp [intern_new h]

theorem mem_intern (p : Progress) (name : String) : name ∈ (p.intern name).2.files := by
  by_cases h : name ∈ p.files
  · rwa [intern_known h]
  · simp [intern_new h]

theorem intern_lt (p : Progress) (name : String) :
    (p.intern name).1 < (p.intern name).2.files.length := by
  by_cases h : name ∈ p.files
  · rw [intern_known h]
    exact List.idxOf_lt_length_of_mem h
  · simp [intern_new h]

theorem intern_learn (p : Progress) (path : String) (source : Source) :
    intern { p with sources := Assoc.insert path source p.sources } source.filename =
      ((p.learn path source).files.idxOf source.filename, p.learn path source) := by
  let q : Progress := { p with sources := Assoc.insert path source p.sources }
  change q.intern source.filename = _
  by_cases h : source.filename ∈ p.files
  · rw [@intern_known q _ h, learn, intern_known h]
  · rw [@intern_new q _ h, learn, intern_new h, List.idxOf_append_of_notMem h]
    simp [q]

theorem prefix_learn (p : Progress) (path : String) (source : Source) :
    p.files <+: (p.learn path source).files := prefix_intern p source.filename

theorem files_learn (p : Progress) (path : String) (source : Source) : (p.learn path source).files =
    if source.filename ∈ p.files then p.files else p.files ++ [source.filename] := by
  rw [learn]
  split
  · rw [intern_known (by assumption)]
  · rw [intern_new (by assumption)]

theorem sources_learn {p : Progress} {path : String} (source : Source) (h : path ∉ p.paths) :
    (p.learn path source).sources = p.sources ++ [(path, source)] :=
  Assoc.insert_of_not_mem_keys source h

theorem paths_learn {p : Progress} {path : String} (source : Source) (h : path ∉ p.paths) :
    (p.learn path source).paths = p.paths ++ [path] := by
  rw [paths, sources_learn source h, Assoc.keys, List.map_append]
  rfl

theorem source_learn (p : Progress) (path other : String) (source : Source) :
    (p.learn path source).source other = if other = path then source else p.source other := by
  rw [Progress.source, learn, Assoc.lookup_insert]
  split <;> rfl

theorem named_learn {p : Progress} (hp : p.Named) (path : String) (source : Source) :
    (p.learn path source).Named := by
  intro other found h
  rw [learn, Assoc.lookup_insert] at h
  split at h
  · cases h
    exact mem_intern p source.filename
  · exact (prefix_learn p path source).subset (hp other found h)

theorem lookup_of_mem_paths {p : Progress} {path : String} (h : path ∈ p.paths) :
    Assoc.lookup path p.sources = some (p.source path) := by
  obtain ⟨source, hs⟩ := Option.isSome_iff_exists.mp ((Assoc.mem_keys_iff path p.sources).mp h)
  rw [Progress.source, hs, Option.getD_some]

theorem mem_files_of_mem_paths {p : Progress} (hp : p.Named) {path : String} (h : path ∈ p.paths) :
    (p.source path).filename ∈ p.files := hp path _ (lookup_of_mem_paths h)

theorem link_file_lt {p : Progress} (hp : p.Named) {site : Site} (h : site.path ∈ p.paths) :
    (p.link site).file < p.files.length :=
  List.idxOf_lt_length_of_mem (mem_files_of_mem_paths hp h)

theorem link_learn {p : Progress} (hp : p.Named) {site : Site} (h : site.path ∈ p.paths)
    {path : String} (source : Source) (hnew : path ∉ p.paths) :
    (p.learn path source).link site = p.link site := by
  have hne : site.path ≠ path := fun he => hnew (he ▸ h)
  obtain ⟨more, hmore⟩ := prefix_learn p path source
  rw [link, link, source_learn, if_neg hne, ← hmore,
    List.idxOf_append_of_mem (mem_files_of_mem_paths hp h)]

def Fresh (p : Progress) (answers : Assoc String Source) : Prop :=
  (Assoc.keys answers).Nodup ∧ ∀ path ∈ Assoc.keys answers, path ∉ p.paths

theorem fresh_of_newIn {p : Progress} {answers : Assoc String Source} {names : List String}
    (h : Assoc.keys answers = newIn p.paths names) : p.Fresh answers := by
  refine ⟨h ▸ nodup_newIn _ _, fun path hpath => ?_⟩
  rw [h] at hpath
  exact (mem_newIn_iff.mp hpath).2

theorem Fresh.learn {p : Progress} {path : String} {source : Source}
    {answers : Assoc String Source} (h : p.Fresh ((path, source) :: answers)) :
    path ∉ p.paths ∧ (p.learn path source).Fresh answers := by
  obtain ⟨hnodup, hnew⟩ := h
  have hpath : path ∉ p.paths := hnew path (by simp [Assoc.keys])
  obtain ⟨hout, hrest⟩ := List.nodup_cons.mp hnodup
  refine ⟨hpath, hrest, fun other hother => ?_⟩
  rw [paths_learn source hpath, List.mem_append, List.mem_singleton, not_or]
  exact ⟨hnew other (List.mem_cons_of_mem _ hother), fun he => hout (he ▸ hother)⟩

theorem named_extend {p : Progress} (hp : p.Named) (answers : Assoc String Source) :
    (p.extend answers).Named := by
  induction answers generalizing p with
  | nil => exact hp
  | cons e rest ih => exact ih (named_learn hp e.1 e.2)

theorem sources_extend {p : Progress} {answers : Assoc String Source} (h : p.Fresh answers) :
    (p.extend answers).sources = p.sources ++ answers := by
  induction answers generalizing p with
  | nil => simp [extend]
  | cons e rest ih =>
    obtain ⟨hnew, hrest⟩ := h.learn
    have hi := ih hrest
    rw [sources_learn e.2 hnew, List.append_assoc] at hi
    exact hi

theorem files_extend (p : Progress) (answers : Assoc String Source) :
    (p.extend answers).files = p.files ++ newIn p.files (answers.map fun e => e.2.filename) := by
  induction answers generalizing p with
  | nil => simp [extend, newIn]
  | cons e rest ih =>
    have hextend : p.extend (e :: rest) = (p.learn e.1 e.2).extend rest := rfl
    rw [hextend, ih, files_learn, List.map_cons, newIn]
    split
    · rfl
    · rw [List.append_assoc, List.singleton_append]

theorem paths_extend {p : Progress} {answers : Assoc String Source} (h : p.Fresh answers) :
    (p.extend answers).paths = p.paths ++ Assoc.keys answers := by
  rw [paths, sources_extend h, Assoc.keys, List.map_append]
  rfl

theorem link_extend {p : Progress} (hp : p.Named) {answers : Assoc String Source}
    (hf : p.Fresh answers) {site : Site} (h : site.path ∈ p.paths) :
    (p.extend answers).link site = p.link site := by
  induction answers generalizing p with
  | nil => rfl
  | cons e rest ih =>
    obtain ⟨hnew, hrest⟩ := hf.learn
    have hmem : site.path ∈ (p.learn e.1 e.2).paths := by
      rw [paths_learn e.2 hnew]
      exact List.mem_append_left _ h
    exact (ih (named_learn hp e.1 e.2) hrest hmem).trans (link_learn hp h e.2 hnew)

theorem extend_append (p : Progress) (answers more : Assoc String Source) :
    p.extend (answers ++ more) = (p.extend answers).extend more := List.foldl_append

end Progress

end SourceMap

end TemplateTrace
