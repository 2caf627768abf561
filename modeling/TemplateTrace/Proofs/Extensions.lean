import TemplateTrace.Proofs.Templates

namespace TemplateTrace

namespace DirectoryLoader

variable {text bare path last last' root : String} {here? : Option String} {before before' : List String}
  {extension : Option String} {t : FileTree}

/-- The path leads to a file whose name needs an extension, and there is none that can be added. -/
def Breaks (extension : Option String) (path : String) : Prop :=
  ∃ text ∈ extension, '/' ∈ text.toList ∧ ∃ before last, Leads path before last ∧ '.' ∉ last.toList.tail

theorem Leads.unique (h : Leads path before last) (h' : Leads path before' last') :
    before = before' ∧ last = last' := by
  have hnames := h.names.symm.trans h'.names
  simpa using hnames

theorem undotted_of_slash (h : '/' ∈ text.toList) : ∃ bare, undotted text = some bare ∧ '/' ∈ bare.toList := by
  have hrest : '/' ∈ text.toList.dropWhile (· = '.') := by
    have hsplit := List.takeWhile_append_dropWhile (p := (· = '.')) (l := text.toList)
    rw [← hsplit, List.mem_append] at h
    refine h.resolve_left fun hdots => ?_
    have hdot := List.mem_takeWhile_imp hdots
    simp at hdot
  refine ⟨String.ofList (text.toList.dropWhile (· = '.')), if_neg (List.ne_nil_of_mem hrest), ?_⟩
  rwa [String.toList_ofList]

theorem not_extensible_iff : ¬ Extensible (extension.bind undotted) last ↔
    ∃ text ∈ extension, '/' ∈ text.toList ∧ '.' ∉ last.toList.tail := by
  simp only [Extensible, not_forall, not_not, Option.mem_def, Option.bind_eq_some_iff]
  constructor
  · rintro ⟨bare, ⟨text, htext, hbare⟩, hdot, hslash⟩
    refine ⟨text, htext, ?_, hdot⟩
    by_contra hnone
    exact no_slash_of_undotted hbare hnone hslash
  · rintro ⟨text, htext, hslash, hdot⟩
    obtain ⟨bare, hbare, hslash⟩ := undotted_of_slash hslash
    exact ⟨bare, ⟨text, htext, hbare⟩, hdot, hslash⟩

theorem Leads.breaks_iff (h : Leads path before last) :
    Breaks extension path ↔ ¬ Extensible (extension.bind undotted) last := by
  rw [not_extensible_iff]
  constructor
  · rintro ⟨text, htext, hslash, before', last', h', hdot⟩
    obtain ⟨rfl, rfl⟩ := h.unique h'
    exact ⟨text, htext, hslash, hdot⟩
  · rintro ⟨text, htext, hslash, hdot⟩
    exact ⟨text, htext, hslash, before, last, h, hdot⟩

theorem resolve_of_breaks (h : Breaks extension path) :
    (configured here? root extension).resolve path = .error .abort := by
  obtain ⟨_, _, _, before, last, hleads, _⟩ := id h
  apply resolve_abort hleads
  rw [configured_extension]
  exact hleads.breaks_iff.mp h

theorem resolve_of_not_breaks (h : ¬ Breaks extension path) (here? : Option String) (root : String) :
    (∃ file, (configured here? root extension).resolve path = .ok file) ∨
      ∃ reason, (configured here? root extension).resolve path =
        .error (.error (.templateLoad path reason)) := by
  obtain habsolute | ⟨hrelative, hup⟩ | ⟨hrelative, hnames⟩ | ⟨before, last, hleads⟩ := path_cases path
  · exact .inr ⟨_, resolve_absolute habsolute⟩
  · exact .inr ⟨_, resolve_upwards hrelative hup⟩
  · exact .inr ⟨_, resolve_empty hrelative hnames⟩
  · rw [hleads.breaks_iff, not_not, ← configured_extension here? root] at h
    exact .inl ⟨_, resolve_leads hleads h⟩

theorem load_of_breaks (h : Breaks extension path) (here? : Option String) (root : String) (t : FileTree) :
    runFrom ((configured here? root extension).load path :
      ExceptT Failure (StateM FileTree) Source) t = (.error .abort, t) :=
  load_refused (resolve_of_breaks h) t

theorem load_of_not_breaks (h : ¬ Breaks extension path) (here? : Option String) (root : String) (t : FileTree) :
    (∃ source, runFrom ((configured here? root extension).load path :
      ExceptT Failure (StateM FileTree) Source) t = (.ok source, t)) ∨
      ∃ reason, runFrom ((configured here? root extension).load path :
        ExceptT Failure (StateM FileTree) Source) t = (.error (.error (.templateLoad path reason)), t) := by
  obtain ⟨file, hfile⟩ | ⟨reason, hrefused⟩ := resolve_of_not_breaks h here? root
  · rw [load_resolved hfile]
    rcases template t file with reason | source
    · exact .inr ⟨reason, rfl⟩
    · exact .inl ⟨source, rfl⟩
  · exact .inr ⟨reason, load_refused hrefused t⟩

theorem contains_of_breaks (h : Breaks extension path) (here? : Option String) (root : String) (t : FileTree) :
    runFrom ((configured here? root extension).contains path :
      ExceptT Failure (StateM FileTree) Bool) t = (.error .abort, t) := by
  rw [contains, resolve_of_breaks h]
  rfl

theorem contains_of_not_breaks (h : ¬ Breaks extension path) (here? : Option String) (root : String) (t : FileTree) :
    ∃ found, runFrom ((configured here? root extension).contains path :
      ExceptT Failure (StateM FileTree) Bool) t = (.ok found, t) := by
  rw [contains]
  obtain ⟨file, hfile⟩ | ⟨reason, hrefused⟩ := resolve_of_not_breaks h here? root
  · rw [hfile]
    exact ⟨_, rfl⟩
  · rw [hrefused]
    exact ⟨false, rfl⟩

theorem load_aborts_iff : (runFrom ((configured here? root extension).load path :
    ExceptT Failure (StateM FileTree) Source) t).1 = .error .abort ↔ Breaks extension path := by
  by_cases h : Breaks extension path
  · rw [load_of_breaks h]
    exact iff_of_true rfl h
  · apply iff_of_false _ h
    obtain ⟨source, hload⟩ | ⟨reason, hload⟩ := load_of_not_breaks h here? root t
    · rw [hload]
      nofun
    · rw [hload]
      nofun

theorem calculate_aborts_iff {content : String} {table : Table Location} :
    (runFrom (SourceMap.calculate (m := StateM FileTree) (configured here? root extension).load
      content table) t).1 = .error .abort ↔
      ∃ before path after, SourceMap.loadOrder (Text.bytes content) table = before ++ path :: after ∧
        (∀ p ∈ before, (runFrom ((configured here? root extension).load p :
          ExceptT Failure (StateM FileTree) Source) t).1.isOk) ∧ Breaks extension path := by
  constructor
  · intro h
    have hrun := calculate_eq_error_iff.mp (Prod.ext h rfl)
    obtain ⟨-, before, path, after, hsplit, hbefore, hload⟩ := hrun
    exact ⟨before, path, after, hsplit, hbefore, load_aborts_iff.mp (congrArg Prod.fst hload)⟩
  · rintro ⟨before, path, after, hsplit, hbefore, hbreaks⟩
    have hrun := calculate_eq_error_iff.mpr
      ⟨rfl, before, path, after, hsplit, hbefore, load_of_breaks hbreaks here? root t⟩
    rw [hrun]

end DirectoryLoader

end TemplateTrace
