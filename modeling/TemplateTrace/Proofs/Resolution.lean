import Mathlib.Data.List.Basic
import TemplateTrace.Loader.Directory
import TemplateTrace.Proofs.Files.Components

namespace TemplateTrace

open TemplateTrace.Path (Component components names)

namespace DirectoryLoader

variable {l : DirectoryLoader} {path other file last : String} {before : List String}
  {extension : Option String} {e : Failure}

def named (extension : Option String) (last : String) : String :=
  match extension with
  | none => last
  | some bare => if '.' ∈ last.toList.tail then last else last ++ "." ++ bare

def Extensible (extension : Option String) (last : String) : Prop :=
  ∀ bare ∈ extension, '.' ∉ last.toList.tail → '/' ∉ bare.toList

theorem dot_mem_tail (h : last ≠ "") (bare : String) :
    '.' ∈ (last ++ "." ++ bare).toList.tail := by
  rw [String.append_assoc, String.toList_append, List.tail_append_of_ne_nil (Path.toList_ne_nil h)]
  simp

theorem named_of_dot (h : '.' ∈ last.toList.tail) : named extension last = last := by
  rcases extension with _ | bare
  · rfl
  · exact if_pos h

theorem named_named (h : last ≠ "") : named extension (named extension last) = named extension last := by
  rcases extension with _ | bare
  · rfl
  · by_cases hdot : '.' ∈ last.toList.tail
    · rw [named_of_dot hdot, named_of_dot hdot]
    · have hnamed : named (some bare) last = last ++ "." ++ bare := if_neg hdot
      rw [hnamed, named_of_dot (dot_mem_tail h bare)]

theorem extensible_named (h : last ≠ "") : Extensible extension (named extension last) := by
  rintro bare hbare hdot
  rw [Option.mem_def] at hbare
  rw [hbare] at hdot
  by_cases hown : '.' ∈ last.toList.tail
  · rw [named_of_dot hown] at hdot
    exact absurd hown hdot
  · rw [named, if_neg hown] at hdot
    exact absurd (dot_mem_tail h bare) hdot

theorem isSegment_named (hlast : Path.IsSegment last) (hextensible : Extensible extension last) :
    Path.IsSegment (named extension last) := by
  rcases extension with _ | bare
  · exact hlast
  · by_cases hdot : '.' ∈ last.toList.tail
    · rwa [named_of_dot hdot]
    · have hnamed : named (some bare) last = last ++ "." ++ bare := if_neg hdot
      have hmem := dot_mem_tail hlast.nonempty bare
      rw [hnamed]
      refine ⟨?_, ?_, ?_⟩
      · intro heq
        simp [heq] at hmem
      · intro heq
        simp [heq] at hmem
      · have hslash := hextensible bare rfl hdot
        simp [String.toList_append, hlast.no_slash, hslash]

theorem named_ne_dots (hlast : Path.IsSegment last) (hdots : last ≠ "..") :
    named extension last ≠ ".." := by
  rcases extension with _ | bare
  · exact hdots
  · rw [named]
    split
    · exact hdots
    · intro heq
      obtain ⟨c, rest, hcons⟩ := List.exists_cons_of_ne_nil (Path.toList_ne_nil hlast.nonempty)
      have hchars := congrArg String.toList heq
      rw [String.toList_append, String.toList_append, hcons] at hchars
      obtain ⟨hc, hrest⟩ : c = '.' ∧ rest ++ '.' :: bare.toList = ['.'] := by simpa using hchars
      have hnone : rest = [] := by
        rcases rest with _ | ⟨d, rest⟩
        · rfl
        · simp at hrest
      refine hlast.ne_dot ?_
      rw [← String.toList_inj, hcons, hc, hnone]
      rfl

theorem resolve_absolute (h : Path.isAbsolute path = true) :
    l.resolve path = .error (.error (.templateLoad path Refusal.absolutePath.message)) := by
  rw [resolve, relativeNames, if_pos h]

theorem resolve_upwards (habsolute : Path.isAbsolute path = false) (hup : ".." ∈ names path) :
    l.resolve path = .error (.error (.templateLoad path Refusal.upwards.message)) := by
  have hrelative : relativeNames path = .error .upwards := by
    simp [relativeNames, habsolute, hup]
  rw [resolve, hrelative]

theorem resolve_empty (habsolute : Path.isAbsolute path = false) (hnames : names path = []) :
    l.resolve path = .error (.error (.templateLoad path Refusal.empty.message)) := by
  have hrelative : relativeNames path = .error .empty := by
    simp [relativeNames, habsolute, hnames]
  rw [resolve, hrelative]

/-- The path leads to a file below the root, with these names before the last one. -/
structure Leads (path : String) (before : List String) (last : String) : Prop where
  relative : Path.isAbsolute path = false
  no_dots : ".." ∉ names path
  names : names path = before ++ [last]

theorem Leads.relativeNames (h : Leads path before last) :
    relativeNames path = .ok (before ++ [last]) := by
  have hdots := h.no_dots
  rw [h.names] at hdots
  simpa [DirectoryLoader.relativeNames, h.relative, h.names] using hdots

theorem Leads.last_ne_dots (h : Leads path before last) : last ≠ ".." := by
  rintro rfl
  exact h.no_dots (h.names ▸ List.mem_concat_self)

theorem Leads.isSegment (h : Leads path before last) : ∀ name ∈ before ++ [last], Path.IsSegment name := by
  rw [← h.names]
  exact fun name => Path.isSegment_of_mem_names

theorem Leads.extension? (h : Leads path before last) :
    Path.extension? (Path.ofParts (before ++ [last])) = none ↔ '.' ∉ last.toList.tail := by
  rw [Path.extension?_ofParts h.isSegment h.last_ne_dots, Path.splitExtension_eq_none_iff]

theorem resolve_leads (h : Leads path before last) (hextensible : Extensible l.extension last) :
    l.resolve path = .ok (Path.join l.root (Path.ofParts (before ++ [named l.extension last]))) := by
  rw [resolve, h.relativeNames]
  dsimp only
  split
  · rename_i bare hbare hnone
    have hdot := h.extension?.mp hnone
    rw [if_neg (by simpa using hextensible bare hbare hdot), hbare, named, if_neg hdot,
      Path.ofParts_concat, Path.ofParts_concat]
  · rename_i hown
    have hnamed : named l.extension last = last := by
      rcases hextension : l.extension with _ | bare
      · rfl
      · refine named_of_dot (not_not.mp fun hdot => ?_)
        exact hown bare hextension (h.extension?.mpr hdot)
    rw [hnamed]

theorem resolve_abort (h : Leads path before last) (hextensible : ¬ Extensible l.extension last) :
    l.resolve path = .error .abort := by
  simp only [Extensible, not_forall, not_not, Option.mem_def] at hextensible
  obtain ⟨bare, hbare, hdot, hslash⟩ := hextensible
  rw [resolve, h.relativeNames, hbare]
  dsimp only
  rw [h.extension?.mpr hdot]
  exact if_pos (by simpa using hslash)

theorem path_cases (path : String) : Path.isAbsolute path = true ∨
    (Path.isAbsolute path = false ∧ ".." ∈ names path) ∨
    (Path.isAbsolute path = false ∧ names path = []) ∨ ∃ before last, Leads path before last := by
  by_cases habsolute : Path.isAbsolute path = true
  · exact .inl habsolute
  · rw [Bool.not_eq_true] at habsolute
    by_cases hup : ".." ∈ names path
    · exact .inr (.inl ⟨habsolute, hup⟩)
    · rcases List.eq_nil_or_concat' (names path) with hnames | ⟨before, last, hnames⟩
      · exact .inr (.inr (.inl ⟨habsolute, hnames⟩))
      · exact .inr (.inr (.inr ⟨before, last, habsolute, hup, hnames⟩))

theorem resolve_eq_ok_iff : l.resolve path = .ok file ↔
    ∃ before last, Leads path before last ∧ Extensible l.extension last ∧
      file = Path.join l.root (Path.ofParts (before ++ [named l.extension last])) := by
  constructor
  · intro h
    obtain habsolute | ⟨hrelative, hup⟩ | ⟨hrelative, hnames⟩ | ⟨before, last, hleads⟩ := path_cases path
    · rw [resolve_absolute habsolute] at h
      cases h
    · rw [resolve_upwards hrelative hup] at h
      cases h
    · rw [resolve_empty hrelative hnames] at h
      cases h
    · by_cases hextensible : Extensible l.extension last
      · rw [resolve_leads hleads hextensible] at h
        cases h
        exact ⟨before, last, hleads, hextensible, rfl⟩
      · rw [resolve_abort hleads hextensible] at h
        cases h
  · rintro ⟨before, last, hleads, hextensible, rfl⟩
    exact resolve_leads hleads hextensible

theorem refusal_of_resolve (hextension : ∀ bare ∈ l.extension, '/' ∉ bare.toList)
    (h : l.resolve path = .error e) : ∃ reason, e = .error (.templateLoad path reason) := by
  obtain habsolute | ⟨hrelative, hup⟩ | ⟨hrelative, hnames⟩ | ⟨before, last, hleads⟩ := path_cases path
  · rw [resolve_absolute habsolute] at h
    cases h
    exact ⟨_, rfl⟩
  · rw [resolve_upwards hrelative hup] at h
    cases h
    exact ⟨_, rfl⟩
  · rw [resolve_empty hrelative hnames] at h
    cases h
    exact ⟨_, rfl⟩
  · rw [resolve_leads hleads fun bare hbare _ => hextension bare hbare] at h
    cases h

theorem resolve_of_names (habsolute : Path.isAbsolute path = Path.isAbsolute other)
    (hnames : names path = names other) (h : l.resolve path = .ok file) : l.resolve other = .ok file := by
  obtain ⟨before, last, ⟨hrelative, hdots, hsplit⟩, hfile⟩ := resolve_eq_ok_iff.mp h
  exact resolve_eq_ok_iff.mpr
    ⟨before, last, ⟨habsolute ▸ hrelative, hnames ▸ hdots, hnames ▸ hsplit⟩, hfile⟩

theorem Leads.isSegment_named (h : Leads path before last) (hextensible : Extensible extension last) :
    ∀ name ∈ before ++ [named extension last], Path.IsSegment name := by
  intro name hname
  rcases List.mem_append.mp hname with hbefore | hname
  · exact h.isSegment name (List.mem_append_left _ hbefore)
  · rw [List.mem_singleton] at hname
    rw [hname]
    exact DirectoryLoader.isSegment_named (h.isSegment last List.mem_concat_self) hextensible

theorem Leads.named_no_dots (h : Leads path before last) : ".." ∉ before ++ [named extension last] := by
  have hbefore := h.no_dots
  rw [h.names, List.mem_append, not_or] at hbefore
  rw [List.mem_append, not_or, List.mem_singleton]
  refine ⟨hbefore.1, fun heq => ?_⟩
  exact named_ne_dots (h.isSegment last List.mem_concat_self) h.last_ne_dots heq.symm

theorem resolve_of_components (h : Leads path before last) (hextensible : Extensible l.extension last)
    (hother : components other = (before ++ [named l.extension last]).map .name) :
    l.resolve other = l.resolve path := by
  obtain ⟨hrelative, hnames⟩ := Path.of_components_eq_names hother
  have hsegment := h.isSegment last List.mem_concat_self
  -- The last name has its extension by now, so that it gets no other.
  have hleads : Leads other before (named l.extension last) :=
    ⟨hrelative, hnames ▸ h.named_no_dots, hnames⟩
  rw [resolve_leads hleads (extensible_named hsegment.nonempty), named_named hsegment.nonempty,
    resolve_leads h hextensible]

def configured (here? : Option String) (root : String) (extension : Option String) : DirectoryLoader :=
  extension.elim (ofRoot here? root) (ofRoot here? root).withExtension

def undotted (text : String) : Option String :=
  let rest := text.toList.dropWhile (· = '.')
  if rest = [] then none else some (String.ofList rest)

theorem configured_extension (here? : Option String) (root : String) (extension : Option String) :
    (configured here? root extension).extension = extension.bind undotted := by
  rcases extension with _ | text
  · rfl
  · simp [configured, withExtension, undotted, List.isEmpty_iff]

theorem configured_root (here? : Option String) (root : String) (extension : Option String) :
    (configured here? root extension).root = (Path.absolute? here? root).getD root := by
  rcases extension with _ | text
  · rfl
  · rfl

theorem components_root {here? : Option String} {root : String} (hroot : root ≠ "")
    (hhere : Path.isAbsolute root = false → ∃ here ≠ "", here? = some here) (extension : Option String) :
    components (configured here? root extension).root =
      if Path.isAbsolute root then components root
      else components (here?.getD "") ++ (names root).map .ofName := by
  rw [configured_root]
  rcases hwhole : Path.absolute? here? root with _ | whole
  · obtain hempty | ⟨hrelative, hnone⟩ := Path.absolute?_eq_none_iff.mp hwhole
    · exact absurd hempty hroot
    · obtain ⟨here, -, hsome⟩ := hhere hrelative
      rw [hnone] at hsome
      cases hsome
  · rw [Option.getD_some]
    apply Path.components_absolute? hwhole
    intro hrelative hempty
    obtain ⟨here, hne, hsome⟩ := hhere hrelative
    rw [hempty] at hsome
    exact hne (Option.some.inj hsome).symm

theorem root_of_no_directory {root : String} (hroot : Path.isAbsolute root = false)
    (extension : Option String) : (configured none root extension).root = root := by
  rw [configured_root, Path.absolute?_eq_none_iff.mpr (.inr ⟨hroot, rfl⟩)]
  rfl

theorem no_slash_of_undotted {text bare : String} (h : undotted text = some bare)
    (hslash : '/' ∉ text.toList) : '/' ∉ bare.toList := by
  rw [undotted] at h
  split at h
  · cases h
  · cases h
    rw [String.toList_ofList]
    exact fun hmem => hslash ((List.dropWhile_sublist _).subset hmem)

def Inside (dir path : String) : Prop :=
  ∃ below, components path = components dir ++ below ∧ below ≠ [] ∧ .up ∉ below

/-- A path is refused, or leads below the root by its names. The part of the result that is below
the root leads to the same result, however it is spelled. -/
theorem resolve_configured (here? : Option String) (root path : String) (extension : Option String)
    (hslash : ∀ text ∈ extension, '/' ∉ text.toList) :
    let l := configured here? root extension
    (root = "" → l.root = "") ∧
    (∀ currentDir, here? = some currentDir → root ≠ "" → (Path.isAbsolute root = false → currentDir ≠ "") →
      components l.root = if Path.isAbsolute root then components root
        else components currentDir ++ (names root).map .ofName) ∧
    (here? = none → (Path.isAbsolute root = false → l.root = root) ∧
      (Path.isAbsolute root = true → components l.root = components root)) ∧
    (Path.isAbsolute path = true →
      l.resolve path = .error (.error (.templateLoad path Refusal.absolutePath.message))) ∧
    (Path.isAbsolute path = false → ".." ∈ names path →
      l.resolve path = .error (.error (.templateLoad path Refusal.upwards.message))) ∧
    (Path.isAbsolute path = false → names path = [] →
      l.resolve path = .error (.error (.templateLoad path Refusal.empty.message))) ∧
    ∀ before last, Path.isAbsolute path = false → ".." ∉ names path → names path = before ++ [last] →
      ∃ file, l.resolve path = .ok file ∧ Inside l.root file ∧
        components file =
          components l.root ++ (before ++ [named (extension.bind undotted) last]).map .name ∧
        (∃ relative, file = Path.join l.root relative ∧ l.resolve relative = .ok file) ∧
        ∀ other, components file = components l.root ++ components other → l.resolve other = .ok file := by
  intro l
  have hextension : l.extension = extension.bind undotted := configured_extension here? root extension
  refine ⟨?_, ?_, ?_, resolve_absolute, resolve_upwards, resolve_empty, ?_⟩
  · rintro rfl
    exact configured_root here? "" extension
  · rintro currentDir rfl hne hdir
    exact components_root hne (fun hrelative => ⟨currentDir, hdir hrelative, rfl⟩) extension
  · rintro rfl
    exact ⟨fun hrelative => root_of_no_directory hrelative extension, fun habsolute => by
      rw [components_root (Path.ne_empty_of_isAbsolute habsolute) (by rw [habsolute]; nofun), if_pos habsolute]⟩
  · intro before last hrelative hdots hnames
    have hleads : Leads path before last := ⟨hrelative, hdots, hnames⟩
    have hextensible : Extensible l.extension last := by
      intro bare hbare _
      rw [hextension, Option.mem_def, Option.bind_eq_some_iff] at hbare
      obtain ⟨text, htext, hbare⟩ := hbare
      exact no_slash_of_undotted hbare (hslash text htext)
    have hfile := resolve_leads hleads hextensible
    have hsegments := hleads.isSegment_named hextensible
    have hrelative : components (Path.ofParts (before ++ [named l.extension last])) =
        (before ++ [named l.extension last]).map .name := by
      rw [Path.components_ofParts hsegments, Path.map_ofName hleads.named_no_dots]
    have hcomponents : components (Path.join l.root (Path.ofParts (before ++ [named l.extension last]))) =
        components l.root ++ (before ++ [named l.extension last]).map .name := by
      rw [Path.components_join_ofParts hsegments, Path.map_ofName hleads.named_no_dots]
    have hagain := (resolve_of_components hleads hextensible hrelative).trans hfile
    rw [← hextension]
    refine ⟨_, hfile, ⟨_, hcomponents, by simp, by simp⟩, hcomponents, ⟨_, rfl, hagain⟩,
      fun other hother => ?_⟩
    rw [hcomponents] at hother
    rw [resolve_of_components hleads hextensible (List.append_cancel_left hother).symm, hfile]

theorem resolve_configured_views :
    (∀ text ∈ some "..tpl", '/' ∉ text.toList) ∧
      ∃ file, (configured (some "/srv") "views/." (some "..tpl")).resolve "./.pages//nav" = .ok file ∧
        components file = [.root, .name "srv", .name "views", .name ".pages", .name "nav.tpl"] ∧
        (configured (some "/srv") "views/." (some "..tpl")).resolve ".pages/./nav.tpl/" = .ok file := by
  have hslash : ∀ text ∈ some "..tpl", '/' ∉ text.toList := by decide
  obtain ⟨-, hroot, -, -, -, -, hleads⟩ :=
    resolve_configured (some "/srv") "views/." "./.pages//nav" (some "..tpl") hslash
  have hdir : components (configured (some "/srv") "views/." (some "..tpl")).root =
      [.root, .name "srv", .name "views"] := by
    rw [hroot "/srv" rfl (by decide) fun _ => by decide]
    decide
  obtain ⟨file, hfile, -, hcomponents, -, hother⟩ :=
    hleads [".pages"] "nav" (by decide) (by decide) (by decide)
  have hnamed : components file =
      [.root, .name "srv", .name "views", .name ".pages", .name "nav.tpl"] := by
    rw [hcomponents, hdir]
    decide
  refine ⟨hslash, file, hfile, hnamed, hother _ ?_⟩
  rw [hnamed, hdir]
  decide

end DirectoryLoader

end TemplateTrace
