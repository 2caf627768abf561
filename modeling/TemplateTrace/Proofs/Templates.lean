import TemplateTrace.Proofs.Files.Directories
import TemplateTrace.Proofs.Resolution
import TemplateTrace.Proofs.Sizes

namespace TemplateTrace

namespace DirectoryLoader

variable {l : DirectoryLoader} {path file : String} {t u : FileTree}
  {source : Source} {content : String} {Inv : FileTree → Prop}

theorem resolve_below (h : l.resolve path = .ok file) :
    ∃ relative, file = Path.join l.root relative ∧ Path.isAbsolute relative = false ∧
      ".." ∉ FileTree.stepsOf relative := by
  obtain ⟨before, last, hleads, hextensible, rfl⟩ := resolve_eq_ok_iff.mp h
  have hsegments := hleads.isSegment_named hextensible
  refine ⟨_, rfl, (Path.relative_ofParts hsegments).1, ?_⟩
  rw [FileTree.stepsOf, Path.parts_ofParts (List.concat_ne_nil _ _) fun name hname =>
    (hsegments name hname).no_slash]
  exact fun hup => hleads.named_no_dots (List.mem_of_mem_filter hup)

theorem prefix_of_resolve (hroot : Path.isAbsolute l.root = true) (h : l.resolve path = .ok file)
    (dir dir' : List String) :
    FileTree.destination dir l.root <+: FileTree.destination dir' file := by
  obtain ⟨relative, rfl, hrelative, hup⟩ := resolve_below h
  exact FileTree.prefix_destination_join hroot hrelative hup dir dir'

def template (t : FileTree) (file : String) : Except String Source :=
  match (runFrom (Files.readText file : ExceptT FileError (StateM FileTree) String) t).1 with
  | .ok content => .ok ⟨file, content⟩
  | .error .notFound => .error s!"no file at {file}"
  | .error e => .error s!"failed to read {file}: {e.message}"

theorem template_eq_ok_iff : template t file = .ok source ↔
    source.filename = file ∧ t.readBytes file = .ok (Text.bytes source.content) := by
  rw [template]
  rcases hread : runFrom (Files.readText file : ExceptT FileError (StateM FileTree) String) t with
    ⟨e | content, u⟩
  · constructor
    · intro h
      cases e <;> cases h
    · rintro ⟨-, hbytes⟩
      have hrun : runFrom (Files.readText file : ExceptT FileError (StateM FileTree) String) t =
          (.ok source.content, t) := FileTree.readText_eq_ok_iff.mpr ⟨hbytes, rfl⟩
      rw [hread] at hrun
      cases hrun
  · have hbytes := (FileTree.readText_eq_ok_iff.mp hread).1
    constructor
    · intro h
      cases h
      exact ⟨rfl, hbytes⟩
    · rintro ⟨rfl, hsource⟩
      have hcontent := congrArg Text.ofBytes? (Except.ok.inj (hbytes.symm.trans hsource))
      rw [Text.ofBytes?_bytes, Text.ofBytes?_bytes] at hcontent
      cases hcontent
      rfl

theorem load_refused {e : Failure} (h : l.resolve path = .error e) (t : FileTree) :
    runFrom (l.load path : ExceptT Failure (StateM FileTree) Source) t = (.error e, t) := by
  have hresolve : runFrom (ExceptT.mk (pure (l.resolve path)) :
      ExceptT Failure (StateM FileTree) String) t = (.error e, t) := by rw [h]; rfl
  exact runFrom_bind_error hresolve

theorem load_resolved (h : l.resolve path = .ok file) (t : FileTree) :
    runFrom (l.load path : ExceptT Failure (StateM FileTree) Source) t =
      ((template t file).mapError fun reason => .error (.templateLoad path reason), t) := by
  have hresolve : runFrom (ExceptT.mk (pure (l.resolve path)) :
      ExceptT Failure (StateM FileTree) String) t = (.ok file, t) := by rw [h]; rfl
  have hsame : (runFrom (Files.readText file : ExceptT FileError (StateM FileTree) String) t).2 = t := by
    rw [FileTree.runFrom_readText]
  rw [load, runFrom_bind_ok hresolve, runFrom_bind_ok (runFrom_lift_run _ t), hsame, template]
  rcases (runFrom (Files.readText file : ExceptT FileError (StateM FileTree) String) t).1 with e | content
  · cases e <;> rfl
  · rfl

theorem load_cases (l : DirectoryLoader) (path : String) (t : FileTree) :
    (∃ source, runFrom (l.load path : ExceptT Failure (StateM FileTree) Source) t = (.ok source, t) ∧
      l.resolve path = .ok source.filename ∧
      t.readBytes source.filename = .ok (Text.bytes source.content)) ∨
      ∃ e, runFrom (l.load path : ExceptT Failure (StateM FileTree) Source) t = (.error e, t) := by
  rcases hresolve : l.resolve path with e | file
  · exact .inr ⟨e, load_refused hresolve t⟩
  · rw [load_resolved hresolve]
    rcases htemplate : template t file with reason | source
    · exact .inr ⟨_, rfl⟩
    · obtain ⟨rfl, hread⟩ := template_eq_ok_iff.mp htemplate
      exact .inl ⟨source, rfl, rfl, hread⟩

theorem preserves_load (l : DirectoryLoader) (path : String) :
    Preserves Inv (l.load path : ExceptT Failure (StateM FileTree) Source) := by
  intro t ht
  obtain ⟨source, hload, -⟩ | ⟨e, hload⟩ := l.load_cases path t
  · rwa [hload]
  · rwa [hload]

theorem of_load
    (h : (runFrom (l.load path : ExceptT Failure (StateM FileTree) Source) t).1 = .ok source) :
    l.resolve path = .ok source.filename ∧ t.readBytes source.filename = .ok (Text.bytes source.content) := by
  obtain ⟨found, hload, hfile⟩ | ⟨e, hload⟩ := l.load_cases path t
  · rw [hload] at h
    cases h
    exact hfile
  · rw [hload] at h
    cases h

theorem load_of_read (hfile : l.resolve path = .ok file)
    (hread : t.readBytes file = .ok (Text.bytes content)) :
    runFrom (l.load path : ExceptT Failure (StateM FileTree) Source) t = (.ok ⟨file, content⟩, t) := by
  have htemplate : template t file = .ok ⟨file, content⟩ := template_eq_ok_iff.mpr ⟨rfl, hread⟩
  rw [load_resolved hfile, htemplate]
  rfl

variable {table : Table Location} {map : SourceMap} {paths : List String}
  {answers : Assoc String Source}

theorem loadAll_eq_ok_iff :
    runFrom (SourceMap.loadAll (m := StateM FileTree) l.load paths) t = (.ok answers, u) ↔
      u = t ∧ Assoc.keys answers = paths ∧
        ∀ e ∈ answers, runFrom (l.load e.1 : ExceptT Failure (StateM FileTree) Source) t = (.ok e.2, t) := by
  induction paths generalizing answers with
  | nil =>
    constructor
    · intro h
      cases h
      exact ⟨rfl, rfl, nofun⟩
    · rintro ⟨rfl, hkeys, -⟩
      cases List.map_eq_nil_iff.mp hkeys
      rfl
  | cons path rest ih =>
    rw [SourceMap.loadAll_cons]
    obtain ⟨source, hload, -⟩ | ⟨e, hload⟩ := l.load_cases path t
    · rw [runFrom_bind_ok hload]
      constructor
      · intro h
        obtain ⟨others, v, hrest, h⟩ := runFrom_bind_eq_ok h
        cases h
        obtain ⟨rfl, hkeys, hloads⟩ := ih.mp hrest
        refine ⟨rfl, congrArg (path :: ·) hkeys, ?_⟩
        rw [List.forall_mem_cons]
        exact ⟨hload, hloads⟩
      · rintro ⟨rfl, hkeys, hloads⟩
        rcases answers with _ | ⟨⟨other, found⟩, others⟩
        · cases hkeys
        · obtain ⟨rfl, hrest⟩ := List.cons.inj hkeys
          rw [List.forall_mem_cons] at hloads
          cases hload.symm.trans hloads.1
          rw [runFrom_bind_ok (ih.mpr ⟨rfl, hrest, hloads.2⟩)]
          rfl
    · rw [runFrom_bind_error hload]
      constructor
      · intro h
        cases h
      · rintro ⟨-, hkeys, hloads⟩
        rcases answers with _ | ⟨⟨other, found⟩, others⟩
        · cases hkeys
        · obtain ⟨rfl, -⟩ := List.cons.inj hkeys
          cases hload.symm.trans (hloads _ List.mem_cons_self)

theorem calculate_eq_ok_iff :
    runFrom (SourceMap.calculate (m := StateM FileTree) l.load content table) t = (.ok map, u) ↔
      u = t ∧ ∃ answers, Assoc.keys answers = SourceMap.loadOrder (Text.bytes content) table ∧
        (∀ e ∈ answers, runFrom (l.load e.1 : ExceptT Failure (StateM FileTree) Source) t = (.ok e.2, t)) ∧
        map = SourceMap.assemble (Text.bytes content) table answers := by
  rw [SourceMap.calculate_eq]
  constructor
  · intro h
    obtain ⟨answers, v, hload, h⟩ := runFrom_bind_eq_ok h
    cases h
    obtain ⟨rfl, hkeys, hloads⟩ := loadAll_eq_ok_iff.mp hload
    exact ⟨rfl, answers, hkeys, hloads, rfl⟩
  · rintro ⟨rfl, answers, hkeys, hloads, rfl⟩
    rw [runFrom_bind_ok (loadAll_eq_ok_iff.mpr ⟨rfl, hkeys, hloads⟩)]
    rfl

theorem loadAll_eq_error_iff {e : Failure} :
    runFrom (SourceMap.loadAll (m := StateM FileTree) l.load paths) t = (.error e, u) ↔
      u = t ∧ ∃ before path after, paths = before ++ path :: after ∧
        (∀ p ∈ before, (runFrom (l.load p : ExceptT Failure (StateM FileTree) Source) t).1.isOk) ∧
        runFrom (l.load path : ExceptT Failure (StateM FileTree) Source) t = (.error e, t) := by
  induction paths with
  | nil =>
    constructor
    · intro h
      cases h
    · rintro ⟨-, before, path, after, hsplit, -⟩
      simp at hsplit
  | cons path rest ih =>
    rw [SourceMap.loadAll_cons]
    obtain ⟨source, hload, -⟩ | ⟨e', hload⟩ := l.load_cases path t
    · rw [runFrom_bind_ok hload]
      constructor
      · intro h
        obtain hrest | ⟨others, v, -, h⟩ := runFrom_bind_eq_error h
        · obtain ⟨rfl, before, other, after, rfl, hbefore, hother⟩ := ih.mp hrest
          refine ⟨rfl, path :: before, other, after, rfl, ?_, hother⟩
          rw [List.forall_mem_cons, hload]
          exact ⟨rfl, hbefore⟩
        · cases h
      · rintro ⟨rfl, before, other, after, hsplit, hbefore, hother⟩
        rcases before with _ | ⟨first, before⟩
        · obtain ⟨rfl, -⟩ := List.cons.inj hsplit
          cases hload.symm.trans hother
        · obtain ⟨rfl, rfl⟩ := List.cons.inj hsplit
          rw [List.forall_mem_cons] at hbefore
          exact runFrom_bind_error (ih.mpr ⟨rfl, before, other, after, rfl, hbefore.2, hother⟩)
    · rw [runFrom_bind_error hload]
      constructor
      · intro h
        cases h
        exact ⟨rfl, [], path, rest, rfl, nofun, hload⟩
      · rintro ⟨rfl, before, other, after, hsplit, hbefore, hother⟩
        rcases before with _ | ⟨first, before⟩
        · obtain ⟨rfl, -⟩ := List.cons.inj hsplit
          cases hload.symm.trans hother
          rfl
        · obtain ⟨rfl, -⟩ := List.cons.inj hsplit
          have hok := hbefore path List.mem_cons_self
          rw [hload] at hok
          cases hok

theorem calculate_eq_error_iff {e : Failure} :
    runFrom (SourceMap.calculate (m := StateM FileTree) l.load content table) t = (.error e, u) ↔
      u = t ∧ ∃ before path after,
        SourceMap.loadOrder (Text.bytes content) table = before ++ path :: after ∧
        (∀ p ∈ before, (runFrom (l.load p : ExceptT Failure (StateM FileTree) Source) t).1.isOk) ∧
        runFrom (l.load path : ExceptT Failure (StateM FileTree) Source) t = (.error e, t) := by
  rw [SourceMap.calculate_eq, ← loadAll_eq_error_iff]
  constructor
  · intro h
    obtain hload | ⟨answers, v, -, h⟩ := runFrom_bind_eq_error h
    · exact hload
    · cases h
  · exact runFrom_bind_error

theorem calculate_reads
    (h : runFrom (SourceMap.calculate (m := StateM FileTree) l.load content table) t = (.ok map, u)) :
    t = u := (calculate_eq_ok_iff.mp h).1.symm

theorem state_calculate (l : DirectoryLoader) (content : String) (table : Table Location) (t : FileTree) :
    (runFrom (SourceMap.calculate (m := StateM FileTree) l.load content table) t).2 = t := by
  have hload : ∀ path v, v = t → (runFrom (l.load path :
      ExceptT Failure (StateM FileTree) Source) v).2 = t := fun path => l.preserves_load path
  exact SourceMap.runFrom_calculate_keeps hload content table rfl

theorem calculate_cases (l : DirectoryLoader) (content : String) (table : Table Location) (t : FileTree) :
    (∃ map, runFrom (SourceMap.calculate (m := StateM FileTree) l.load content table) t = (.ok map, t)) ∨
      ∃ e, runFrom (SourceMap.calculate (m := StateM FileTree) l.load content table) t = (.error e, t) := by
  have hsame := l.state_calculate content table t
  rcases hrun : runFrom (SourceMap.calculate (m := StateM FileTree) l.load content table) t with ⟨e | map, u⟩
  · rw [hrun] at hsame
    exact .inr ⟨e, Prod.ext rfl hsame⟩
  · rw [hrun] at hsame
    exact .inl ⟨map, Prod.ext rfl hsame⟩

end DirectoryLoader

end TemplateTrace
