import TemplateTrace.Proofs.Sizes

namespace TemplateTrace

namespace SourceMap

def fileTable (content : Bytes) (table : Table Location) (source : String → Source) : List String :=
  firstSeen ((sites content table).map fun site => (source site.path).filename)

def linkTo (files : List String) (source : String → Source) (site : Site) : Link :=
  ⟨files.idxOf (source site.path).filename, (source site.path).lineAt site.offset⟩

def ofSources (content : Bytes) (table : Table Location) (source : String → Source) : SourceMap :=
  let files := fileTable content table source
  ⟨files, (winners content table).map (Chain.map (linkTo files source))⟩

variable {content : Bytes} {table : Table Location} {source : String → Source} {site : Site}
  {answers : Assoc String Source}

theorem source_of_answer (h : Assoc.keys answers = loadOrder content table) {e : String × Source}
    (he : e ∈ answers) : (Progress.extend {} answers).source e.1 = e.2 := by
  have hlookup : Assoc.lookup e.1 answers = some e.2 := Assoc.lookup_of_mem (fresh_empty h).1 he
  rw [Progress.source, Progress.sources_extend (fresh_empty h), List.nil_append]
  exact congrArg (Option.getD · ⟨"", ""⟩) hlookup

theorem answers_eq (h : Assoc.keys answers = loadOrder content table) :
    answers = (loadOrder content table).map fun path => (path, (Progress.extend {} answers).source path) := by
  rw [← h, Assoc.keys, List.map_map]
  refine (List.map_id answers).symm.trans (List.map_congr_left fun e he => ?_)
  rw [Function.comp_apply, source_of_answer h he]
  rfl

theorem files_extend_empty (h : Assoc.keys answers = loadOrder content table) :
    (Progress.extend {} answers).files =
      fileTable content table (Progress.extend {} answers).source := by
  have hnames : answers.map (fun e => e.2.filename) =
      (loadOrder content table).map fun path => ((Progress.extend {} answers).source path).filename := by
    conv_lhs => rw [answers_eq h, List.map_map]
    rfl
  rw [Progress.files_extend, hnames, loadOrder, firstSeen_eq, List.nil_append,
    newIn_map_newIn _ (by simp), List.map_map, fileTable, firstSeen_eq]
  rfl

theorem assemble_eq (h : Assoc.keys answers = loadOrder content table) :
    assemble content table answers =
      ofSources content table (Progress.extend {} answers).source := by
  rw [assemble, ofSources, ← files_extend_empty h]
  rfl

theorem ofSources_entries (content : Bytes) (table : Table Location) (source : String → Source) :
    (ofSources content table source).lines.entries = (winning content table.entries).map fun e =>
      (Text.lineAt content e.1, e.2.map (linkTo (fileTable content table source) source)) := by
  simp [ofSources, Table.map, winners_entries]

theorem mem_fileTable_iff {name : String} : name ∈ fileTable content table source ↔
    ∃ site ∈ sites content table, (source site.path).filename = name := by
  simp [fileTable, firstSeen_eq, mem_newIn_iff]

theorem nodup_fileTable (content : Bytes) (table : Table Location) (source : String → Source) :
    (fileTable content table source).Nodup := by
  rw [fileTable, firstSeen_eq]
  exact nodup_newIn _ _

theorem links_ofSources (content : Bytes) (table : Table Location) (source : String → Source) :
    (ofSources content table source).links =
      (sites content table).map (linkTo (fileTable content table source) source) := by
  rw [links, Table.values, ofSources_entries, sites, List.map_map, List.map_flatMap, List.flatMap_map]
  rfl

theorem getElem?_linkTo (h : site ∈ sites content table) :
    (fileTable content table source)[(linkTo (fileTable content table source) source site).file]? =
      some (source site.path).filename :=
  List.getElem?_idxOf (mem_fileTable_iff.mpr ⟨site, h, rfl⟩)

theorem paths_ofSources (content : Bytes) (table : Table Location) (source : String → Source) :
    (ofSources content table source).paths = (ofSources content table source).files := by
  have hnames : (sites content table).map (fun site => (ofSources content table source).fileName
      (linkTo (fileTable content table source) source site).file) =
      (sites content table).map fun site => (source site.path).filename := by
    refine List.map_congr_left fun site hsite => ?_
    rw [fileName]
    exact congrArg (Option.getD · "") (getElem?_linkTo hsite)
  rw [paths, links_ofSources, List.map_map]
  exact congrArg firstSeen hnames

theorem mem_paths_assemble (h : Assoc.keys answers = loadOrder content table) {e : String × Source}
    (he : e ∈ answers) : e.2.filename ∈ (assemble content table answers).paths := by
  have hpath : e.1 ∈ loadOrder content table := h ▸ List.mem_map_of_mem he
  obtain ⟨site, hsite, hsame⟩ := mem_loadOrder_iff_site.mp hpath
  rw [assemble_eq h, paths_ofSources]
  exact mem_fileTable_iff.mpr ⟨site, hsite, by rw [hsame, source_of_answer h he]⟩

theorem exists_link {i : Nat} (h : i < (ofSources content table source).files.length) :
    ∃ l ∈ (ofSources content table source).links, l.file = i := by
  obtain ⟨site, hsite, hname⟩ := mem_fileTable_iff.mp (List.getElem_mem h)
  refine ⟨linkTo (fileTable content table source) source site, ?_, ?_⟩
  · rw [links_ofSources]
    exact List.mem_map_of_mem hsite
  · rw [linkTo, hname]
    exact (nodup_fileTable content table source).idxOf_getElem i h

theorem file_linkTo_eq_iff {other : Site} (h : site ∈ sites content table) :
    (linkTo (fileTable content table source) source site).file =
        (linkTo (fileTable content table source) source other).file ↔
      (source site.path).filename = (source other.path).filename :=
  List.idxOf_inj (mem_fileTable_iff.mpr ⟨site, h, rfl⟩)

theorem line_linkTo_bounds (files : List String) (source : String → Source) (site : Site) :
    1 ≤ (linkTo files source site).line ∧
      (linkTo files source site).line ≤ (source site.path).lastLine :=
  ⟨Text.one_le_lineAt _ _, Source.lineAt_le_lastLine _ _⟩

theorem line_ofSources_bounds {e : Nat × Chain Link} (h : e ∈ (ofSources content table source).lines.entries) :
    1 ≤ e.1 ∧ e.1 ≤ Text.lastLine content := by
  rw [ofSources_entries] at h
  obtain ⟨w, -, rfl⟩ := List.mem_map.mp h
  exact ⟨Text.one_le_lineAt _ _, Text.lineAt_le_lastLine _ _⟩

variable {ε σ : Type} {load : String → ExceptT ε (StateM σ) Source} {text : String} {map : SourceMap}
  {s t : σ}

theorem calculate_ofSources (h : runFrom (calculate load text table) s = (.ok map, t)) :
    ∃ source : String → Source,
      callsOf load text table s =
        (loadOrder (Text.bytes text) table).map (fun path => ⟨path, .ok (source path)⟩) ∧
      map = ofSources (Text.bytes text) table source := by
  obtain ⟨answers, hcalls, hkeys, rfl⟩ := calculate_ok h
  refine ⟨(Progress.extend {} answers).source, ?_, assemble_eq hkeys⟩
  conv_lhs => rw [hcalls, answers_eq hkeys, List.map_map]
  rfl

/-- The files of a built map are the names of the files that its links refer to, once each and in the
order of `paths`, and so are those of its text. Links are compared by the sources that the loader has
returned for their sites. -/
theorem files_of_calculate (h : runFrom (calculate load text table) s = (.ok map, t)) :
    map.files.Nodup ∧ (∀ i < map.files.length, ∃ l ∈ map.links, l.file = i) ∧ map.files = map.paths ∧
      map.encode = .object
        [("version", .number formatVersion), ("paths", .list (map.paths.map .text)),
          ("lines", .object (map.lines.entries.map fun e => (toString e.1, Link.encodeChain e.2.links)))] ∧
      (map.Fits → ∀ again, deserialize (Text.bytes map.serialize) = .ok again →
        again.files = again.paths ∧ again.paths = map.paths ∧ again.serialize = map.serialize) ∧
      (∀ e ∈ map.lines.entries, 1 ≤ e.1 ∧ e.1 ≤ Text.lastLine (Text.bytes text)) ∧
      ∃ source : String → Source,
        callsOf load text table s =
          (loadOrder (Text.bytes text) table).map (fun path => ⟨path, .ok (source path)⟩) ∧
        List.Forall₂ (fun site l => 1 ≤ l.line ∧ l.line ≤ (source site.path).lastLine)
          (sites (Text.bytes text) table) map.links ∧
        ∀ d ∈ (sites (Text.bytes text) table).zip map.links,
          ∀ e ∈ (sites (Text.bytes text) table).zip map.links,
            d.2.file = e.2.file ↔ (source d.1.path).filename = (source e.1.path).filename := by
  have hclosed := closed_of_calculate h
  obtain ⟨source, hcalls, rfl⟩ := calculate_ofSources h
  have hpaths := paths_ofSources (Text.bytes text) table source
  have hlinks := links_ofSources (Text.bytes text) table source
  refine ⟨nodup_fileTable _ _ _, fun i hi => exists_link hi, hpaths.symm, ?_, ?_,
    fun e he => line_ofSources_bounds he, source, hcalls, ?_, ?_⟩
  · rw [hpaths]
    rfl
  · intro hfits again hread
    cases eq_of_read_written hclosed hfits hread
    exact ⟨hpaths.symm, rfl, rfl⟩
  · rw [hlinks, List.forall₂_map_right_iff, List.forall₂_same]
    exact fun site _ => line_linkTo_bounds _ source site
  · rw [hlinks, ← List.map_prod_left_eq_zip]
    intro d hd e he
    obtain ⟨site, hsite, rfl⟩ := List.mem_map.mp hd
    obtain ⟨other, -, rfl⟩ := List.mem_map.mp he
    exact file_linkTo_eq_iff hsite

theorem files_of_calculate_pages :
    ∃ map t, runFrom (calculate MemoryLoader.load "one\ntwo\nthree\n" pageTable) pages = (.ok map, t) ∧
      map.links.map Link.file = [0, 1, 1] ∧ map.paths = ["/views/child.tpl", "/views/base.tpl"] ∧
      map.files = map.paths ∧
      ∃ again, deserialize (Text.bytes map.serialize) = .ok again ∧ again.files = again.paths := by
  obtain ⟨map, t, h, hfits, hdepth, hlinks, hpaths⟩ : ∃ map t, runFrom
      (calculate MemoryLoader.load "one\ntwo\nthree\n" pageTable) pages = (.ok map, t) ∧ map.Fits ∧
      (∀ e ∈ map.lines.entries, e.2.depth ≤ maxLinks) ∧ map.links.map Link.file = [0, 1, 1] ∧
      map.paths = ["/views/child.tpl", "/views/base.tpl"] :=
    ⟨_, _, rfl, by decide +kernel, by decide +kernel, by decide +kernel, by decide +kernel⟩
  obtain ⟨-, -, hfiles, -, hagain, -⟩ := files_of_calculate h
  have hread := read_written (closed_of_calculate h) hfits hdepth
  exact ⟨map, t, h, hlinks, hpaths, hfiles, map, hread, (hagain hfits map hread).1⟩

end SourceMap

end TemplateTrace
