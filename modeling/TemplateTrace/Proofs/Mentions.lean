import TemplateTrace.Proofs.FileIndices
import TemplateTrace.Proofs.Service.Eviction

namespace TemplateTrace

namespace SourceMap

variable {m : SourceMap}

def recordedLines (m : SourceMap) : List Nat := m.lines.entries.map Prod.fst

def mentions (m : SourceMap) : List String :=
  m.recordedLines.flatMap fun n => (m.stack n).map Frame.file

theorem stack_of_mem {e : Nat × Chain Link} (h : e ∈ m.lines.entries) :
    m.stack e.1 = e.2.links.map m.frame := stack_of_floor?_some (Table.floor?_of_mem h)

theorem mentions_eq (m : SourceMap) : m.mentions = m.links.map fun l => m.fileName l.file := by
  have hstack : ∀ e ∈ m.lines.entries, (m.stack e.1).map Frame.file =
      e.2.links.map fun l => m.fileName l.file := by
    intro e he
    rw [stack_of_mem he, List.map_map]
    rfl
  rw [mentions, recordedLines, links, Table.values, List.map_flatMap, List.flatMap_map, List.flatMap_map]
  exact List.flatMap_congr hstack

theorem paths_eq (m : SourceMap) : m.paths = newIn [] m.mentions := by
  rw [paths, firstSeen_eq, mentions_eq]

theorem mem_paths_iff {file : String} :
    file ∈ m.paths ↔ ∃ n ∈ m.recordedLines, ∃ f ∈ m.stack n, f.file = file := by
  simp [paths_eq, mem_newIn_iff, mentions]

theorem exists_recorded {n : Nat} {f : Frame} (h : f ∈ m.stack n) :
    ∃ k ∈ m.recordedLines, f ∈ m.stack k := by
  cases hfloor : m.lines.floor? n with
  | none =>
    rw [stack_of_floor?_none hfloor] at h
    cases h
  | some e =>
    obtain ⟨he, -, -⟩ := Table.mem_of_floor? hfloor
    rw [stack_of_floor?_some hfloor] at h
    refine ⟨e.1, List.mem_map_of_mem he, ?_⟩
    rwa [stack_of_mem he]

/-- The list has each file of the stacks of a map once, in the order of first mention. -/
structure Lists (m : SourceMap) (files : List String) : Prop where
  nodup : files.Nodup
  ordered : files.Pairwise fun a b => m.mentions.idxOf a < m.mentions.idxOf b
  of_stack : ∀ n, ∀ f ∈ m.stack n, f.file ∈ files
  of_file : ∀ file ∈ files, ∃ n ∈ m.recordedLines, ∃ f ∈ m.stack n, f.file = file

theorem lists_paths (m : SourceMap) : m.Lists m.paths where
  nodup := by
    rw [paths_eq]
    exact nodup_newIn _ _
  ordered := by
    rw [paths_eq]
    exact pairwise_newIn _ _
  of_stack n f hf := by
    obtain ⟨k, hk, hf⟩ := exists_recorded hf
    exact mem_paths_iff.mpr ⟨k, hk, f, hf, rfl⟩
  of_file _ hfile := mem_paths_iff.mp hfile

end SourceMap

namespace TraceService

variable {σ : Type} {s : TraceService (StateM σ)} {key text : String} {a b : σ} {map : SourceMap}

theorem dependencies_readable (hget : runFrom (s.store.get key) a = (.ok (some text), b))
    (hread : SourceMap.deserialize (Text.bytes text) = .ok map) :
    runFrom (s.dependencies key) a = (.ok map.paths, b) := by
  rw [dependencies, runFrom_map, load_readable hget hread]
  rfl

theorem trace_readable (hget : runFrom (s.store.get key) a = (.ok (some text), b))
    (hread : SourceMap.deserialize (Text.bytes text) = .ok map) (line : Nat) :
    runFrom (s.trace key line) a = (.ok (map.stack line), b) := by
  rw [trace, runFrom_map, load_readable hget hread]
  rfl

end TraceService

namespace SourceMap

/-- The files of a map, whether it was built or read, and the dependencies of a key whose text can be
read are exactly the files that some line is traced to. -/
theorem files_of_stacks (map : SourceMap) :
    map.Lists map.paths ∧
      ∀ {σ : Type} (s : TraceService (StateM σ)) (key text : String) (a b : σ),
        runFrom (s.store.get key) a = (.ok (some text), b) →
        deserialize (Text.bytes text) = .ok map →
        ∃ files, runFrom (s.dependencies key) a = (.ok files, b) ∧ map.Lists files ∧
          (∀ n, ∃ frames, runFrom (s.trace key n) a = (.ok frames, b) ∧ ∀ f ∈ frames, f.file ∈ files) ∧
          ∀ file ∈ files, ∃ n ∈ map.recordedLines, ∃ frames,
            runFrom (s.trace key n) a = (.ok frames, b) ∧ ∃ f ∈ frames, f.file = file := by
  have hlists := map.lists_paths
  refine ⟨hlists, fun s key text a b hget hread => ?_⟩
  have htrace := TraceService.trace_readable hget hread
  refine ⟨map.paths, TraceService.dependencies_readable hget hread, hlists, fun n => ?_, fun file hfile => ?_⟩
  · exact ⟨_, htrace n, hlists.of_stack n⟩
  · obtain ⟨n, hn, hframe⟩ := hlists.of_file file hfile
    exact ⟨n, hn, _, htrace n, hframe⟩

def repeating : SourceMap where
  files := ["/a", "/b", "/a", "/c"]
  lines := ⟨[(2, ⟨⟨3, 2⟩, []⟩), (7, ⟨⟨2, 1⟩, [⟨3, 4⟩]⟩)], by decide⟩

theorem files_of_stacks_repeating :
    deserialize (Text.bytes repeating.serialize) = .ok repeating ∧
      let service : TraceService (StateM FileTree) :=
        ⟨DirectoryLoader.loader ⟨"/views", none⟩, (⟨"cache"⟩ : DirectoryStore).store⟩
      let files := DirectoryStore.holding (Text.bytes repeating.serialize)
      runFrom (service.dependencies "a") files = (.ok ["/c", "/a"], files) ∧
        ∃ n frames, runFrom (service.trace "a" n) files = (.ok frames, files) ∧
          ∃ f ∈ frames, f.file = "/a" := by
  have hread : deserialize (Text.bytes repeating.serialize) = .ok repeating := by decide +kernel
  have hentry : (DirectoryStore.holding (Text.bytes repeating.serialize)).readBytes
      ((⟨"cache"⟩ : DirectoryStore).entryPath "a") = .ok (Text.bytes repeating.serialize) := by
    decide +kernel
  refine ⟨hread, ?_⟩
  intro service files
  have hget : runFrom (service.store.get "a") files = (.ok (some repeating.serialize), files) :=
    DirectoryStore.get_of_text hentry
  obtain ⟨found, hfound, -, -, htraced⟩ :=
    (files_of_stacks repeating).2 service "a" repeating.serialize files files hget hread
  have hpaths : repeating.paths = ["/c", "/a"] := by decide
  have hdependencies := TraceService.dependencies_readable hget hread
  rw [hpaths] at hdependencies
  cases hfound.symm.trans hdependencies
  obtain ⟨n, -, frames, htrace, hframe⟩ := htraced "/a" (by decide)
  exact ⟨hdependencies, n, frames, htrace, hframe⟩

end SourceMap

end TemplateTrace
