import TemplateTrace.Proofs.Command.Start
import TemplateTrace.Proofs.Files.Edits
import TemplateTrace.Proofs.Json.Extents
import TemplateTrace.Proofs.Service.Calls
import TemplateTrace.Proofs.Sizes
import TemplateTrace.Proofs.Store.Home
import TemplateTrace.Proofs.Templates

namespace TemplateTrace

open Json (maxCount)

namespace FileTree

variable {t u : FileTree} {path : String}

theorem Fits.of_readBytes (h : t.Fits) {text : String} (hread : t.readBytes path = .ok (Text.bytes text)) :
    Text.Fits text := by
  obtain ⟨p, -, hlook, -⟩ := readBytes_eq_ok_iff.mp hread
  exact h p _ hlook

theorem Fits.makeDir (h : t.Fits) (hmake : t.makeDir path = .ok u) : u.Fits := by
  obtain ⟨p, -, -, -, hlook⟩ := look?_of_makeDir hmake
  intro q b hb
  rw [hlook] at hb
  split at hb
  · cases hb
  · exact h q b hb

theorem Fits.makeFile (h : t.Fits) (hmake : t.makeFile path = .ok u) : u.Fits := by
  obtain ⟨p, -, -, ⟨-, rfl⟩ | ⟨-, -, hlook⟩⟩ := look?_of_makeFile hmake
  · exact h
  · intro q b hb
    rw [hlook] at hb
    split at hb
    · cases hb
      decide
    · exact h q b hb

theorem Fits.preserves_ensureDirs (path : String) : Preserves Fits (Files.ensureDirs path) :=
  FileTree.preserves_ensureDirs fun _ _ => preserves_change fun _ _ h hmake => h.makeDir hmake

end FileTree

theorem FileTree.Fits.makeLog {t u : FileTree} {s : Settings} (h : t.Fits)
    (hlog : runFrom (Program.makeLog s) t = (.ok (), u)) : u.Fits := by
  rw [Program.makeLog] at hlog
  split at hlog
  · rename_i path _
    obtain ⟨name, made, -, hdirs, hfile⟩ := Program.openLog_eq_ok_iff.mp hlog
    have hmade := FileTree.Fits.preserves_ensureDirs (Program.logDir path) t h
    rw [hdirs] at hmade
    exact hmade.makeFile hfile
  · cases hlog
    exact h

namespace Command

variable {t u v : FileTree} {r : CommandLine.BuildRequest} {s : Settings} {c : Console}
  {target : CommandLine.MapTarget} {content : String} {table : Table Location} {map : SourceMap}

def loaderAt (t : FileTree) (s : Settings) : DirectoryLoader :=
  ((templates s : StateM FileTree DirectoryLoader) t).1

def mapPath (s : Settings) (target : CommandLine.MapTarget) : String :=
  if target.isCached then (cache s).entryPath target.map else target.map

def target? (r : CommandLine.BuildRequest) : Option CommandLine.MapTarget :=
  match r.key, r.out with
  | some key, _ => some ⟨key, true⟩
  | none, some out => some ⟨out, false⟩
  | none, none => none

structure Inputs (t : FileTree) (r : CommandLine.BuildRequest) (content : String)
    (table : Table Location) : Prop where
  readContent : t.readBytes r.content = .ok (Text.bytes content)
  readTable : ∃ text, t.readBytes r.locations = .ok (Text.bytes text) ∧
    Location.decodeTable (Text.bytes text) = .ok table

/-- The map that a build makes of the files that are there. -/
structure Built (t : FileTree) (r : CommandLine.BuildRequest) (s : Settings) (content : String)
    (table : Table Location) (map : SourceMap) : Prop where
  readContent : t.readBytes r.content = .ok (Text.bytes content)
  readTable : ∃ text, t.readBytes r.locations = .ok (Text.bytes text) ∧
    Location.decodeTable (Text.bytes text) = .ok table
  calculated :
    runFrom (SourceMap.calculate (loaderAt t (buildSettings r s)).load content table) t = (.ok map, t)

theorem Built.inputs (h : Built t r s content table map) : Inputs t r content table :=
  ⟨h.readContent, h.readTable⟩

theorem Inputs.unique (h : Inputs t r content table) {content' : String} {table' : Table Location}
    (h' : Inputs t r content' table') : content = content' ∧ table = table' := by
  obtain ⟨text, hread, hdecode⟩ := h.readTable
  obtain ⟨text', hread', hdecode'⟩ := h'.readTable
  have hcontent := Except.ok.inj (h.readContent.symm.trans h'.readContent)
  have htext := Except.ok.inj (hread.symm.trans hread')
  rw [← htext, hdecode] at hdecode'
  cases hdecode'
  have hofBytes := congrArg Text.ofBytes? hcontent
  rw [Text.ofBytes?_bytes, Text.ofBytes?_bytes] at hofBytes
  cases hofBytes
  exact ⟨rfl, rfl⟩

theorem Built.unique (h : Built t r s content table map) {content' : String} {table' : Table Location}
    {map' : SourceMap} (h' : Built t r s content' table' map') :
    content = content' ∧ table = table' ∧ map = map' := by
  obtain ⟨rfl, rfl⟩ := h.inputs.unique h'.inputs
  have hmap := h'.calculated
  rw [h.calculated] at hmap
  cases hmap
  exact ⟨rfl, rfl, rfl⟩

theorem Built.fits (h : Built t r s content table map) (hfits : t.Fits) : map.Fits := by
  obtain ⟨text, hread, hdecode⟩ := h.readTable
  have htable : SourceMap.TableFits table :=
    Nat.le_trans (Location.length_links_le_of_decode hdecode) (Nat.le_of_lt (hfits.of_readBytes hread))
  have hload : ∀ path u, FileTree.Fits u →
      FileTree.Fits (runFrom ((loaderAt t (buildSettings r s)).load path :
        ExceptT Failure (StateM FileTree) Source) u).2 := fun path u hu =>
    DirectoryLoader.preserves_load _ path u hu
  have hgood : ∀ path (u : FileTree) source, u.Fits →
      (runFrom ((loaderAt t (buildSettings r s)).load path :
        ExceptT Failure (StateM FileTree) Source) u).1 = .ok source → Text.Fits source.content :=
    fun path u source hu hloaded => hu.of_readBytes (DirectoryLoader.of_load hloaded).2
  exact SourceMap.fits_of_keeps h.calculated hload hgood hfits (hfits.of_readBytes h.readContent) htable

theorem readInput_cases (path : String) (t : FileTree) :
    (∃ text, runFrom (readInput path : CommandT (StateM FileTree) String) t = (.ok text, t) ∧
      t.readBytes path = .ok (Text.bytes text)) ∨
    ∃ e, runFrom (readInput path : CommandT (StateM FileTree) String) t = (.error (.error e), t) := by
  have hsame : (runFrom (Files.readText path : ExceptT FileError (StateM FileTree) String) t).2 = t := by
    rw [FileTree.runFrom_readText]
  rcases hrun : runFrom (Files.readText path : ExceptT FileError (StateM FileTree) String) t with ⟨e | text, u⟩
  · rw [hrun] at hsame
    cases hsame
    exact .inr ⟨_, runFrom_adapt_error hrun _⟩
  · obtain ⟨hread, rfl⟩ := FileTree.readText_eq_ok_iff.mp hrun
    exact .inl ⟨text, runFrom_adapt_eq_ok_iff.mpr hrun, hread⟩

theorem readTable_cases (text : String) (t : FileTree) :
    (∃ table, runFrom (readTable text : CommandT (StateM FileTree) (Table Location)) t = (.ok table, t) ∧
      Location.decodeTable (Text.bytes text) = .ok table) ∨
    ∃ e, runFrom (readTable text : CommandT (StateM FileTree) (Table Location)) t =
      (.error (.error e), t) := by
  rw [readTable]
  rcases Location.decodeTable (Text.bytes text) with e | table
  · exact .inr ⟨_, rfl⟩
  · exact .inl ⟨table, rfl, rfl⟩

theorem inputs_run (h : Inputs t r content table) : ∃ text,
    runFrom (readInput r.content : CommandT (StateM FileTree) String) t = (.ok content, t) ∧
      runFrom (readInput r.locations : CommandT (StateM FileTree) String) t = (.ok text, t) ∧
      runFrom (readTable text : CommandT (StateM FileTree) (Table Location)) t = (.ok table, t) := by
  obtain ⟨text, htext, hdecode⟩ := h.readTable
  refine ⟨text, runFrom_adapt_eq_ok_iff.mpr (FileTree.readText_eq_ok_iff.mpr ⟨h.readContent, rfl⟩),
    runFrom_adapt_eq_ok_iff.mpr (FileTree.readText_eq_ok_iff.mpr ⟨htext, rfl⟩), ?_⟩
  rw [readTable, hdecode]
  rfl

def prepare {m : Type → Type} [Monad m] [Files m] (r : CommandLine.BuildRequest) (s : Settings) :
    CommandT m SourceMap := do
  let content ← readInput r.content
  let table ← readTable (← readInput r.locations)
  let loader ← (templates (buildSettings r s) : m DirectoryLoader)
  traced (SourceMap.calculate loader.load content table)

def keep {m : Type → Type} [Monad m] [Files m] (r : CommandLine.BuildRequest) (s : Settings) (c : Console)
    (map : SourceMap) : CommandT m String :=
  match r.key with
  | some key => do
    stored ((cache s).put key map.serialize)
    return c.success
      s!"Recorded {map.length} lines from {map.paths.length} templates under '{key}'"
  | none => deliver c map r.out

theorem keep_key [Files (StateM FileTree)] {key : String} (hkey : r.key = some key) :
    (keep r s c : SourceMap → CommandT (StateM FileTree) String) = fun map => do
      stored ((cache s).put key map.serialize)
      return c.success s!"Recorded {map.length} lines from {map.paths.length} templates under '{key}'" := by
  funext map
  rw [keep, hkey]

theorem keep_no_key [Files (StateM FileTree)] (hkey : r.key = none) :
    (keep r s c : SourceMap → CommandT (StateM FileTree) String) = fun map => deliver c map r.out := by
  funext map
  rw [keep, hkey]

theorem build_eq [Files (StateM FileTree)] (r : CommandLine.BuildRequest) (s : Settings) (c : Console) :
    (build r s c : CommandT (StateM FileTree) String) = prepare r s >>= keep r s c := by
  simp only [build, prepare, bind_assoc]
  refine bind_congr fun content => bind_congr fun text => bind_congr fun table => ?_
  rcases hkey : r.key with _ | key
  · rw [keep_no_key hkey]
  · rw [keep_key hkey]
    simp only [service, liftM_bind, bind_assoc, liftM_pure, pure_bind]
    refine bind_congr fun loader => ?_
    simp only [traced, TraceService.record, adapt_bind, bind_assoc]
    refine bind_congr fun map => ?_
    rw [TraceService.stored, adapt_adapt]
    rfl

theorem prepare_of_inputs (h : Inputs t r content table) (s : Settings) :
    runFrom (prepare r s : CommandT (StateM FileTree) SourceMap) t =
      runFrom (traced (SourceMap.calculate (loaderAt t (buildSettings r s)).load content table)) t := by
  obtain ⟨text, hcontent, hlocations, htable⟩ := inputs_run h
  have htemplates : (templates (buildSettings r s) : StateM FileTree DirectoryLoader) t =
      (loaderAt t (buildSettings r s), t) := rfl
  rw [prepare, runFrom_bind_ok hcontent, runFrom_bind_ok hlocations, runFrom_bind_ok htable,
    runFrom_bind_ok (runFrom_lift htemplates)]

theorem prepare_of_built (h : Built t r s content table map) :
    runFrom (prepare r s : CommandT (StateM FileTree) SourceMap) t = (.ok map, t) := by
  rw [prepare_of_inputs h.inputs]
  exact runFrom_adapt_eq_ok_iff.mpr h.calculated

theorem prepare_unread (h : ∀ content table, ¬ Inputs t r content table) (s : Settings) :
    ∃ e, runFrom (prepare r s : CommandT (StateM FileTree) SourceMap) t = (.error (.error e), t) := by
  obtain ⟨content, hcontent, hreadContent⟩ | ⟨e, hcontent⟩ := readInput_cases r.content t
  · obtain ⟨text, htext, hreadText⟩ | ⟨e, htext⟩ := readInput_cases r.locations t
    · obtain ⟨table, htable, hdecode⟩ | ⟨e, htable⟩ := readTable_cases text t
      · exact absurd ⟨hreadContent, text, hreadText, hdecode⟩ (h content table)
      · refine ⟨e, ?_⟩
        rw [prepare, runFrom_bind_ok hcontent, runFrom_bind_ok htext, runFrom_bind_error htable]
    · refine ⟨e, ?_⟩
      rw [prepare, runFrom_bind_ok hcontent, runFrom_bind_error htext]
  · exact ⟨e, runFrom_bind_error hcontent⟩

theorem prepare_unloaded (h : Inputs t r content table) {e : Failure}
    (hmap : runFrom (SourceMap.calculate (loaderAt t (buildSettings r s)).load content table) t =
      (.error e, t)) :
    runFrom (prepare r s : CommandT (StateM FileTree) SourceMap) t = (.error (.ofFailure e), t) := by
  rw [prepare_of_inputs h]
  exact runFrom_adapt_error hmap _

theorem prepare_cases (r : CommandLine.BuildRequest) (s : Settings) (t : FileTree) :
    (∃ content table map, Built t r s content table map) ∨
      ∃ e, runFrom (prepare r s : CommandT (StateM FileTree) SourceMap) t = (.error e, t) := by
  by_cases hread : ∃ content table, Inputs t r content table
  · obtain ⟨content, table, hinputs⟩ := hread
    obtain ⟨map, hmap⟩ | ⟨e, hmap⟩ :=
      (loaderAt t (buildSettings r s)).calculate_cases content table t
    · exact .inl ⟨content, table, map, hinputs.readContent, hinputs.readTable, hmap⟩
    · exact .inr ⟨_, prepare_unloaded hinputs hmap⟩
  · simp only [not_exists] at hread
    obtain ⟨e, hfails⟩ := prepare_unread hread s
    exact .inr ⟨_, hfails⟩

theorem build_unprepared {e : CommandFailure}
    (h : runFrom (prepare r s : CommandT (StateM FileTree) SourceMap) t = (.error e, t)) (c : Console) :
    runFrom (build r s c : CommandT (StateM FileTree) String) t = (.error e, t) := by
  rw [build_eq, runFrom_bind_error h]

theorem build_key (h : Built t r s content table map) {key : String} (hkey : r.key = some key)
    (hput : runFrom ((cache s).put key map.serialize : ExceptT Error (StateM FileTree) Unit) t = (.ok (), u)) :
    runFrom (build r s c : CommandT (StateM FileTree) String) t =
      (.ok (c.success s!"Recorded {map.length} lines from {map.paths.length} templates under '{key}'"),
        u) := by
  have hstored : runFrom (stored ((cache s).put key map.serialize) : CommandT (StateM FileTree) Unit) t =
      (.ok (), u) := runFrom_adapt_eq_ok_iff.mpr hput
  rw [build_eq, runFrom_bind_ok (prepare_of_built h), keep_key hkey]
  exact runFrom_bind_ok hstored

theorem build_key_refused (h : Built t r s content table map) {key : String} (hkey : r.key = some key)
    {e : Error} (hput : runFrom ((cache s).put key map.serialize : ExceptT Error (StateM FileTree) Unit) t =
      (.error e, u)) :
    runFrom (build r s c : CommandT (StateM FileTree) String) t = (.error (.error (.core e)), u) := by
  have hstored : runFrom (stored ((cache s).put key map.serialize) : CommandT (StateM FileTree) Unit) t =
      (.error (.error (.core e)), u) := runFrom_adapt_error hput _
  rw [build_eq, runFrom_bind_ok (prepare_of_built h), keep_key hkey]
  exact runFrom_bind_error hstored

theorem build_deliver (h : Built t r s content table map) (hkey : r.key = none) :
    runFrom (build r s c : CommandT (StateM FileTree) String) t =
      runFrom (deliver c map r.out : CommandT (StateM FileTree) String) t := by
  rw [build_eq, runFrom_bind_ok (prepare_of_built h), keep_no_key hkey]

theorem of_build (htarget : target? r = some target)
    (h : runFrom (build r s c : CommandT (StateM FileTree) String) t = (.ok out, u)) :
    ∃ content table map, Built t r s content table map ∧
      u.readBytes (mapPath s target) = .ok (Text.bytes map.serialize) ∧ FileTree.KindsKept t u := by
  obtain ⟨content, table, map, hbuilt⟩ | ⟨e, hfails⟩ := prepare_cases r s t
  · refine ⟨content, table, map, hbuilt, ?_⟩
    -- A map under a key is written by the store, one in a file by the build itself.
    rcases hkey : r.key with _ | key
    · rcases hfile : r.out with _ | file
      · rw [target?, hkey, hfile] at htarget
        cases htarget
      · rw [target?, hkey, hfile] at htarget
        cases htarget
        rw [build_deliver hbuilt hkey, hfile] at h
        obtain ⟨_, v, hrun, h⟩ := runFrom_bind_eq_ok h
        cases h
        have hwrite := FileTree.of_change_ok (runFrom_adapt_eq_ok_iff.mp hrun)
        exact ⟨FileTree.readBytes_of_writeBytes hwrite, FileTree.kindsKept_of_writeBytes hwrite⟩
    · rw [target?, hkey] at htarget
      cases htarget
      rcases hput : runFrom ((cache s).put key map.serialize : ExceptT Error (StateM FileTree) Unit) t with
        ⟨e | _, v⟩
      · rw [build_key_refused hbuilt hkey hput] at h
        cases h
      · rw [build_key hbuilt hkey hput] at h
        cases h
        exact ⟨DirectoryStore.read_of_put hput, DirectoryStore.kindsKept_of_put hput⟩
  · rw [build_unprepared hfails c] at h
    cases h

end Command

end TemplateTrace
