import TemplateTrace.Proofs.Command.BuildThenStack
import TemplateTrace.Proofs.Files.Drives

/-!
What a build leaves that fails. The inputs are read and all templates loaded before anything is
written, so that only a map that cannot be put where it is wanted leaves a trace: for the store the
directories that it has made for its entries, and its staging file; and for a file the part of the map that
was written to it. Main statement: `failed_build_leaves`.
-/

namespace TemplateTrace

namespace DirectoryStore

open FileTree (GrownAt onDrive)

variable {s : DirectoryStore} {key text : String} {t u : FileTree} {e : Error}

/-- What a put of the key may leave that fails: files are as they were but for the staging file, and
new directories are that of the store and those above it. -/
structure Leaves (s : DirectoryStore) (key : String) (t u : FileTree) : Prop where
  files : ∀ p, u.place (s.stagingPath key) ≠ .ok p →
    ∀ b, u.look? p = some (some b) ↔ t.look? p = some (some b)
  dirs : ∀ p, t.look? p = some none → u.look? p = some none
  made : ∀ p, u.look? p = some none → t.look? p ≠ some none →
    ∃ a ∈ Path.ancestors s.dir, u.place a = .ok p

theorem leaves_of_grown (h : GrownAt (Path.ancestors s.dir) t u) (key : String) : s.Leaves key t u where
  files p _ b := by
    rcases h.grown.look p with heq | ⟨hnone, hdir⟩
    · rw [heq]
    · simp [hnone, hdir]
  dirs p := h.grown.kept.look p none
  made p hdir hother := by
    rcases h.grown.look p with heq | ⟨hnone, -⟩
    · exact absurd (heq ▸ hdir) hother
    · exact h.new p hnone (by simp [hdir])

theorem Leaves.writeBytes {made : FileTree} (h : s.Leaves key t made) {content : Bytes}
    (hwrite : made.writeBytes (s.stagingPath key) content = .ok u) : s.Leaves key t u := by
  obtain ⟨p, hplace, -, hdir, -, hlook⟩ := FileTree.look?_of_writeBytes hwrite
  have hkept := FileTree.dirsKept_of_writeBytes hwrite
  have hplace' := hkept.place hplace
  have hsame : ∀ q, u.place (s.stagingPath key) ≠ .ok q → u.look? q = made.look? q := by
    intro q hq
    rw [hlook, if_neg]
    rintro rfl
    exact hq hplace'
  refine ⟨fun q hq b => ?_, fun q hq => hkept.dir q (h.dirs q hq), fun q hq hother => ?_⟩
  · rw [hsame q hq]
    refine h.files q (fun hplaced => hq ?_) b
    exact hkept.place hplaced
  · have hmade : made.look? q = some none := by
      rw [hlook] at hq
      split at hq
      · cases hq
      · exact hq
    obtain ⟨a, ha, hplaced⟩ := h.made q hmade hother
    exact ⟨a, ha, hkept.place hplaced⟩

theorem leaves_of_put_error {drive : Drive}
    (h : runFrom (@put (StateM FileTree) _ (onDrive drive) s key text) t = (.error e, u)) : s.Leaves key t u := by
  have hgrown := FileTree.grownAt_ensureDirs s.dir t
  obtain ⟨e', hput⟩ := of_runFrom_adapt_error h
  rw [FileTree.ensureDirs_onDrive] at hput
  obtain hdirs | ⟨_, made, hdirs, hput⟩ := runFrom_bind_eq_error hput
  · rw [hdirs] at hgrown
    exact leaves_of_grown hgrown key
  · rw [hdirs] at hgrown
    have hmade := leaves_of_grown hgrown key
    obtain hwrite | ⟨_, written, hwrite, hrename⟩ := runFrom_bind_eq_error hput
    · obtain ⟨-, rfl⟩ | ⟨content, -, hwrite⟩ := FileTree.of_breaking hwrite
      · exact hmade
      · exact hmade.writeBytes hwrite
    · cases FileTree.of_change_error hrename
      obtain ⟨⟨_, hok⟩, -⟩ | ⟨content, -, hwrite⟩ := FileTree.of_breaking hwrite
      · cases hok
      · exact hmade.writeBytes hwrite

end DirectoryStore

namespace Command

open FileTree (BrokenOff onDrive)

variable {drive : Drive} {t u : FileTree} {r : CommandLine.BuildRequest} {s : Settings} {c : Console}
  {e : CommandFailure} {map : SourceMap}

theorem deliver_error {out : Option String}
    (h : runFrom (@deliver (StateM FileTree) _ (onDrive drive) c map out) t = (.error e, u)) :
    u = t ∨ ∃ file, out = some file ∧ BrokenOff file map.serialize t u := by
  rcases out with _ | out
  · cases h
  · obtain hwrite | ⟨_, v, -, h⟩ := runFrom_bind_eq_error h
    · obtain ⟨e', hwrite⟩ := of_runFrom_adapt_error hwrite
      obtain ⟨-, hsame⟩ | ⟨content, hpart, hwrite⟩ := FileTree.of_breaking hwrite
      · exact .inl hsame
      · exact .inr ⟨out, rfl, FileTree.brokenOff_of_writeBytes hpart hwrite⟩
    · cases h

/-- What a build may leave that has made its map, but could not put it where it was wanted. -/
inductive Unkept (r : CommandLine.BuildRequest) (s : Settings) (map : SourceMap) (t u : FileTree) : Prop
  | entry {key : String} (hkey : r.key = some key) (h : (cache s).Leaves key t u)
  | file {file : String} (hkey : r.key = none) (hout : r.out = some file)
    (h : BrokenOff file map.serialize t u)

theorem keep_error (h : runFrom (@keep (StateM FileTree) _ (onDrive drive) r s c map) t = (.error e, u)) :
    u = t ∨ Unkept r s map t u := by
  unfold keep at h
  split at h
  · rename_i key hkey
    obtain hput | ⟨_, v, -, h⟩ := runFrom_bind_eq_error h
    · obtain ⟨e', hput⟩ := of_runFrom_adapt_error hput
      exact .inr (.entry hkey (DirectoryStore.leaves_of_put_error hput))
    · cases h
  · rename_i hkey
    obtain hsame | ⟨file, hout, hbroken⟩ := deliver_error h
    · exact .inl hsame
    · exact .inr (.file hkey hout hbroken)

theorem of_build_error (h : runFrom (@build (StateM FileTree) _ (onDrive drive) r s c) t = (.error e, u)) :
    u = t ∨ ∃ content table map, Built t r s content table map ∧ Unkept r s map t u := by
  have hprepare : @prepare (StateM FileTree) _ (onDrive drive) r s = prepare r s := rfl
  rw [@build_eq (onDrive drive), hprepare] at h
  obtain ⟨content, table, map, hbuilt⟩ | ⟨e', hfails⟩ := prepare_cases r s t
  · rw [runFrom_bind_ok (prepare_of_built hbuilt)] at h
    obtain hsame | hunkept := keep_error h
    · exact .inl hsame
    · exact .inr ⟨content, table, map, hbuilt, hunkept⟩
  · rw [runFrom_bind_error hfails] at h
    cases h
    exact .inl rfl

end Command

namespace Program

open Command (cache Built Unkept)
open FileTree (onDrive)

variable {drive : Drive} {host : Host} {env filled : Environment} {words : List String} {t u : FileTree}
  {i j : CommandLine.Invocation} {s s' : Settings} {ending : Outcome}

theorem Understands.unique (h : Understands env words t i s) (h' : Understands env words t j s') :
    i = j ∧ s = s' := by
  obtain ⟨filled, hfilled, hparse, hload⟩ := h
  obtain ⟨filled', hfilled', hparse', hload'⟩ := h'
  cases hfilled.symm.trans hfilled'
  cases hparse.symm.trans hparse'
  cases hload.symm.trans hload'
  exact ⟨rfl, rfl⟩

/-- A run of the program on a file tree whose disk may break writes off. -/
def runOn (drive : Drive) (host : Host) (env : Environment) (words : List String) (t : FileTree) :
    Outcome × FileTree := @run (StateM FileTree) _ (onDrive drive) host env words t

theorem runOn_sound (host : Host) (env : Environment) (words : List String) (t : FileTree) :
    runOn .sound host env words t = runIn host env words t := rfl

theorem firstFile?_onDrive (drive : Drive) (places : List String) :
    @Environment.firstFile? (StateM FileTree) _ (onDrive drive) places = Environment.firstFile? places := by
  induction places with
  | nil => rfl
  | cons path rest ih =>
    unfold Environment.firstFile?
    rw [ih]
    rfl

theorem withFile_onDrive (drive : Drive) (env : Environment) (t : FileTree) :
    @Environment.withFile (StateM FileTree) _ (onDrive drive) env t =
      (((env.withFile : StateM FileTree (Option Environment)) t).1, t) := by
  have hsame : @Environment.withFile (StateM FileTree) _ (onDrive drive) env = env.withFile := by
    unfold Environment.withFile
    simp only [firstFile?_onDrive]
    rfl
  rw [hsame]
  exact Prod.ext rfl (env.withFile_reads t)

theorem load_onDrive (drive : Drive) (file? : Option String) (env : Environment) (t : FileTree) :
    runFrom (@Settings.load (StateM FileTree) _ (onDrive drive) file? env) t =
      ((runFrom (Settings.load file? env : ExceptT SettingsError (StateM FileTree) Settings) t).1, t) :=
  Prod.ext rfl (Settings.load_reads file? env t)

inductive Idle (terminal : Terminal) : Outcome → Prop
  | version : Idle terminal (.finished 0 version "")
  | usage (p : CommandLine.Problem) : Idle terminal (.usage p)
  | settings (i : CommandLine.Invocation) (message : String) :
    Idle terminal (fail terminal i (.config message []))

theorem runOn_of_not_understands (h : ∀ i s, ¬ Understands env words t i s) (drive : Drive) (host : Host) :
    ∃ ending, runOn drive host env words t = (ending, t) ∧
      (((env.withFile : StateM FileTree (Option Environment)) t).1 = none ∧ ending = .aborted ∨
        ((env.withFile : StateM FileTree (Option Environment)) t).1 ≠ none ∧ Idle host.toTerminal ending) := by
  have hfile := withFile_onDrive drive env t
  unfold runOn run
  rw [bind_of_eq hfile]
  rcases hfilled : ((env.withFile : StateM FileTree (Option Environment)) t).1 with _ | filled
  · exact ⟨.aborted, rfl, .inl ⟨rfl, rfl⟩⟩
  · dsimp only
    rcases hparse : CommandLine.parse (Assoc.lookup "NO_COLOR" filled) words with problem | i
    · cases problem with
      | versionWanted => exact ⟨_, rfl, .inr ⟨Option.some_ne_none filled, .version⟩⟩
      | _ => exact ⟨_, rfl, .inr ⟨Option.some_ne_none filled, .usage _⟩⟩
    · have hload := load_onDrive drive i.configFile filled t
      dsimp only
      unfold start
      rw [run_bind_of_runFrom hload]
      rcases hsettings : (runFrom (Settings.load i.configFile filled :
          ExceptT SettingsError (StateM FileTree) Settings) t).1 with e | s
      · exact ⟨_, rfl, .inr ⟨Option.some_ne_none filled, .settings i e.message⟩⟩
      · exact absurd ⟨filled, hfilled, hparse, hsettings⟩ (h i s)

theorem runOn_of_understands (h : Understands env words t i s) (hlog : s.logFile = none) (drive : Drive)
    (host : Host) : ∃ filled,
      let performed := runFrom
        (@perform (StateM FileTree) _ (onDrive drive) host filled s (console host.toTerminal i s) i.request) t
      runOn drive host env words t = (outcome host.toTerminal i performed.1, performed.2) := by
  obtain ⟨filled, hfilled, hparse, hsettings⟩ := h
  have hfile := withFile_onDrive drive env t
  have hload := load_onDrive drive i.configFile filled t
  rw [hfilled] at hfile
  rw [hsettings] at hload
  refine ⟨filled, ?_⟩
  unfold runOn run
  rw [bind_of_eq hfile]
  dsimp only
  rw [hparse]
  dsimp only
  unfold start
  rw [run_bind_of_runFrom hload]
  dsimp only
  rw [hlog]
  rcases hperform : runFrom (@perform (StateM FileTree) _ (onDrive drive) host filled s
      (console host.toTerminal i s) i.request) t with ⟨result, u⟩
  have hdispatch : @dispatch (StateM FileTree) _ (onDrive drive) host filled i s t =
      (outcome host.toTerminal i result, u) := by
    unfold dispatch
    rw [← console, run_bind_of_runFrom hperform]
    unfold closeLog
    rw [logPath?, hlog]
    rfl
  exact hdispatch

/-- A build that ends with an error, and has no log file, leaves everything as it was, unless its map
was made and could not be kept. -/
theorem failed_build_leaves
    (hwords : ∀ i s, Understands env words t i s → (∃ r, i.request = .build r) ∧ s.logFile = none)
    (hrun : runOn drive host env words t = (ending, u)) (hfailed : ending.exitCode ≠ 0) :
    u = t ∨ ∃ i s r content table map, Understands env words t i s ∧ i.request = .build r ∧
      Built t r s content table map ∧ Unkept r s map t u := by
  by_cases hany : ∃ i s, Understands env words t i s
  · obtain ⟨i, s, hunderstood⟩ := hany
    obtain ⟨⟨r, hr⟩, hlog⟩ := hwords i s hunderstood
    obtain ⟨filled, heq⟩ := runOn_of_understands hunderstood hlog drive host
    rw [hrun, hr] at heq
    rcases hbuild : runFrom (@perform (StateM FileTree) _ (onDrive drive) host filled s
        (console host.toTerminal i s) (.build r)) t with ⟨e | out, v⟩
    · rw [hbuild] at heq
      obtain ⟨-, rfl⟩ := Prod.mk.inj heq
      obtain hsame | ⟨content, table, map, hbuilt, hunkept⟩ := Command.of_build_error hbuild
      · exact .inl hsame
      · exact .inr ⟨i, s, r, content, table, map, hunderstood, hr, hbuilt, hunkept⟩
    · rw [hbuild] at heq
      cases heq
      exact absurd rfl hfailed
  · obtain ⟨_, hreads, -⟩ := runOn_of_not_understands (fun i s h => hany ⟨i, s, h⟩) drive host
    rw [hrun] at hreads
    exact .inl (Prod.mk.inj hreads).2

def blockedProject : FileTree :=
  { project 1 with
    nodes := (["work", ".tplmap-cache", "70616765.map.json"], .dir 0) :: (project 1).nodes }

def fullAfter (n : Nat) : Drive := fun _ _ => some ⟨n, .other "No space left on device (os error 28)"⟩

theorem unkept_of_changed {r : CommandLine.BuildRequest} (h : Understands env words t i s)
    (hr : i.request = .build r) (hchanged : u ≠ t)
    (hleft : u = t ∨ ∃ i s r content table map, Understands env words t i s ∧ i.request = .build r ∧
      Built t r s content table map ∧ Unkept r s map t u) : ∃ map, Unkept r s map t u := by
  obtain hsame | ⟨j, s', r', -, -, map, h', hr', -, hunkept⟩ := hleft
  · exact absurd hsame hchanged
  · obtain ⟨rfl, rfl⟩ := h.unique h'
    rw [hr] at hr'
    cases hr'
    exact ⟨map, hunkept⟩

theorem failed_build_leaves_part :
    (∃ ending u, runOn .sound {} [] buildWords blockedProject = (ending, u) ∧ ending.exitCode = 1 ∧
      u.isFile ".tplmap-cache/70616765.map.json.tmp" = true ∧ (cache {}).Leaves "page" blockedProject u) ∧
    ∃ ending u map, runOn (fullAfter 7) {} [] writeWords (project 1) = (ending, u) ∧ ending.exitCode = 1 ∧
      u.isFile "page.map" = true ∧ FileTree.BrokenOff "page.map" (SourceMap.serialize map) (project 1) u := by
  constructor
  · have hkept : Understands [] buildWords blockedProject (asked (.build pageBuild)) {} :=
      understands_asked rfl rfl rfl (by decide +kernel)
    have hbefore : blockedProject.isFile ".tplmap-cache/70616765.map.json.tmp" = false := by decide +kernel
    have hends : (runOn .sound {} [] buildWords blockedProject).1.exitCode = 1 ∧
        (runOn .sound {} [] buildWords blockedProject).2.isFile ".tplmap-cache/70616765.map.json.tmp" = true := by
      decide +kernel
    rcases hrun : runOn .sound {} [] buildWords blockedProject with ⟨ending, u⟩
    rw [hrun] at hends
    obtain ⟨hcode, hstaged⟩ := hends
    have hchanged : u ≠ blockedProject := by
      rintro rfl
      exact absurd (hstaged.symm.trans hbefore) (by decide)
    have hleft := failed_build_leaves (fun i s h => by
      obtain ⟨rfl, rfl⟩ := hkept.unique h
      exact ⟨⟨pageBuild, rfl⟩, rfl⟩) hrun (hcode ▸ Nat.one_ne_zero)
    obtain ⟨map, ⟨hkey, hleaves⟩ | ⟨hkey, -, -⟩⟩ := unkept_of_changed hkept rfl hchanged hleft
    · cases hkey
      exact ⟨ending, u, rfl, hcode, hstaged, hleaves⟩
    · cases hkey
  · have hwritten := understands_write 1
    have hbefore : (project 1).isFile "page.map" = false := by decide +kernel
    have hends : (runOn (fullAfter 7) {} [] writeWords (project 1)).1.exitCode = 1 ∧
        (runOn (fullAfter 7) {} [] writeWords (project 1)).2.isFile "page.map" = true := by decide +kernel
    rcases hrun : runOn (fullAfter 7) {} [] writeWords (project 1) with ⟨ending, u⟩
    rw [hrun] at hends
    obtain ⟨hcode, hfile⟩ := hends
    have hchanged : u ≠ project 1 := by
      rintro rfl
      exact absurd (hfile.symm.trans hbefore) (by decide)
    have hleft := failed_build_leaves (fun i s h => by
      obtain ⟨rfl, rfl⟩ := hwritten.unique h
      exact ⟨⟨_, rfl⟩, rfl⟩) hrun (hcode ▸ Nat.one_ne_zero)
    obtain ⟨map, ⟨hkey, -⟩ | ⟨-, hout, hbroken⟩⟩ := unkept_of_changed hwritten rfl hchanged hleft
    · cases hkey
    · cases hout
      exact ⟨ending, u, map, rfl, hcode, hfile, hbroken⟩

def detour : Environment := [("TPLMAP_CACHE__DIR", "x/../page.out")]

/-- On the way to a cache that cannot be made another directory appears, which the cache would not be in;
and the file for a map that cannot be written is there without it. -/
theorem failed_build_marks :
    (∃ i s r, Understands detour buildWords (project 1) i s ∧ i.request = .build r ∧ s.logFile = none ∧
      s.cacheDir = "x/../page.out") ∧
    (∃ i s r, Understands [] writeWords (project 1) i s ∧ i.request = .build r ∧ s.logFile = none) ∧
    (runIn {} detour buildWords (project 1)).1.exitCode = 1 ∧
    (runIn {} detour buildWords (project 1)).2.place "x/../page.out" = .ok ["work", "page.out"] ∧
    (project 1).look? ["work", "x"] = none ∧
    (runIn {} detour buildWords (project 1)).2.look? ["work", "x"] = some none ∧
    (runOn (fullAfter 0) {} [] writeWords (project 1)).1.exitCode = 1 ∧
    (project 1).look? ["work", "page.map"] = none ∧
    (runOn (fullAfter 0) {} [] writeWords (project 1)).2.look? ["work", "page.map"] = some (some []) := by
  refine ⟨⟨asked (.build pageBuild), { cacheDir := "x/../page.out" }, _, ?_, rfl, rfl, rfl⟩,
    ⟨asked (.build { pageBuild with out := some "page.map", key := none }), {}, _, understands_write 1, rfl, rfl⟩, ?_⟩
  · exact understands_of_files rfl rfl rfl (by decide +kernel) rfl rfl rfl (by decide +kernel)
  · decide +kernel

end Program

end TemplateTrace
