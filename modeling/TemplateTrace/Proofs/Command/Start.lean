import TemplateTrace.Program
import TemplateTrace.Proofs.Files.Directories

/-!
What a run of the program does around its command. It reads the environment and the settings, which
changes nothing; then it makes the log file, which adds what is missing and nothing else. In the end
the log file gets its lines.
-/

namespace TemplateTrace

variable {Inv : FileTree → Prop}

namespace Environment

theorem firstFile?_eq (places : List String) (t : FileTree) :
    (firstFile? places : StateM FileTree (Option String)) t = (places.find? t.isFile, t) := by
  induction places with
  | nil => rfl
  | cons path rest ih =>
    show (if t.isFile path then pure (some path) else firstFile? rest : StateM FileTree _) t = _
    rw [List.find?_cons]
    cases t.isFile path with
    | true => rfl
    | false => exact ih

theorem withFile_reads (env : Environment) (t : FileTree) :
    ((env.withFile : StateM FileTree (Option Environment)) t).2 = t := by
  have hhere : (Files.currentDir : StateM FileTree (Option String)) t = (t.currentPath?, t) := rfl
  rw [withFile, bind_of_eq hhere, bind_of_eq (firstFile?_eq _ t)]
  rcases (placesFrom t.currentPath?).find? t.isFile with _ | path
  · rfl
  · have hread : (Files.readBytes path : ExceptT FileError (StateM FileTree) Bytes).run t =
        (t.readBytes path, t) := rfl
    dsimp only
    rw [bind_of_eq hread]
    rcases t.readBytes path with e | content <;> rfl

theorem withFile_of_read {env : Environment} {t : FileTree} {here : String} {content : Bytes}
    (hcurrent : t.currentPath? = some here) (h : t.readBytes (Path.join here fileName) = .ok content) :
    ((env.withFile : StateM FileTree (Option Environment)) t).1 =
      assignLines env [] (Assignment.linesOf content) := by
  have hhere : (Files.currentDir : StateM FileTree (Option String)) t = (some here, t) :=
    Prod.ext hcurrent rfl
  have hfirst : (placesFrom (some here)).find? t.isFile = some (Path.join here fileName) := by
    rw [placesFrom, Option.elim_some, Path.ancestors, List.map_cons,
      List.find?_cons_of_pos (FileTree.isFile_iff.mpr ⟨_, h⟩)]
  have hread : (Files.readBytes (Path.join here fileName) :
      ExceptT FileError (StateM FileTree) Bytes).run t = (.ok content, t) := congrArg (·, t) h
  rw [withFile, bind_of_eq hhere, bind_of_eq (firstFile?_eq _ t), hfirst]
  dsimp only
  rw [bind_of_eq hread]
  rfl

end Environment

namespace Settings

theorem fileAt?_reads (place : String) (t : FileTree) :
    ((fileAt? place : StateM FileTree (Option String)) t).2 = t := by
  have hfile : ∀ place, (Files.isFile place : StateM FileTree Bool) t = (t.isFile place, t) := fun _ => rfl
  rw [fileAt?, bind_of_eq (hfile _)]
  split
  · rfl
  · rw [bind_of_eq (hfile _)]
    split <;> rfl

theorem preserves_readFile (path : String) :
    Preserves Inv (readFile path : ExceptT SettingsError (StateM FileTree) _) := by
  have hfile : ∀ place t, Inv t → Inv ((fileAt? place : StateM FileTree (Option String)) t).2 := by
    intro place t ht
    rwa [fileAt?_reads]
  refine Preserves.bind (fun _ h => h) fun here? => ?_
  rcases placeOf? here? path with _ | place
  · exact .throw _
  · refine (Preserves.lift (hfile place)).bind fun file? => ?_
    cases file? with
    | none => exact .throw _
    | some file =>
      refine Preserves.bind (fun _ h => h) fun content => ?_
      cases content with
      | error e => exact .throw _
      | ok content => exact fun _ h => h

theorem preserves_load (file? : Option String) (env : Environment) :
    Preserves Inv (load file? env : ExceptT SettingsError (StateM FileTree) Settings) := by
  have hsources : ∀ entries, Preserves Inv (ExceptT.mk (pure (ofSources entries env)) :
      ExceptT SettingsError (StateM FileTree) Settings) := fun _ _ h => h
  cases file? with
  | some path => exact (preserves_readFile path).bind hsources
  | none =>
    have hhome : Preserves Inv (liftM (env.configFile : StateM FileTree String) :
        ExceptT SettingsError (StateM FileTree) String) := fun _ h => h
    refine hhome.bind fun path => Preserves.bind ?_ hsources
    refine (preserves_readFile path).tryCatch fun e => ?_
    cases e with
    | malformed message => exact .throw _
    | _ => exact .pure []

theorem load_reads (file? : Option String) (env : Environment) (t : FileTree) :
    (runFrom (load file? env : ExceptT SettingsError (StateM FileTree) Settings) t).2 = t := by
  have hkeep : Preserves (· = t) (load file? env : ExceptT SettingsError (StateM FileTree) Settings) :=
    preserves_load file? env
  exact hkeep t rfl

theorem readFile_of_read {path place : String} {t : FileTree} {content : Bytes}
    (hplace : placeOf? t.currentPath? path = some place) (h : t.readBytes place = .ok content) :
    runFrom (readFile path : ExceptT SettingsError (StateM FileTree) _) t = (readToml content, t) := by
  have hhere : (Files.currentDir : StateM FileTree (Option String)) t = (t.currentPath?, t) := rfl
  have hisFile : (Files.isFile place : StateM FileTree Bool) t = (true, t) :=
    Prod.ext (FileTree.isFile_iff.mpr ⟨_, h⟩) rfl
  have hfile : (fileAt? place : StateM FileTree (Option String)) t = (some place, t) := by
    rw [fileAt?, bind_of_eq hisFile]
    rfl
  have hbytes : (Files.readBytes place : ExceptT FileError (StateM FileTree) Bytes).run t =
      (.ok content, t) := congrArg (·, t) h
  rw [readFile, runFrom_bind_ok (runFrom_lift hhere), hplace]
  dsimp only
  rw [runFrom_bind_ok (runFrom_lift hfile)]
  dsimp only
  rw [runFrom_bind_ok (runFrom_lift hbytes)]
  rfl

theorem load_of_read {path place : String} {env : Environment} {t : FileTree} {content : Bytes}
    (hplace : placeOf? t.currentPath? path = some place) (h : t.readBytes place = .ok content) :
    (runFrom (load (some path) env : ExceptT SettingsError (StateM FileTree) Settings) t).1 =
      (do ofSources (← readToml content) env) := by
  have hread := readFile_of_read hplace h
  rcases htoml : readToml content with e | entries
  · rw [htoml] at hread
    have hload : runFrom (load (some path) env : ExceptT SettingsError (StateM FileTree) Settings) t =
        (.error e, t) := runFrom_bind_error hread
    rw [hload]
    rfl
  · rw [htoml] at hread
    have hload : runFrom (load (some path) env : ExceptT SettingsError (StateM FileTree) Settings) t =
        (ofSources entries env, t) := runFrom_bind_ok hread
    rw [hload]
    rfl

end Settings

def Outcome.exitCode : Outcome → Nat
  | finished code _ _ => code
  | usage p => p.exitCode
  | aborted => 101

theorem CommandError.exitCode_ne_zero (e : CommandError) : e.exitCode ≠ 0 := by
  rw [CommandError.exitCode]
  cases e.category <;> decide

namespace Program

variable {t u v : FileTree} {path : String} {env : Environment} {words : List String}
  {i : CommandLine.Invocation} {s : Settings} {host : Host}

theorem openLog_eq_ok_iff :
    runFrom (openLog path : ExceptT LogFault (StateM FileTree) Unit) t = (.ok (), u) ↔
      ∃ name made, Path.fileName? path = some name ∧
        runFrom (Files.ensureDirs (logDir path)) t = (.ok (), made) ∧
        made.makeFile (Path.join (logDir path) name) = .ok u := by
  rw [openLog]
  rcases Path.fileName? path with _ | name
  · simp [runFrom_throw]
  · constructor
    · intro h
      obtain ⟨_, made, hdirs, hfile⟩ := runFrom_bind_eq_ok h
      exact ⟨name, made, rfl, runFrom_adapt_eq_ok_iff.mp hdirs,
        FileTree.of_change_ok (runFrom_adapt_eq_ok_iff.mp hfile)⟩
    · rintro ⟨_, made, heq, hdirs, hfile⟩
      cases heq
      have hmade : runFrom (Files.makeFile (Path.join (logDir path) name) :
          ExceptT FileError (StateM FileTree) Unit) made = (.ok (), u) := FileTree.runFrom_change_ok hfile
      exact (runFrom_bind_ok (runFrom_adapt_eq_ok_iff.mpr hdirs)).trans (runFrom_adapt_eq_ok_iff.mpr hmade)

theorem extends_openLog (h : runFrom (openLog path : ExceptT LogFault (StateM FileTree) Unit) t = (.ok (), u)) :
    FileTree.Extends t u := by
  obtain ⟨name, made, -, hdirs, hfile⟩ := openLog_eq_ok_iff.mp h
  have hmade := FileTree.extends_ensureDirs (logDir path) t
  rw [hdirs] at hmade
  exact hmade.trans (FileTree.extends_of_makeFile hfile)

theorem openLog_again (h : runFrom (openLog path : ExceptT LogFault (StateM FileTree) Unit) t = (.ok (), u))
    (hkept : FileTree.KindsKept u v) :
    ∃ w, runFrom (openLog path : ExceptT LogFault (StateM FileTree) Unit) v = (.ok (), w) := by
  obtain ⟨name, made, hname, hdirs, hfile⟩ := openLog_eq_ok_iff.mp h
  have hdirs' := FileTree.ensureDirs_again hdirs ((FileTree.extends_of_makeFile hfile).kindsKept hkept).dirs
  -- No NUL is in the name, since the file could be made under it before.
  have hisName : Path.IsName name := by
    obtain ⟨p, hplace, -⟩ := FileTree.look?_of_makeFile hfile
    have hnul := (FileTree.checkPath_eq_ok_iff.mp (FileTree.checkPath_of_place hplace)).1
    exact Path.isName_of_fileName? hname fun hmem => hnul ((Path.suffix_join _ name).subset hmem)
  obtain ⟨w, hfile'⟩ := FileTree.makeFile_again hisName hfile hkept
  exact ⟨w, openLog_eq_ok_iff.mpr ⟨name, v, hname, hdirs', hfile'⟩⟩

def makeLog (s : Settings) : ExceptT LogFault (StateM FileTree) Unit :=
  match s.logFile with
  | some path => openLog path
  | none => return ()

theorem extends_makeLog (h : runFrom (makeLog s) t = (.ok (), u)) : FileTree.Extends t u := by
  rw [makeLog] at h
  split at h
  · exact extends_openLog h
  · cases h
    exact .refl _

theorem makeLog_again (h : runFrom (makeLog s) t = (.ok (), u)) (hkept : FileTree.KindsKept u v) :
    ∃ w, runFrom (makeLog s) v = (.ok (), w) := by
  rw [makeLog] at h ⊢
  split at h
  · exact openLog_again h hkept
  · exact ⟨v, rfl⟩

theorem place_of_makeLog (h : runFrom (makeLog s) t = (.ok (), u)) (hpath : logPath? s = some path) :
    ∃ p, u.place path = .ok p := by
  obtain ⟨file, hfile, hpath⟩ := Option.bind_eq_some_iff.mp hpath
  obtain ⟨name, hname, rfl⟩ := Option.map_eq_some_iff.mp hpath
  rw [makeLog, hfile] at h
  obtain ⟨name', made, hname', -, hmade⟩ := openLog_eq_ok_iff.mp h
  cases hname.symm.trans hname'
  obtain ⟨p, hplace, -⟩ := FileTree.look?_of_makeFile hmade
  exact ⟨p, (FileTree.extends_of_makeFile hmade).dirsKept.place hplace⟩

def logged (host : Host) (s : Settings) (t : FileTree) : FileTree :=
  ((closeLog host s : StateM FileTree Unit) t).2

/-- The log file is another file than that of the path. -/
def Unlogged (s : Settings) (path : String) (t : FileTree) : Prop :=
  ∀ log, logPath? s = some log → t.place log ≠ t.place path

theorem unlogged_of_none (h : s.logFile = none) (path : String) (t : FileTree) : Unlogged s path t := by
  intro log hlog
  rw [logPath?, h] at hlog
  cases hlog

theorem logged_cases (host : Host) (s : Settings) (t : FileTree) :
    logged host s t = t ∨ ∃ log, logPath? s = some log ∧
      t.append log (Text.bytes host.lines) = .ok (logged host s t) := by
  rcases hpath : logPath? s with _ | log
  · rw [logged, closeLog, hpath]
    exact .inl rfl
  · have hlogged : logged host s t =
        (runFrom (FileTree.change (·.append log (Text.bytes host.lines))) t).2 := by
      rw [logged, closeLog, hpath]
      rfl
    rw [FileTree.runFrom_change] at hlogged
    rcases happend : t.append log (Text.bytes host.lines) with e | u
    · rw [happend] at hlogged
      exact .inl hlogged
    · rw [happend] at hlogged
      exact .inr ⟨log, rfl, happend.trans (congrArg Except.ok hlogged.symm)⟩

theorem dirsKept_logged (host : Host) (s : Settings) (t : FileTree) : FileTree.DirsKept t (logged host s t) := by
  obtain hsame | ⟨log, -, happend⟩ := logged_cases host s t
  · rw [hsame]
    exact (FileTree.Extends.refl t).dirsKept
  · exact FileTree.dirsKept_of_append happend

theorem kindsKept_logged (h : FileTree.KindsKept t u) (host : Host) (s : Settings) :
    FileTree.KindsKept t (logged host s u) := by
  obtain hsame | ⟨log, -, happend⟩ := logged_cases host s u
  · rwa [hsame]
  · exact h.append happend

theorem readBytes_logged {p : List String} (h : Unlogged s path t) (hplace : t.place path = .ok p)
    (host : Host) : (logged host s t).readBytes path = t.readBytes path := by
  obtain hsame | ⟨log, hlog, happend⟩ := logged_cases host s t
  · rw [hsame]
  · exact FileTree.readBytes_of_append happend hplace fun hsame => h log hlog (hsame.trans hplace.symm)

theorem unlogged_iff_of_kept {start : FileTree} {b : Bytes} (hlog : runFrom (makeLog s) t = (.ok (), start))
    (hkept : FileTree.KindsKept start u) (hdirs : FileTree.DirsKept u v) (hread : u.readBytes path = .ok b) :
    Unlogged s path v ↔ Unlogged s path u := by
  obtain ⟨p, hplace, -⟩ := FileTree.readBytes_eq_ok_iff.mp hread
  apply forall₂_congr
  intro log hpath
  obtain ⟨q, hq⟩ := place_of_makeLog hlog hpath
  have hq' := hkept.dirs.place hq
  rw [hq', hplace, hdirs.place hq', hdirs.place hplace]

theorem next_makeLog {start : FileTree} {b : Bytes} (hlog : runFrom (makeLog s) t = (.ok (), start))
    (hkept : FileTree.KindsKept start u) (hread : u.readBytes path = .ok b) (hother : Unlogged s path u)
    (host : Host) :
    ∃ v, runFrom (makeLog s) (logged host s u) = (.ok (), v) ∧ v.readBytes path = .ok b ∧
      ∀ w, FileTree.DirsKept v w → ∀ host' : Host, (logged host' s w).readBytes path = w.readBytes path := by
  obtain ⟨p, hplace, -⟩ := FileTree.readBytes_eq_ok_iff.mp hread
  obtain ⟨v, hlog'⟩ := makeLog_again hlog (kindsKept_logged hkept host s)
  have hextends := extends_makeLog hlog'
  refine ⟨v, hlog', hextends.readBytes ((readBytes_logged hother hplace host).trans hread), ?_⟩
  intro w hdirs host'
  have hdirs' := ((dirsKept_logged host s u).trans hextends.dirsKept).trans hdirs
  exact readBytes_logged ((unlogged_iff_of_kept hlog hkept hdirs' hread).mpr hother) (hdirs'.place hplace) host'

/-- The words are understood as this invocation, and lead to these settings. -/
def Understands (env : Environment) (words : List String) (t : FileTree)
    (i : CommandLine.Invocation) (s : Settings) : Prop :=
  ∃ filled, ((env.withFile : StateM FileTree (Option Environment)) t).1 = some filled ∧
    CommandLine.parse (Assoc.lookup "NO_COLOR" filled) words = .ok i ∧
    (runFrom (Settings.load i.configFile filled : ExceptT SettingsError (StateM FileTree) Settings) t).1
      = .ok s

theorem understands_of_files {filled : Environment} {here file place : String} {content config : Bytes}
    (hhere : t.currentPath? = some here)
    (hfile : t.readBytes (Path.join here Environment.fileName) = .ok content)
    (hfilled : Environment.assignLines env [] (Assignment.linesOf content) = some filled)
    (hparse : CommandLine.parse (Assoc.lookup "NO_COLOR" filled) words = .ok i)
    (hasked : i.configFile = some file) (hplace : Settings.placeOf? (some here) file = some place)
    (hconfig : t.readBytes place = .ok config)
    (hsettings : (do Settings.ofSources (← Settings.readToml config) filled) = .ok s) :
    Understands env words t i s := by
  refine ⟨filled, (Environment.withFile_of_read hhere hfile).trans hfilled, hparse, ?_⟩
  rw [hasked]
  exact (Settings.load_of_read (hhere ▸ hplace) hconfig).trans hsettings

def console (terminal : Terminal) (i : CommandLine.Invocation) (s : Settings) : Console :=
  .choose terminal.out i.isQuiet (i.noColour || s.noColour) i.format s.format

theorem dispatch_eq (host : Host) (env : Environment) (i : CommandLine.Invocation) (s : Settings)
    (t : FileTree) :
    let performed := runFrom (perform host env s (console host.toTerminal i s) i.request) t
    (dispatch host env i s : StateM FileTree Outcome) t =
      (outcome host.toTerminal i performed.1, logged host s performed.2) := by
  rcases h : runFrom (perform host env s (console host.toTerminal i s) i.request) t with ⟨result, u⟩
  rw [dispatch, ← console, run_bind_of_runFrom h]
  rfl

def runIn (host : Host) (env : Environment) (words : List String) (t : FileTree) :
    Outcome × FileTree := (run host env words : StateM FileTree Outcome) t

def proceed (host : Host) (env : Environment) (i : CommandLine.Invocation) (t : FileTree) :
    Except SettingsError Settings → Outcome × FileTree
  | .error e => (fail host.toTerminal i (.config e.message []), t)
  | .ok s => match runFrom (makeLog s) t with
    | (.ok (), u) => (dispatch host env i s : StateM FileTree Outcome) u
    | (.error fault, u) => (fault.outcome, u)

theorem runIn_of_load {filled : Environment} {settings : Except SettingsError Settings}
    (hfilled : ((env.withFile : StateM FileTree (Option Environment)) t).1 = some filled)
    (hparse : CommandLine.parse (Assoc.lookup "NO_COLOR" filled) words = .ok i)
    (hload : (runFrom (Settings.load i.configFile filled : ExceptT SettingsError (StateM FileTree) Settings) t).1
      = settings) (host : Host) :
    runIn host env words t = proceed host filled i t settings := by
  have hfile : (env.withFile : StateM FileTree (Option Environment)) t = (some filled, t) :=
    Prod.ext hfilled (env.withFile_reads t)
  have hsettings : runFrom (Settings.load i.configFile filled : ExceptT SettingsError (StateM FileTree)
      Settings) t = (settings, t) := Prod.ext hload (Settings.load_reads _ _ t)
  rw [runIn, run, bind_of_eq hfile]
  dsimp only
  rw [hparse]
  dsimp only
  rw [start, run_bind_of_runFrom hsettings]
  rcases settings with e | s
  · rfl
  · rw [proceed]
    rcases hlog : runFrom (makeLog s) t with ⟨fault | _, u⟩
    · exact run_bind_of_runFrom hlog
    · exact run_bind_of_runFrom hlog

theorem runIn_eq (h : Understands env words t i s) (host : Host) :
    ∃ filled, runIn host env words t =
      match runFrom (makeLog s) t with
      | (.ok (), u) => (dispatch host filled i s : StateM FileTree Outcome) u
      | (.error fault, u) => (fault.outcome, u) := by
  obtain ⟨filled, hfilled, hparse, hload⟩ := h
  exact ⟨filled, runIn_of_load hfilled hparse hload host⟩

theorem outcome_ne_finished (fault : LogFault) (out err : String) :
    fault.outcome ≠ .finished 0 out err := by
  cases fault <;> nofun

theorem outcome_eq_finished_iff {terminal : Terminal} {result : Except CommandFailure String}
    {out err : String} : outcome terminal i result = .finished 0 out err ↔ result = .ok out ∧ err = "" := by
  rcases result with (e | _) | found
  · refine iff_of_false (fun h => ?_) nofun
    exact e.exitCode_ne_zero (Outcome.finished.inj h).1
  · exact iff_of_false nofun nofun
  · rw [outcome, Outcome.finished.injEq, Except.ok.injEq, eq_comm (a := "")]
    simp

theorem of_runIn_finished (h : Understands env words t i s) {out err : String}
    (hrun : runIn host env words t = (.finished 0 out err, u)) :
    ∃ filled start v, runFrom (makeLog s) t = (.ok (), start) ∧
      runFrom (perform host filled s (console host.toTerminal i s) i.request) start = (.ok out, v) ∧
      u = logged host s v := by
  obtain ⟨filled, heq⟩ := runIn_eq h host
  rw [heq] at hrun
  rcases hlog : runFrom (makeLog s) t with ⟨fault | _, start⟩
  · rw [hlog] at hrun
    exact absurd (Prod.mk.inj hrun).1 (outcome_ne_finished fault out err)
  · rw [hlog] at hrun
    dsimp only at hrun
    rw [dispatch_eq] at hrun
    obtain ⟨houtcome, htree⟩ := Prod.mk.inj hrun
    exact ⟨filled, start, _, rfl, Prod.ext (outcome_eq_finished_iff.mp houtcome).1 rfl, htree.symm⟩

theorem runIn_of_log (h : Understands env words t i s) (hlog : runFrom (makeLog s) t = (.ok (), u))
    (host : Host) : ∃ filled,
      let performed := runFrom (perform host filled s (console host.toTerminal i s) i.request) u
      runIn host env words t = (outcome host.toTerminal i performed.1, logged host s performed.2) := by
  obtain ⟨filled, heq⟩ := runIn_eq h host
  refine ⟨filled, ?_⟩
  rw [heq, hlog]
  exact dispatch_eq host filled i s u

theorem finished_of_perform {request : CommandLine.Request} {out : String} (h : Understands env words t i s)
    (hi : i.request = request) (hlog : runFrom (makeLog s) t = (.ok (), u))
    (hperform : ∀ filled,
      runFrom (perform host filled s (console host.toTerminal i s) request) u = (.ok out, v)) :
    runIn host env words t = (.finished 0 out "", logged host s v) := by
  obtain ⟨filled, hrun⟩ := runIn_of_log h hlog host
  rw [hrun, hi, hperform]
  rfl

end Program

end TemplateTrace
