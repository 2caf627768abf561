import TemplateTrace.Proofs.Command.BuildThenStack
import TemplateTrace.Proofs.Settings.Texts

/-!
Where the settings that are texts come from, for a run of the program. What the environment says of a
setting counts more than the file, and the file more than the default; a build may be asked for its
templates in place of all of these. The text of a variable becomes a value before it becomes a text
again, so it counts as its value is written.
-/

namespace TemplateTrace

namespace Settings

variable {file? : Option String} {env : Environment} {t : FileTree} {file : List (String × Setting)}

def fileEntries (file? : Option String) (env : Environment) :
    ExceptT SettingsError (StateM FileTree) (List (String × Setting)) :=
  match file? with
  | some path => readFile path
  | none => do readFileIfThere (← (env.configFile : StateM FileTree String))

theorem load_eq (file? : Option String) (env : Environment) :
    (load file? env : ExceptT SettingsError (StateM FileTree) Settings) =
      fileEntries file? env >>= fun file => ExceptT.mk (pure (ofSources file env)) := by
  cases file? with
  | some path => rfl
  | none => exact (bind_assoc _ _ _).symm

theorem load_of_entries (h : (runFrom (fileEntries file? env) t).1 = .ok file) :
    (runFrom (load file? env : ExceptT SettingsError (StateM FileTree) Settings) t).1 = ofSources file env := by
  rcases hrun : runFrom (fileEntries file? env) t with ⟨found, u⟩
  rw [hrun] at h
  obtain rfl : found = .ok file := h
  rw [load_eq, runFrom_bind_ok hrun]
  rfl

end Settings

namespace TextSetting

variable {x : TextSetting} {r : CommandLine.BuildRequest} {s : Settings} {v : String}

def asked? : TextSetting → CommandLine.BuildRequest → Option String
  | root, r => r.root
  | extension, r => r.extension
  | _, _ => none

def unasked : TextSetting → CommandLine.BuildRequest → CommandLine.BuildRequest
  | root, r => { r with root := none }
  | extension, r => { r with extension := none }
  | _, r => r

def put : TextSetting → String → Settings → Settings
  | root, v, s => { s with root := v }
  | extension, v, s => { s with extension := some v }
  | cacheDir, v, s => { s with cacheDir := v }
  | format, v, s => { s with format := v }

theorem value?_put (x y : TextSetting) (v : String) (s : Settings) :
    y.value? (x.put v s) = if y = x then some v else y.value? s := by
  cases x <;> cases y <;> rfl

theorem build_unasked (h : x.asked? r = some v) (s : Settings) (c : Console) :
    (Command.build r s c : Command.CommandT (StateM FileTree) String) =
      Command.build (x.unasked r) (x.put v s) c := by
  cases r
  cases x <;> cases h <;> rfl

theorem get?_key (x : TextSetting) (s : Settings) : s.get? x.key = some ((x.value? s).getD "") := by
  cases x <;> rfl

end TextSetting

namespace Program

open Environment (shown IsWritten)

variable {t u : FileTree} {env filled : Environment} {words : List String} {i : CommandLine.Invocation}
  {s : Settings} {file : List (String × Setting)} {x : TextSetting}

/-- The words are understood, with this environment and these entries of a file to make settings of. -/
structure Gathers (env : Environment) (words : List String) (t : FileTree) (filled : Environment)
    (i : CommandLine.Invocation) (file : List (String × Setting)) : Prop where
  environment : ((env.withFile : StateM FileTree (Option Environment)) t).1 = some filled
  invocation : CommandLine.parse (Assoc.lookup "NO_COLOR" filled) words = .ok i
  entries : (runFrom (Settings.fileEntries i.configFile filled) t).1 = .ok file

theorem Gathers.runIn_eq (h : Gathers env words t filled i file) (host : Host) :
    runIn host env words t = proceed host filled i t (Settings.ofSources file filled) :=
  runIn_of_load h.environment h.invocation (Settings.load_of_entries h.entries) host

theorem comes_of_sets {v : String} (h : filled.Sets x v) (file : List (String × Setting)) :
    x.Comes (some (shown v)) (Settings.ofSources file filled) :=
  TextSetting.comes_of_given (h.holds _).field? (Environment.text?_settingOf v)

theorem value?_of_sets {v : String} (h : filled.Sets x v) (hs : Settings.ofSources file filled = .ok s) :
    x.value? s = some v ↔ IsWritten v := by
  have hcomes := comes_of_sets h file
  rw [hs, TextSetting.Comes] at hcomes
  rw [hcomes, Option.some_inj, Environment.shown_eq_iff]

theorem dispatch_configGet (hi : i.request = .configGet x.key) (host : Host) (t : FileTree) :
    (dispatch host filled i s : StateM FileTree Outcome) t =
      (.finished 0 ((x.value? s).getD "" ++ "\n") "", logged host s t) := by
  have hget : Command.configGet x.key s = .ok ((x.value? s).getD "" ++ "\n") := by
    rw [Command.configGet, x.get?_key]
    rfl
  rw [dispatch_eq, hi, perform, hget]
  rfl

/-- A setting is what its variable says, as that is written; or else what the file says; or else its
default. There are such settings, or an error about something else ends the run; each command has them, one
that asks for the setting prints it, and a build may be asked for something else in their place. -/
theorem text_setting_of_sources (h : Gathers env words t filled i file) (x : TextSetting) (host : Host) :
    let settings := Settings.ofSources file filled
    let inFile := Setting.overlayAll file (.table [])
    (∀ v, filled.Sets x v → x.Comes (some (shown v)) settings ∧
        ∀ s, settings = .ok s → (x.value? s = some v ↔ IsWritten v)) ∧
      (filled.Leaves x inFile → x.field? inFile = some none → x.Comes (x.value? .defaults) settings) ∧
      (filled.Leaves x inFile → ∀ w text, x.field? inFile = some (some w) → w.text? = some text →
        x.Comes (some text) settings) ∧
      (∀ e, settings = .error e → ∃ report, runIn host env words t = (.finished 4 "" report, t)) ∧
      ∀ s, settings = .ok s →
        (∀ u, runFrom (makeLog s) t = (.ok (), u) →
          runIn host env words t = (dispatch host filled i s : StateM FileTree Outcome) u ∧
            (i.request = .configGet x.key →
              runIn host env words t =
                (.finished 0 ((x.value? s).getD "" ++ "\n") "", logged host s u))) ∧
          ∀ r v c, x.asked? r = some v → x.value? (x.put v s) = some v ∧
            (perform host filled s c (.build r) : Command.CommandT (StateM FileTree) String) =
              perform host filled (x.put v s) c (.build (x.unasked r)) := by
  intro settings inFile
  have hrun := h.runIn_eq host
  refine ⟨fun v hsets => ⟨comes_of_sets hsets file, fun s => value?_of_sets hsets⟩,
    fun hleaves hfield => TextSetting.comes_of_missing (hleaves.field? hfield),
    fun hleaves w text hfield => TextSetting.comes_of_given (hleaves.field? hfield), ?_, ?_⟩
  · intro e (he : Settings.ofSources file filled = .error e)
    rw [hrun, he]
    exact ⟨_, rfl⟩
  · intro s (hs : Settings.ofSources file filled = .ok s)
    rw [hs] at hrun
    refine ⟨fun u hlog => ?_, fun r v c hasked => ?_⟩
    · rw [proceed, hlog] at hrun
      exact ⟨hrun, fun hi => hrun.trans (dispatch_configGet hi host u)⟩
    · exact ⟨(x.value?_put x v s).trans (if_pos rfl), x.build_unasked hasked s c⟩

def withSettings (toml : String) : FileTree where
  nodes :=
    [(["work"], .dir 0), (["work", ".env"], .file [] 0),
      (["work", "tplmap.toml"], .file (Text.bytes toml) 0)]
  currentDir := ["work"]
  now := 1

def getWords (key : String) : List String := ["--config", "tplmap.toml", "config", "get", key]

def entriesOf (toml : String) : List (String × Setting) :=
  (Settings.readToml (Text.bytes toml)).toOption.getD []

theorem gathers_get {toml key : String} {env : Environment} (hcolour : Assoc.lookup "NO_COLOR" env = none)
    (hparse : CommandLine.parse none (getWords key) = .ok (asked (.configGet key)))
    (htoml : (Settings.readToml (Text.bytes toml)).isOk = true) :
    Gathers env (getWords key) (withSettings toml) env (asked (.configGet key)) (entriesOf toml) := by
  have hhere : (withSettings toml).currentPath? = some "/work" := rfl
  have hfile : (withSettings toml).readBytes "/work/.env" = .ok [] := rfl
  have hconfig : (withSettings toml).readBytes "/work/tplmap.toml" = .ok (Text.bytes toml) := rfl
  have hplace : Settings.placeOf? (some "/work") "tplmap.toml" = some "/work/tplmap.toml" := by decide +kernel
  refine ⟨Environment.withFile_of_read hhere hfile, by rw [hcolour, hparse], ?_⟩
  have hread : runFrom (Settings.fileEntries (some "tplmap.toml") env) (withSettings toml) =
      (Settings.readToml (Text.bytes toml), withSettings toml) := Settings.readFile_of_read (hhere.symm ▸ hplace) hconfig
  refine (congrArg Prod.fst hread).trans ?_
  rw [entriesOf]
  rcases h : Settings.readToml (Text.bytes toml) with e | entries
  · rw [h] at htoml
    cases htoml
  · rfl

def viewsToml : String := "templates.root = \"views\"\n"

def numbered : Environment := [("TPLMAP_CACHE__DIR", "007")]

theorem text_setting_of_sources_views :
    runIn {} numbered (getWords "templates.root") (withSettings viewsToml) =
        (.finished 0 "views\n" "", withSettings viewsToml) ∧
      runIn {} numbered (getWords "cache.dir") (withSettings viewsToml) =
        (.finished 0 "7\n" "", withSettings viewsToml) ∧
      runIn {} numbered (getWords "output.format") (withSettings viewsToml) =
        (.finished 0 "auto\n" "", withSettings viewsToml) := by
  have hsettings : Settings.ofSources (entriesOf viewsToml) numbered = .ok { root := "views", cacheDir := "7" } := by
    decide +kernel
  have htext : ((TextSetting.root.field? (Setting.overlayAll (entriesOf viewsToml) (.table []))).bind id).bind
      Setting.text? = some "views" := by decide +kernel
  have hnone : (TextSetting.format.field? (Setting.overlayAll (entriesOf viewsToml) (.table []))).map
      Option.isNone = some true := by decide +kernel
  have hgathers : ∀ key, CommandLine.parse none (getWords key) = .ok (asked (.configGet key)) →
      Gathers numbered (getWords key) (withSettings viewsToml) numbered (asked (.configGet key))
        (entriesOf viewsToml) :=
    fun key hparse => gathers_get rfl hparse (by decide +kernel)
  generalize entriesOf viewsToml = file at hsettings htext hnone hgathers
  have hleaves : ∀ x : TextSetting, x.sectionName ≠ "cache" →
      numbered.Leaves x (Setting.overlayAll file (.table [])) := by
    intro x hsection
    refine Environment.leaves_of_sections fun e he => ⟨.cacheDir, ?_, hsection.symm⟩
    rw [List.mem_singleton.mp he]
    rfl
  have hsets : numbered.Sets .cacheDir "007" := by
    refine ⟨List.mem_singleton_self _, fun e he _ => ?_⟩
    cases List.mem_singleton.mp he
    exact ⟨Environment.settingKey?_variableName .cacheDir, rfl⟩
  refine ⟨?_, ?_, ?_⟩
  · obtain ⟨-, -, hgiven, -, hok⟩ :=
      text_setting_of_sources (hgathers "templates.root" (by decide +kernel)) .root {}
    obtain ⟨w, hw, htext⟩ := Option.bind_eq_some_iff.mp htext
    obtain ⟨_, hfield, rfl⟩ := Option.bind_eq_some_iff.mp hw
    have hvalue := hgiven (hleaves _ (by decide)) w "views" hfield htext
    rw [hsettings, TextSetting.Comes] at hvalue
    rw [((hok _ hsettings).1 _ rfl).2 rfl, hvalue]
    rfl
  · obtain ⟨henv, -, -, -, hok⟩ :=
      text_setting_of_sources (hgathers "cache.dir" (by decide +kernel)) .cacheDir {}
    have hvalue := (henv "007" hsets).1
    rw [hsettings, TextSetting.Comes] at hvalue
    rw [((hok _ hsettings).1 _ rfl).2 rfl, hvalue]
    rfl
  · obtain ⟨-, hmissing, -, -, hok⟩ :=
      text_setting_of_sources (hgathers "output.format" (by decide +kernel)) .format {}
    obtain ⟨w, hfield, hw⟩ := Option.map_eq_some_iff.mp hnone
    rw [Option.isNone_iff_eq_none.mp hw] at hfield
    have hvalue := hmissing (hleaves _ (by decide)) hfield
    rw [hsettings, TextSetting.Comes] at hvalue
    rw [((hok _ hsettings).1 _ rfl).2 rfl, hvalue]
    rfl

/-- Zeros in front of a number are lost in a variable, and kept in a file. -/
theorem root_loses_zeros :
    Environment.Sets [("TPLMAP_TEMPLATES__ROOT", "007")] .root "007" ∧
      (runIn {} [("TPLMAP_TEMPLATES__ROOT", "007")] (getWords "templates.root") (withSettings "")).1 =
        .finished 0 "7\n" "" ∧
      (runIn {} [] (getWords "templates.root") (withSettings "templates.root = \"007\"\n")).1 =
        .finished 0 "007\n" "" := by
  refine ⟨⟨List.mem_singleton.mpr rfl, ?_⟩, by decide +kernel, by decide +kernel⟩
  intro e he _
  cases List.mem_singleton.mp he
  exact ⟨Environment.settingKey?_variableName .root, rfl⟩

end Program

end TemplateTrace
