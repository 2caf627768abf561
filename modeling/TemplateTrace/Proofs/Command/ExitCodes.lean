import TemplateTrace.Proofs.Command.FailedBuild
import TemplateTrace.Proofs.Extensions

/-!
How builds end. A build that does not break off ends with one of the exit codes from 0 to 4. It
breaks off where its environment or its log file cannot be had, and at a template whose path needs
the default extension if that has a slash.
-/

namespace TemplateTrace

theorem CommandError.exitCode_le (e : CommandError) : e.exitCode ≤ 4 := by
  rw [CommandError.exitCode]
  cases e.category <;> decide

theorem CommandLine.Problem.exitCode_le (p : CommandLine.Problem) : p.exitCode ≤ 4 := by
  rw [exitCode]
  split <;> decide

namespace Command

variable {t u : FileTree} {r : CommandLine.BuildRequest} {s : Settings} {c : Console}
  {content : String} {table : Table Location} {map : SourceMap}

theorem loaderAt_eq (t : FileTree) (s : Settings) :
    loaderAt t s = .configured t.currentPath? s.root s.extension := by
  rcases s with ⟨root, _ | extension⟩
  · rfl
  · rfl

/-- The first template that cannot be loaded is one whose path breaks. -/
def BreaksOff (t : FileTree) (r : CommandLine.BuildRequest) (s : Settings) : Prop :=
  ∃ content table, Inputs t r content table ∧ ∃ before path after,
    SourceMap.loadOrder (Text.bytes content) table = before ++ path :: after ∧
    (∀ p ∈ before, (runFrom ((loaderAt t (buildSettings r s)).load p :
      ExceptT Failure (StateM FileTree) Source) t).1.isOk) ∧
    DirectoryLoader.Breaks (buildSettings r s).extension path

theorem deliver_ne_abort (c : Console) (map : SourceMap) (out : Option String) (t : FileTree) :
    (runFrom (deliver c map out : CommandT (StateM FileTree) String) t).1 ≠ .error .abort := by
  rcases out with _ | out
  · nofun
  · rw [deliver]
    rcases hwrite : runFrom (Files.writeText out map.serialize :
        ExceptT FileError (StateM FileTree) Unit) t with ⟨e | _, v⟩
    · rw [runFrom_bind_error (runFrom_adapt_error hwrite _)]
      nofun
    · rw [runFrom_bind_ok (runFrom_adapt_eq_ok_iff.mpr hwrite)]
      nofun

theorem build_of_built (h : Built t r s content table map) (c : Console) :
    (runFrom (build r s c : CommandT (StateM FileTree) String) t).1 ≠ .error .abort := by
  rcases hkey : r.key with _ | key
  · rw [build_deliver h hkey]
    apply deliver_ne_abort
  · rcases hput : runFrom ((cache s).put key map.serialize : ExceptT Error (StateM FileTree) Unit) t with
      ⟨reason | _, v⟩
    · rw [build_key_refused h hkey hput]
      nofun
    · rw [build_key h hkey hput]
      nofun

theorem build_aborts_iff : (runFrom (build r s c : CommandT (StateM FileTree) String) t).1 = .error .abort ↔
    BreaksOff t r s := by
  by_cases hread : ∃ content table, Inputs t r content table
  · obtain ⟨content, table, hinputs⟩ := hread
    have hunique : BreaksOff t r s ↔ (runFrom (SourceMap.calculate (m := StateM FileTree)
        (loaderAt t (buildSettings r s)).load content table) t).1 = .error .abort := by
      rw [loaderAt_eq, DirectoryLoader.calculate_aborts_iff, ← loaderAt_eq]
      constructor
      · rintro ⟨content', table', hinputs', hbreaks⟩
        obtain ⟨rfl, rfl⟩ := hinputs.unique hinputs'
        exact hbreaks
      · exact fun hbreaks => ⟨content, table, hinputs, hbreaks⟩
    rw [hunique]
    obtain ⟨map, hmap⟩ | ⟨e, hmap⟩ :=
      (loaderAt t (buildSettings r s)).calculate_cases content table t
    · rw [hmap]
      apply iff_of_false
      · exact build_of_built ⟨hinputs.readContent, hinputs.readTable, hmap⟩ c
      · nofun
    · rw [hmap, build_unprepared (prepare_unloaded hinputs hmap)]
      cases e <;> simp [CommandFailure.ofFailure]
  · have hnone : ¬ BreaksOff t r s := fun ⟨content, table, hinputs, _⟩ => hread ⟨content, table, hinputs⟩
    simp only [not_exists] at hread
    obtain ⟨e, hfails⟩ := prepare_unread hread s
    rw [build_unprepared hfails]
    exact iff_of_false nofun hnone

end Command

namespace Program

variable {terminal : Terminal} {env : Environment} {words : List String} {t u : FileTree}
  {i : CommandLine.Invocation} {s : Settings} {r : CommandLine.BuildRequest} {ending : Outcome}

theorem exitCode_fail (terminal : Terminal) (i : CommandLine.Invocation) (e : CommandError) :
    (fail terminal i e).exitCode ≤ 4 := e.exitCode_le

theorem Idle.exitCode_le (h : Idle terminal ending) : ending.exitCode ≤ 4 := by
  cases h with
  | version => exact Nat.zero_le _
  | usage p => exact p.exitCode_le
  | settings i message => apply exitCode_fail

inductive Breaks (env : Environment) (words : List String) (t : FileTree) : Prop
  | environment (h : ((env.withFile : StateM FileTree (Option Environment)) t).1 = none)
  | log {i : CommandLine.Invocation} {s : Settings} (h : Understands env words t i s)
    (hlog : (runFrom (makeLog s) t).1 = .error .noFile)
  | template {i : CommandLine.Invocation} {s : Settings} {r : CommandLine.BuildRequest} {u : FileTree}
    (h : Understands env words t i s) (hr : i.request = .build r)
    (hlog : runFrom (makeLog s) t = (.ok (), u)) (hbreaks : Command.BreaksOff u r s)

theorem breaks_iff_of_understands (h : Understands env words t i s) (hr : i.request = .build r) :
    Breaks env words t ↔ (runFrom (makeLog s) t).1 = .error .noFile ∨
      ∃ u, runFrom (makeLog s) t = (.ok (), u) ∧ Command.BreaksOff u r s := by
  constructor
  · rintro (hnone | ⟨h', hlog⟩ | ⟨h', hr', hlog, hbreaks⟩)
    · obtain ⟨filled, hfilled, -⟩ := h
      rw [hnone] at hfilled
      cases hfilled
    · obtain ⟨-, rfl⟩ := h.unique h'
      exact .inl hlog
    · obtain ⟨rfl, rfl⟩ := h.unique h'
      cases hr.symm.trans hr'
      exact .inr ⟨_, hlog, hbreaks⟩
  · rintro (hlog | ⟨u, hlog, hbreaks⟩)
    · exact .log h hlog
    · exact .template h hr hlog hbreaks

theorem exitCode_of_understands (h : Understands env words t i s) (hr : i.request = .build r)
    (host : Host) :
    (¬ Breaks env words t → (runIn host env words t).1.exitCode ≤ 4) ∧
      (Breaks env words t → (runIn host env words t).1 = .aborted) := by
  obtain ⟨filled, heq⟩ := runIn_eq h host
  rw [breaks_iff_of_understands h hr, heq]
  rcases hlog : runFrom (makeLog s) t with ⟨fault | _, u⟩
  · cases fault <;> simp [LogFault.outcome, Outcome.exitCode]
  · have hperform : perform host filled s (console host.toTerminal i s) (.build r) =
        (Command.build r s (console host.toTerminal i s) : Command.CommandT (StateM FileTree) String) := rfl
    have haborts := @Command.build_aborts_iff u r s (console host.toTerminal i s)
    dsimp only
    rw [dispatch_eq, hr, hperform]
    rcases hbuild : runFrom (Command.build r s (console host.toTerminal i s) :
        Command.CommandT (StateM FileTree) String) u with ⟨(e | _) | out, v⟩
    · rw [hbuild] at haborts
      have hcode := exitCode_fail host.toTerminal i e
      simp [← haborts, outcome, hcode]
    · rw [hbuild] at haborts
      simp [← haborts, outcome]
    · rw [hbuild] at haborts
      simp [← haborts, outcome, Outcome.exitCode]

/-- A loader answers about every path that does not break, and a build that does not break off ends with
one of the documented exit codes. -/
theorem ends_unless_breaks (t : FileTree) (here? : Option String) (root : String)
    (extension : Option String) (path : String) (host : Host) (env : Environment) (words : List String) :
    (let l := DirectoryLoader.configured here? root extension
      let load := runFrom (l.load path : ExceptT Failure (StateM FileTree) Source) t
      let contains := runFrom (l.contains path : ExceptT Failure (StateM FileTree) Bool) t
      (¬ DirectoryLoader.Breaks extension path →
        ((∃ file, l.resolve path = .ok file) ∨
          ∃ reason, l.resolve path = .error (.error (.templateLoad path reason))) ∧
        ((∃ source, load = (.ok source, t)) ∨
          ∃ reason, load = (.error (.error (.templateLoad path reason)), t)) ∧
        ∃ found, contains = (.ok found, t)) ∧
      (DirectoryLoader.Breaks extension path →
        l.resolve path = .error .abort ∧ load = (.error .abort, t) ∧ contains = (.error .abort, t))) ∧
    ((∀ i s, Understands env words t i s → ∃ r, i.request = .build r) →
      (¬ Breaks env words t → (runIn host env words t).1.exitCode ≤ 4) ∧
        (Breaks env words t → (runIn host env words t).1 = .aborted)) := by
  constructor
  · constructor
    · intro h
      exact ⟨DirectoryLoader.resolve_of_not_breaks h here? root,
        DirectoryLoader.load_of_not_breaks h here? root t,
        DirectoryLoader.contains_of_not_breaks h here? root t⟩
    · intro h
      exact ⟨DirectoryLoader.resolve_of_breaks h, DirectoryLoader.load_of_breaks h here? root t,
        DirectoryLoader.contains_of_breaks h here? root t⟩
  · intro hwords
    by_cases hany : ∃ i s, Understands env words t i s
    · obtain ⟨i, s, hunderstood⟩ := hany
      obtain ⟨r, hr⟩ := hwords i s hunderstood
      exact exitCode_of_understands hunderstood hr host
    · have hnone : ∀ i s, ¬ Understands env words t i s := fun i s h => hany ⟨i, s, h⟩
      obtain ⟨ending, hrun, ⟨hempty, haborted⟩ | ⟨hfilled, hidle⟩⟩ := runOn_of_not_understands hnone .sound host
      · rw [← runOn_sound, hrun]
        exact ⟨fun h => absurd (.environment hempty) h, fun _ => haborted⟩
      · rw [← runOn_sound, hrun]
        refine ⟨fun _ => hidle.exitCode_le, ?_⟩
        rintro (hempty | ⟨h, -⟩ | ⟨h, -⟩)
        · exact absurd hempty hfilled
        · exact absurd h (hnone _ _)
        · exact absurd h (hnone _ _)

def slashedBuild : CommandLine.BuildRequest := { pageBuild with extension := some "a/b" }

def slashedWords : List String := buildWords ++ ["--ext", "a/b"]

theorem ends_unless_breaks_page :
    (DirectoryLoader.configured (some "/work") "templates" (some "a/b")).resolve "page" = .error .abort ∧
      (∃ found, runFrom ((DirectoryLoader.configured (some "/work") "templates" (some "a/b")).contains "page.html" :
        ExceptT Failure (StateM FileTree) Bool) (project 1) = (.ok found, project 1)) ∧
      (runIn {} [] slashedWords (project 1)).1 = .aborted ∧
      (runIn {} [] buildWords (project 1)).1.exitCode ≤ 4 := by
  have hslashed : Understands [] slashedWords (project 1) (asked (.build slashedBuild)) {} :=
    understands_asked rfl rfl rfl (by decide +kernel)
  have hplain : Understands [] buildWords (project 1) (asked (.build pageBuild)) {} := understands_build 1
  have hpage : DirectoryLoader.Breaks (some "a/b") "page" :=
    ⟨"a/b", rfl, by decide, [], "page", ⟨by decide, by decide, by decide⟩, by decide⟩
  have hdotted : ¬ DirectoryLoader.Breaks (some "a/b") "page.html" := by
    rintro ⟨text, -, -, before, last, hleads, hdot⟩
    have hwhole : DirectoryLoader.Leads "page.html" [] "page.html" := ⟨by decide, by decide, by decide⟩
    obtain ⟨-, rfl⟩ := hleads.unique hwhole
    exact hdot (by decide)
  obtain ⟨hload, hrun⟩ :=
    ends_unless_breaks (project 1) (some "/work") "templates" (some "a/b") "page" {} [] slashedWords
  obtain ⟨hload', hrun'⟩ :=
    ends_unless_breaks (project 1) (some "/work") "templates" (some "a/b") "page.html" {} [] buildWords
  refine ⟨(hload.2 hpage).1, (hload'.1 hdotted).2.2, ?_, ?_⟩
  · apply (hrun _).2
    · apply Breaks.template hslashed rfl rfl
      exact ⟨"one\n", deep 1, ⟨rfl, _, rfl, decodeTable_deep (by decide)⟩, [], "page", [],
        by decide +kernel, nofun, hpage⟩
    · intro i s h
      obtain ⟨rfl, rfl⟩ := hslashed.unique h
      exact ⟨slashedBuild, rfl⟩
  · apply (hrun' _).1
    · rw [breaks_iff_of_understands hplain rfl]
      rintro (hlog | ⟨u, -, content, table, -, before, path, after, -, -, text, htext, -⟩)
      · cases hlog
      · cases htext
    · intro i s h
      obtain ⟨rfl, rfl⟩ := hplain.unique h
      exact ⟨pageBuild, rfl⟩

/-- A slash in the extension breaks off a build of files that are all there. -/
theorem breaks_off_page :
    (DirectoryLoader.configured (some "/work") "templates" (some "a/b")).resolve "page" = .error .abort ∧
      (runIn {} [] slashedWords (project 1)).1.exitCode = 101 := by
  decide +kernel

end Program

end TemplateTrace
