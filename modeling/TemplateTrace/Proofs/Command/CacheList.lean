import TemplateTrace.Proofs.Command.BuildThenStack
import TemplateTrace.Proofs.Store.Listing

namespace TemplateTrace

namespace DirectoryStore

variable {s : DirectoryStore} {key text : String} {t : FileTree}

/-- The bytes of the key's entry are a text. -/
def Readable (s : DirectoryStore) (t : FileTree) (key : String) : Prop :=
  ∃ text, t.readBytes (s.entryPath key) = .ok (Text.bytes text)

theorem isFresh_of_text (h : t.readBytes (s.entryPath key) = .ok (Text.bytes text)) :
    ∃ time, runFrom (s.isFresh key : ExceptT Error (StateM FileTree) Bool) t =
      (.ok (verdict t time text), t) := by
  obtain ⟨content, hread, htext, -⟩ := operations_of_isFile (FileTree.isFile_iff.mpr ⟨_, h⟩)
  obtain ⟨-, time, -, hrun⟩ := htext text (Except.ok.inj (hread.symm.trans h))
  exact ⟨time, hrun⟩

theorem isFresh_of_undecodable {e : MapError} (h : t.readBytes (s.entryPath key) = .ok (Text.bytes text))
    (hdecode : SourceMap.deserialize (Text.bytes text) = .error e) :
    runFrom (s.isFresh key : ExceptT Error (StateM FileTree) Bool) t = (.ok false, t) := by
  obtain ⟨time, hrun⟩ := isFresh_of_text h
  rwa [verdict, hdecode] at hrun

theorem isFresh_of_not_readable (hfile : t.isFile (s.entryPath key) = true) (h : ¬ s.Readable t key) :
    runFrom (s.isFresh key : ExceptT Error (StateM FileTree) Bool) t =
      (.error (s.failure key .notText), t) := by
  obtain ⟨b, hread⟩ := FileTree.isFile_iff.mp hfile
  obtain ⟨node, hfind, -⟩ := ok_of_bind hread
  have htime : t.modified? (s.entryPath key) = some node.modified := by
    rw [FileTree.modified?, hfind]
  have hbytes : Text.ofBytes? b = none := by
    rw [Text.ofBytes?_eq_none_iff]
    rintro ⟨text, rfl⟩
    exact h ⟨text, hread⟩
  have hanswer : s.answer key (t.readBytes (s.entryPath key)) = .error (s.failure key .notText) := by
    rw [hread, answer, hbytes]
  rw [runFrom_isFresh, htime, hanswer]
  rfl

theorem Readable.isFresh (h : s.Readable t key) : ∃ fresh,
    runFrom (s.isFresh key : ExceptT Error (StateM FileTree) Bool) t = (.ok fresh, t) := by
  obtain ⟨text, hread⟩ := h
  obtain ⟨time, hrun⟩ := isFresh_of_text hread
  exact ⟨_, hrun⟩

theorem isFresh_eq_ok_iff (hfile : t.isFile (s.entryPath key) = true) :
    (∃ fresh, runFrom (s.isFresh key : ExceptT Error (StateM FileTree) Bool) t = (.ok fresh, t)) ↔
      s.Readable t key := by
  refine ⟨?_, Readable.isFresh⟩
  rintro ⟨fresh, hrun⟩
  by_contra hreadable
  rw [isFresh_of_not_readable hfile hreadable] at hrun
  cases hrun

end DirectoryStore

namespace Command

variable {s : Settings} {c : Console} {key : String} {keys : List String} {t : FileTree} {e : Error}

theorem cacheEntry_of_isFresh {fresh : Bool}
    (h : runFrom ((cache s).isFresh key : ExceptT Error (StateM FileTree) Bool) t = (.ok fresh, t)) :
    runFrom (cacheEntry s key : CommandT (StateM FileTree) CacheEntry) t = (.ok ⟨key, fresh⟩, t) := by
  have hstored : runFrom (stored ((cache s).isFresh key) : CommandT (StateM FileTree) Bool) t =
      (.ok fresh, t) := runFrom_adapt_eq_ok_iff.mpr h
  rw [cacheEntry, runFrom_bind_ok hstored]
  rfl

theorem cacheEntry_of_failure
    (h : runFrom ((cache s).isFresh key : ExceptT Error (StateM FileTree) Bool) t = (.error e, t)) :
    runFrom (cacheEntry s key : CommandT (StateM FileTree) CacheEntry) t =
      (.error (.error (.core e)), t) := by
  have hstored : runFrom (stored ((cache s).isFresh key) : CommandT (StateM FileTree) Bool) t =
      (.error (.error (.core e)), t) := runFrom_adapt_error h _
  exact runFrom_bind_error hstored

theorem cacheEntries_of_isFresh (h : ∀ key ∈ keys, ∃ fresh,
      runFrom ((cache s).isFresh key : ExceptT Error (StateM FileTree) Bool) t = (.ok fresh, t)) :
    ∃ entries, runFrom (keys.mapM (cacheEntry s) : CommandT (StateM FileTree) (List CacheEntry)) t =
        (.ok entries, t) ∧
      entries.map CacheEntry.key = keys ∧
      ∀ e ∈ entries, runFrom ((cache s).isFresh e.key : ExceptT Error (StateM FileTree) Bool) t =
        (.ok e.isFresh, t) := by
  induction keys with
  | nil => exact ⟨[], rfl, rfl, nofun⟩
  | cons key rest ih =>
    obtain ⟨⟨fresh, hfresh⟩, hrest⟩ := List.forall_mem_cons.mp h
    obtain ⟨entries, hrun, hkeys, hentries⟩ := ih hrest
    refine ⟨⟨key, fresh⟩ :: entries, ?_, congrArg (key :: ·) hkeys, List.forall_mem_cons.mpr ⟨hfresh, hentries⟩⟩
    rw [List.mapM_cons, runFrom_bind_ok (cacheEntry_of_isFresh hfresh), runFrom_bind_ok hrun]
    rfl

theorem cacheEntries_of_not_readable (hfiles : ∀ key ∈ keys, t.isFile ((cache s).entryPath key) = true)
    (h : ∃ key ∈ keys, ¬ (cache s).Readable t key) :
    ∃ key ∈ keys, runFrom (keys.mapM (cacheEntry s) : CommandT (StateM FileTree) (List CacheEntry)) t =
      (.error (.error (.core ((cache s).failure key .notText))), t) := by
  induction keys with
  | nil => simp at h
  | cons key rest ih =>
    obtain ⟨hfile, hrest⟩ := List.forall_mem_cons.mp hfiles
    rw [List.mapM_cons]
    by_cases hkey : (cache s).Readable t key
    · obtain ⟨fresh, hfresh⟩ := hkey.isFresh
      have hlater : ∃ other ∈ rest, ¬ (cache s).Readable t other := by simpa [hkey] using h
      obtain ⟨other, hother, hrun⟩ := ih hrest hlater
      refine ⟨other, List.mem_cons_of_mem key hother, ?_⟩
      rw [runFrom_bind_ok (cacheEntry_of_isFresh hfresh)]
      exact runFrom_bind_error hrun
    · have hfails := DirectoryStore.isFresh_of_not_readable hfile hkey
      exact ⟨key, List.mem_cons_self, runFrom_bind_error (cacheEntry_of_failure hfails)⟩

theorem cacheList_eq
    (h : runFrom ((cache s).keys : ExceptT Error (StateM FileTree) (List String)) t = (.ok keys, t)) :
    runFrom (cacheList s c : CommandT (StateM FileTree) String) t =
      runFrom (do return c.entries (← keys.mapM (cacheEntry s)) : CommandT (StateM FileTree) String) t := by
  have hservice : runFrom (liftM (service s : StateM FileTree (TraceService (StateM FileTree))) :
      CommandT (StateM FileTree) (TraceService (StateM FileTree))) t = (.ok (serviceAt t s), t) := rfl
  have hkeys : runFrom (traced (serviceAt t s).keys : CommandT (StateM FileTree) (List String)) t =
      (.ok keys, t) := runFrom_adapt_eq_ok_iff.mpr (runFrom_adapt_eq_ok_iff.mpr h)
  rw [cacheList, runFrom_bind_ok hservice, runFrom_bind_ok hkeys]

end Command

namespace Program

open Command (cache)

variable {env : Environment} {words : List String} {host : Host} {t u : FileTree}
  {i : CommandLine.Invocation} {s : Settings} {key : String} {keys : List String}

theorem cacheList_of_readable (h : Understands env words t i s) (hi : i.request = .cacheList)
    (hlog : runFrom (makeLog s) t = (.ok (), u)) (hlayout : (console host.toTerminal i s).layout = .plain)
    (hkeys : runFrom ((cache s).keys : ExceptT Error (StateM FileTree) (List String)) u = (.ok keys, u))
    (hreadable : ∀ key ∈ keys, (cache s).Readable u key) :
    ∃ entries : List CacheEntry, entries.map CacheEntry.key = keys ∧
      (∀ e ∈ entries, runFrom ((cache s).isFresh e.key : ExceptT Error (StateM FileTree) Bool) u =
        (.ok e.isFresh, u)) ∧
      runIn host env words t = (.finished 0 (String.join (entries.map CacheEntry.plain)) "", logged host s u) := by
  obtain ⟨entries, hrun, hmap, hentries⟩ :=
    Command.cacheEntries_of_isFresh fun key hkey => (hreadable key hkey).isFresh
  refine ⟨entries, hmap, hentries, finished_of_perform h hi hlog fun _ => ?_⟩
  have hprinted : (console host.toTerminal i s).entries entries = String.join (entries.map CacheEntry.plain) := by
    rw [Console.entries, hlayout]
  rw [perform, Command.cacheList_eq hkeys, runFrom_bind_ok hrun, hprinted]
  rfl

theorem cacheList_of_not_readable (h : Understands env words t i s) (hi : i.request = .cacheList)
    (hlog : runFrom (makeLog s) t = (.ok (), u))
    (hkeys : runFrom ((cache s).keys : ExceptT Error (StateM FileTree) (List String)) u = (.ok keys, u))
    (hfiles : ∀ key ∈ keys, u.isFile ((cache s).entryPath key) = true)
    (hunread : ∃ key ∈ keys, ¬ (cache s).Readable u key) (host : Host) :
    ∃ key ∈ keys,
      runIn host env words t =
        (fail host.toTerminal i (.core ((cache s).failure key .notText)), logged host s u) := by
  obtain ⟨filled, hrun⟩ := runIn_of_log h hlog host
  obtain ⟨key, hkey, hentries⟩ := Command.cacheEntries_of_not_readable hfiles hunread
  have hlist : runFrom (perform host filled s (console host.toTerminal i s) .cacheList) u =
      (.error (.error (.core ((cache s).failure key .notText))), u) := by
    rw [perform, Command.cacheList_eq hkeys]
    exact runFrom_bind_error hentries
  refine ⟨key, hkey, ?_⟩
  rw [hrun, hi, hlist]
  rfl

/-- Where every listed entry is a file, the check of an entry has an answer just where its bytes are a
text, and the list is printed just where this is so for all of them: one line for each key, in order,
which says what the check says. -/
theorem cacheList_of_files (h : Understands env words t i s) (hi : i.request = .cacheList)
    (hlog : runFrom (makeLog s) t = (.ok (), u)) (hlayout : (console host.toTerminal i s).layout = .plain)
    (hkeys : runFrom ((cache s).keys : ExceptT Error (StateM FileTree) (List String)) u = (.ok keys, u))
    (hfiles : ∀ key ∈ keys, u.isFile ((cache s).entryPath key) = true) :
    let check key := runFrom ((cache s).isFresh key : ExceptT Error (StateM FileTree) Bool) u
    (∀ key ∈ keys, ((∃ fresh, check key = (.ok fresh, u)) ↔ (cache s).Readable u key) ∧
        ∀ text e, u.readBytes ((cache s).entryPath key) = .ok (Text.bytes text) →
          SourceMap.deserialize (Text.bytes text) = .error e → check key = (.ok false, u)) ∧
      ((∀ key ∈ keys, (cache s).Readable u key) → ∃ entries : List CacheEntry,
        entries.map CacheEntry.key = keys ∧ (∀ e ∈ entries, check e.key = (.ok e.isFresh, u)) ∧
        runIn host env words t = (.finished 0 (String.join (entries.map fun e =>
          e.key ++ "\t" ++ (if e.isFresh then "fresh" else "stale") ++ "\n")) "",
            logged host s u)) ∧
      ((∃ key ∈ keys, ¬ (cache s).Readable u key) → ∃ report,
        runIn host env words t = (.finished 1 "" report, logged host s u)) := by
  intro check
  refine ⟨fun key hkey => ⟨DirectoryStore.isFresh_eq_ok_iff (hfiles key hkey),
    fun text e => DirectoryStore.isFresh_of_undecodable⟩,
    cacheList_of_readable h hi hlog hlayout hkeys, fun hunread => ?_⟩
  obtain ⟨key, -, hrun⟩ := cacheList_of_not_readable h hi hlog hkeys hfiles hunread host
  exact ⟨_, hrun⟩

def shelved (a b : Bytes) : FileTree where
  nodes :=
    [(["work"], .dir 0), (["work", ".env"], .file [] 0), (["work", "tplmap.toml"], .file [] 0),
      (["work", "page"], .file (Text.bytes "one\n") 0), (["work", ".tplmap-cache"], .dir 0),
      (["work", ".tplmap-cache", "61.map.json"], .file a 0),
      (["work", ".tplmap-cache", "62.map.json"], .file b 0)]
  currentDir := ["work"]
  now := 1

def listWords : List String := ["--config", "tplmap.toml", "cache", "list"]

theorem understands_list (a b : Bytes) :
    Understands [] listWords (shelved a b) (asked .cacheList) {} :=
  understands_asked rfl rfl rfl (by decide +kernel)

theorem keys_shelved (a b : Bytes) :
    runFrom ((cache {}).keys : ExceptT Error (StateM FileTree) (List String)) (shelved a b) =
        (.ok ["a", "b"], shelved a b) ∧
      ∀ key ∈ ["a", "b"], (shelved a b).isFile ((cache {}).entryPath key) = true := by
  have hat : (cache {}).At (shelved a b) ["work", ".tplmap-cache"] := ⟨rfl, rfl⟩
  have hnames : ((cache {}).files (shelved a b)).filterMap DirectoryStore.keyOfName? = ["a", "b"] := by
    have hfiles : (cache {}).files (shelved a b) = ["61.map.json", "62.map.json"] := hat.files_eq
    rw [hfiles]
    decide +kernel
  have hsorted : MapStore.sortKeys ["a", "b"] = ["a", "b"] := List.mergeSort_of_pairwise (by decide +kernel)
  constructor
  · rw [DirectoryStore.runFrom_keys, hnames, hsorted]
  · intro key hkey
    simp only [List.mem_cons, List.not_mem_nil, or_false] at hkey
    rcases hkey with rfl | rfl <;> rfl

def mixed : FileTree :=
  let map : SourceMap := ⟨["/work/page"], ⟨[(2, ⟨⟨0, 1⟩, []⟩)], List.pairwise_singleton _ _⟩⟩
  shelved (Text.bytes map.serialize) (Text.bytes "[")

theorem cacheList_mixed :
    runIn {} [] listWords mixed = (.finished 0 "a\tfresh\nb\tstale\n" "", mixed) := by
  obtain ⟨hkeys, hfiles⟩ : runFrom ((cache {}).keys : ExceptT Error (StateM FileTree) (List String)) mixed =
      (.ok ["a", "b"], mixed) ∧ _ := keys_shelved _ _
  have hunderstood : Understands [] listWords mixed (asked .cacheList) {} := understands_list _ _
  have hreadable : ∀ key ∈ ["a", "b"], (cache {}).Readable mixed key := by
    intro key hkey
    simp only [List.mem_cons, List.not_mem_nil, or_false] at hkey
    rcases hkey with rfl | rfl <;> exact ⟨_, rfl⟩
  have hfresh : (runFrom ((cache {}).isFresh "a" : ExceptT Error (StateM FileTree) Bool) mixed).1 =
      .ok true := by decide +kernel
  have hstale : (runFrom ((cache {}).isFresh "b" : ExceptT Error (StateM FileTree) Bool) mixed).1 =
      .ok false := by decide +kernel
  have hplain : (console (Host.toTerminal {}) (asked .cacheList) {}).layout = .plain := rfl
  obtain ⟨-, hlist, -⟩ := cacheList_of_files hunderstood rfl rfl hplain hkeys hfiles
  obtain ⟨entries, hmap, hentries, hrun⟩ := hlist hreadable
  obtain ⟨⟨_, first⟩, others, rfl, rfl, hmap'⟩ := List.map_eq_cons_iff.mp hmap
  obtain ⟨⟨_, second⟩, none, rfl, rfl, hnone⟩ := List.map_eq_cons_iff.mp hmap'
  cases List.map_eq_nil_iff.mp hnone
  obtain ⟨hfirst, hsecond⟩ := List.forall_mem_cons.mp hentries
  cases (congrArg Prod.fst hfirst).symm.trans hfresh
  cases (congrArg Prod.fst (hsecond _ List.mem_cons_self)).symm.trans hstale
  exact hrun

/-- A byte that begins no character hides the other entry. -/
theorem cacheList_hidden :
    let t := shelved [0xff] (Text.bytes "[")
    Understands [] listWords t (asked .cacheList) {} ∧
      (console {} (asked .cacheList) {}).layout = .plain ∧
      runFrom ((cache {}).keys : ExceptT Error (StateM FileTree) (List String)) t = (.ok ["a", "b"], t) ∧
      (∀ key ∈ ["a", "b"], t.isFile ((cache {}).entryPath key) = true) ∧
      runFrom ((cache {}).isFresh "a" : ExceptT Error (StateM FileTree) Bool) t =
        (.error (.store "a" "stream did not contain valid UTF-8 (.tplmap-cache)"), t) ∧
      runFrom ((cache {}).isFresh "b" : ExceptT Error (StateM FileTree) Bool) t = (.ok false, t) ∧
      ∃ report, runIn {} [] listWords t = (.finished 1 "" report, t) := by
  intro t
  obtain ⟨hkeys, hfiles⟩ := keys_shelved [0xff] (Text.bytes "[")
  have hunread : ¬ (cache {}).Readable t "a" := by
    rintro ⟨text, hread⟩
    have hbytes : t.readBytes ((cache {}).entryPath "a") = .ok [0xff] := rfl
    have hnone : Text.ofBytes? [0xff] = none := by decide +kernel
    exact Text.ofBytes?_eq_none_iff.mp hnone ⟨text, Except.ok.inj (hbytes.symm.trans hread)⟩
  have hbracket : SourceMap.deserialize (Text.bytes "[") =
      .error (.malformed "EOF while parsing a list at line 1 column 1") := by decide +kernel
  have hcheck := DirectoryStore.isFresh_of_not_readable (hfiles "a" (by decide)) hunread
  obtain ⟨key, -, hrun⟩ := cacheList_of_not_readable (understands_list _ _) rfl rfl hkeys hfiles
    ⟨"a", by decide, hunread⟩ {}
  exact ⟨understands_list _ _, rfl, hkeys, hfiles, hcheck,
    DirectoryStore.isFresh_of_undecodable rfl hbracket, _, hrun⟩

end Program

end TemplateTrace
