import TemplateTrace.Proofs.Store.Calls
import TemplateTrace.Proofs.Store.Home
import TemplateTrace.Proofs.Store.Keys
import TemplateTrace.Store.Memory

/-!
A store in a new directory and a store in memory give the same answers. The tree and the memory are
kept in step: either the directory is not there and the memory is empty, or the files of the
directory are the entries of the memory.
-/

namespace TemplateTrace

namespace DirectoryStore

/-- The directory of the store is not there, and making it leaves it with nothing in it. -/
structure Creates (s : DirectoryStore) (t made : FileTree) (c : List String) : Prop where
  sound : t.Sound
  absent : t.find s.dir = .error .notFound
  creates : runFrom (Files.ensureDirs s.dir) t = (.ok (), made)
  home : s.At made c
  empty : ∀ name, made.look? (c ++ [name]) = none

/-- The key of the call, if it has one, is one whose files can be named. -/
def Takes (s : DirectoryStore) (c : StoreCall) : Bool := c.key?.all fun key => decide (s.Accepts key)

structure Live (s : DirectoryStore) (c : List String) (t : FileTree) (m : MemoryStore) : Prop where
  home : s.At t c
  sound : t.Sound
  nodup : (Assoc.keys m.entries).Nodup
  entry : ∀ key, t.look? (c ++ [entryName key]) =
    (Assoc.lookup key m.entries).map fun text => some (Text.bytes text)
  other : ∀ name, (∀ key, name ≠ entryName key) → t.look? (c ++ [name]) = none

variable {s : DirectoryStore} {c : List String} {t made u : FileTree} {m : MemoryStore}
  {key text : String}

theorem Live.staging (h : s.Live c t m) (key : String) : t.look? (c ++ [stagingName key]) = none :=
  h.other _ (stagingName_ne_entryName key)

theorem Live.entry_not_dir (h : s.Live c t m) (key : String) :
    t.look? (c ++ [entryName key]) ≠ some none := by
  rw [h.entry]
  cases Assoc.lookup key m.entries <;> nofun

theorem Live.get (h : s.Live c t m) (hkey : s.Accepts key) :
    runFrom (s.get key : ExceptT Error (StateM FileTree) (Option String)) t =
      (.ok (Assoc.lookup key m.entries), t) := by
  have hentry := h.entry key
  rcases hlookup : Assoc.lookup key m.entries with _ | text
  · rw [hlookup] at hentry
    exact h.home.get_missing hkey hentry
  · rw [hlookup] at hentry
    exact h.home.get_text hkey hentry

theorem concat_inj_iff {name other : String} : c ++ [name] = c ++ [other] ↔ name = other := by
  simp

theorem Live.put (h : s.Live c t m) (hkey : s.Accepts key) (text : String) :
    ∃ u, runFrom (s.put key text : ExceptT Error (StateM FileTree) Unit) t = (.ok (), u) ∧
      s.Live c u ⟨Assoc.insert key text m.entries⟩ := by
  have hstaging : t.look? (c ++ [stagingName key]) ≠ some none := by
    rw [h.staging]
    nofun
  obtain ⟨u, hrun, hcurrent, hlook⟩ := h.home.put_ok hkey text hstaging (h.entry_not_dir key)
  have hkept : FileTree.DirsKept t u := by
    refine ⟨hcurrent, fun r hr => ?_⟩
    have hentry : r ≠ c ++ [entryName key] := fun heq => h.entry_not_dir key (heq ▸ hr)
    have hstaging' : r ≠ c ++ [stagingName key] := fun heq => hstaging (heq ▸ hr)
    rw [hlook, if_neg hentry, if_neg hstaging', hr]
  have hsound : u.Sound := by
    have hput := s.preserves_put key text t h.sound
    rwa [hrun] at hput
  refine ⟨u, hrun, h.home.kept hkept, hsound, Assoc.nodup_keys_insert _ _ h.nodup, fun other => ?_,
    fun name hname => ?_⟩
  · rw [hlook, Assoc.lookup_insert]
    simp only [concat_inj_iff]
    by_cases hother : other = key
    · rw [hother, if_pos rfl, if_pos rfl]
      rfl
    · rw [if_neg fun heq => hother (entryName_injective heq),
        if_neg fun heq => stagingName_ne_entryName key other heq.symm, if_neg hother, h.entry]
  · rw [hlook]
    simp only [concat_inj_iff]
    rw [if_neg (hname key)]
    split
    · rfl
    · exact h.other name hname

theorem Live.remove (h : s.Live c t m) (hkey : s.Accepts key) :
    ∃ u, runFrom (s.remove key : ExceptT Error (StateM FileTree) Unit) t = (.ok (), u) ∧
      s.Live c u ⟨Assoc.erase key m.entries⟩ := by
  have hentry := h.entry key
  rcases hlookup : Assoc.lookup key m.entries with _ | text
  · rw [hlookup] at hentry
    refine ⟨t, h.home.remove_missing hkey hentry, h.home, h.sound, Assoc.nodup_keys_erase _ h.nodup,
      fun other => ?_, h.other⟩
    rw [h.entry, Assoc.lookup_erase]
    split
    · rename_i heq
      rw [heq, hlookup]
    · rfl
  · rw [hlookup] at hentry
    obtain ⟨u, hrun, hcurrent, hlook⟩ := h.home.remove_file hkey hentry
    have hkept := FileTree.dirsKept_of_look? (h.entry_not_dir key) hcurrent hlook
    have hsound : u.Sound := by
      have hremove := s.preserves_remove key t h.sound
      rwa [hrun] at hremove
    refine ⟨u, hrun, h.home.kept hkept, hsound, Assoc.nodup_keys_erase _ h.nodup, fun other => ?_,
      fun name hname => ?_⟩
    · rw [hlook, Assoc.lookup_erase, h.entry]
      simp only [concat_inj_iff]
      by_cases hother : other = key
      · rw [hother, if_pos rfl, if_pos rfl]
        rfl
      · rw [if_neg fun heq => hother (entryName_injective heq), if_neg hother]
    · rw [hlook]
      simp only [concat_inj_iff]
      rw [if_neg (hname key)]
      exact h.other name hname

theorem Live.files (h : s.Live c t m) :
    (t.filesIn c).Perm ((Assoc.keys m.entries).map entryName) := by
  have hnodup : ((Assoc.keys m.entries).map entryName).Nodup :=
    List.Pairwise.map entryName (fun _ _ hne heq => hne (entryName_injective heq)) h.nodup
  rw [List.perm_ext_iff_of_nodup (FileTree.nodup_filesIn h.sound c) hnodup]
  intro name
  rw [FileTree.mem_filesIn_iff h.sound, List.mem_map]
  constructor
  · rintro ⟨b, hb⟩
    by_cases hname : ∃ key, name = entryName key
    · obtain ⟨key, rfl⟩ := hname
      rw [h.entry] at hb
      rcases hlookup : Assoc.lookup key m.entries with _ | text
      · rw [hlookup] at hb
        cases hb
      · exact ⟨key, (Assoc.mem_keys_iff _ _).mpr (by rw [hlookup]; rfl), rfl⟩
    · rw [h.other name fun key heq => hname ⟨key, heq⟩] at hb
      cases hb
  · rintro ⟨key, hkey, rfl⟩
    obtain ⟨text, hlookup⟩ := Option.isSome_iff_exists.mp ((Assoc.mem_keys_iff _ _).mp hkey)
    refine ⟨Text.bytes text, ?_⟩
    rw [h.entry, hlookup]
    rfl

theorem Live.keys (h : s.Live c t m) :
    runFrom (s.keys : ExceptT Error (StateM FileTree) (List String)) t =
      (.ok (MapStore.sortKeys (Assoc.keys m.entries)), t) := by
  have hkeys : ((Assoc.keys m.entries).map entryName).filterMap keyOfName? = Assoc.keys m.entries := by
    rw [List.filterMap_map]
    have hsome : keyOfName? ∘ entryName = some := funext keyOfName?_entryName
    rw [hsome, List.filterMap_some]
  have hperm := h.files.filterMap keyOfName?
  rw [hkeys] at hperm
  rw [h.home.keys_eq, MapStore.sortKeys_eq_of_perm hperm]

theorem Creates.missing (h : s.Creates t made c) {name : String} (hname : Path.IsName name)
    (hsize : Text.size (Path.join s.dir name) ≤ FileTree.maxPath) :
    t.place (Path.join s.dir name) = .error .notFound ∧
      t.placeLast (Path.join s.dir name) = .error .notFound := by
  have hcheck := FileTree.checkPath_of_place h.home.place
  have habsent := h.absent
  rw [FileTree.place_join t hname hcheck hsize, FileTree.placeLast_join t hname hcheck hsize]
  rcases hplace : t.place s.dir with e | p
  · rw [FileTree.find, hplace] at habsent
    cases habsent
    exact ⟨rfl, rfl⟩
  · have hnone : t.look? p = none := by
      rw [FileTree.find_of_place hplace] at habsent
      rw [FileTree.look?_eq_none_iff]
      split at habsent
      · assumption
      · cases habsent
      · split at habsent <;> cases habsent
    rw [ok_bind, ok_bind, FileTree.step_none hnone]
    exact ⟨rfl, rfl⟩

theorem Creates.entry_missing (h : s.Creates t made c) (hkey : s.Accepts key) :
    t.place (s.entryPath key) = .error .notFound ∧
      t.placeLast (s.entryPath key) = .error .notFound :=
  h.missing (isName_entryName key) (Nat.le_trans (s.size_entryPath_le key) hkey.2)

theorem Creates.get (h : s.Creates t made c) (hkey : s.Accepts key) :
    runFrom (s.get key : ExceptT Error (StateM FileTree) (Option String)) t = (.ok none, t) := by
  apply get_of_notFound
  rw [FileTree.readBytes, FileTree.find, (h.entry_missing hkey).1]
  rfl

theorem Creates.remove (h : s.Creates t made c) (hkey : s.Accepts key) :
    runFrom (s.remove key : ExceptT Error (StateM FileTree) Unit) t = (.ok (), t) := by
  apply remove_of_notFound
  rw [FileTree.removeFile, (h.entry_missing hkey).2]
  rfl

theorem Creates.keys (h : s.Creates t made c) :
    runFrom (s.keys : ExceptT Error (StateM FileTree) (List String)) t = (.ok [], t) := by
  apply keys_of_missing
  rw [FileTree.isDir, h.absent]

theorem Creates.put_eq (h : s.Creates t made c) (key text : String) :
    runFrom (s.put key text : ExceptT Error (StateM FileTree) Unit) t =
      runFrom (s.put key text : ExceptT Error (StateM FileTree) Unit) made := by
  rw [DirectoryStore.put, runFrom_onFiles, runFrom_onFiles, runFrom_bind_ok h.creates,
    runFrom_bind_ok (FileTree.ensureDirs_of_isDir h.home.isDir)]

theorem Creates.live (h : s.Creates t made c) : s.Live c made {} := by
  have hsound : made.Sound := by
    have hmade := FileTree.Sound.preserves_ensureDirs s.dir t h.sound
    rwa [h.creates] at hmade
  exact ⟨h.home, hsound, List.nodup_nil, fun key => h.empty _, fun name _ => h.empty name⟩

inductive Related (s : DirectoryStore) (c : List String) (start : FileTree) : FileTree → MemoryStore → Prop
  | absent : Related s c start start {}
  | live {t : FileTree} {m : MemoryStore} (h : s.Live c t m) : Related s c start t m

theorem Creates.put (h : s.Creates t made c) (hrel : Related s c t u m) (hkey : s.Accepts key)
    (text : String) :
    ∃ v, runFrom (s.put key text : ExceptT Error (StateM FileTree) Unit) u = (.ok (), v) ∧
      Related s c t v ⟨Assoc.insert key text m.entries⟩ := by
  cases hrel with
  | absent =>
    rw [h.put_eq]
    obtain ⟨v, hrun, hlive⟩ := h.live.put hkey text
    exact ⟨v, hrun, .live hlive⟩
  | live hlive =>
    obtain ⟨v, hrun, hlive⟩ := hlive.put hkey text
    exact ⟨v, hrun, .live hlive⟩

theorem Creates.put_refused (h : s.Creates t made c) (hrel : Related s c t u m)
    (hkey : ¬ s.Accepts key) (text : String) :
    ∃ v reason, runFrom (s.put key text : ExceptT Error (StateM FileTree) Unit) u =
      (.error (.store key reason), v) ∧ Related s c t v m := by
  cases hrel with
  | absent =>
    rw [h.put_eq]
    obtain ⟨reason, hrun⟩ := h.home.put_error hkey text
    exact ⟨made, reason, hrun, .live h.live⟩
  | live hlive =>
    obtain ⟨reason, hrun⟩ := hlive.home.put_error hkey text
    exact ⟨u, reason, hrun, .live hlive⟩

theorem Creates.step (h : s.Creates t made c) (hrel : Related s c t u m) {call : StoreCall}
    (hcall : s.Takes call) :
    (runFrom (call.run s.store) u).1 = (runFrom (call.run MemoryStore.store) m).1 ∧
      Related s c t (runFrom (call.run s.store) u).2 (runFrom (call.run MemoryStore.store) m).2 := by
  have haccepts : ∀ key, call.key? = some key → s.Accepts key := by
    intro key hkey
    rw [Takes, hkey] at hcall
    exact of_decide_eq_true hcall
  cases call with
  | put key text =>
    obtain ⟨v, hrun, hnext⟩ := h.put hrel (haccepts key rfl) text
    have hput : runFrom ((StoreCall.put key text).run s.store) u = (.ok (), v) := hrun
    rw [hput]
    exact ⟨rfl, hnext⟩
  | get key =>
    have hget : runFrom ((StoreCall.get key).run s.store) u = (.ok (Assoc.lookup key m.entries), u) := by
      cases hrel with
      | absent => exact h.get (haccepts key rfl)
      | live hlive => exact hlive.get (haccepts key rfl)
    rw [hget]
    exact ⟨rfl, hrel⟩
  | remove key =>
    cases hrel with
    | absent =>
      have hremove : runFrom ((StoreCall.remove key).run s.store) t = (.ok (), t) :=
        h.remove (haccepts key rfl)
      rw [hremove]
      exact ⟨rfl, .absent⟩
    | live hlive =>
      obtain ⟨v, hrun, hnext⟩ := hlive.remove (haccepts key rfl)
      have hremove : runFrom ((StoreCall.remove key).run s.store) u = (.ok (), v) := hrun
      rw [hremove]
      exact ⟨rfl, .live hnext⟩
  | keys =>
    have hkeys : runFrom (StoreCall.keys.run s.store) u =
        (.ok (MapStore.sortKeys (Assoc.keys m.entries)), u) := by
      cases hrel with
      | absent =>
        have hnone : MapStore.sortKeys [] = [] := List.perm_nil.mp (MapStore.perm_sortKeys [])
        exact h.keys.trans (by rw [← hnone]; rfl)
      | live hlive => exact hlive.keys
    rw [hkeys]
    exact ⟨rfl, hrel⟩

theorem Creates.run (h : s.Creates t made c) (hrel : Related s c t u m) {calls : List StoreCall}
    (hcalls : ∀ call ∈ calls, s.Takes call ∨ ∃ key text, call = .put key text) :
    (s.store.events calls u).filter (s.Takes ·.call) =
        MemoryStore.store.events (calls.filter (s.Takes ·)) m ∧
      ∀ e ∈ s.store.events calls u, s.Takes e.call = false →
        ∃ key text reason, e = ⟨.put key text, .error (.store key reason)⟩ := by
  induction calls generalizing u m with
  | nil => exact ⟨rfl, nofun⟩
  | cons call rest ih =>
    have hrest : ∀ call ∈ rest, s.Takes call ∨ ∃ key text, call = .put key text :=
      fun call hcall => hcalls call (List.mem_cons_of_mem _ hcall)
    rw [MapStore.events]
    rcases htakes : s.Takes call with _ | _
    -- A refused put may still make the directory, so tree and memory are related anew.
    · obtain ⟨key, text, rfl⟩ : ∃ key text, call = .put key text := by
        simpa [htakes] using hcalls call List.mem_cons_self
      have hkey : ¬ s.Accepts key := by simpa [Takes, StoreCall.key?] using htakes
      obtain ⟨v, reason, hrun, hnext⟩ := h.put_refused hrel hkey text
      have hput : runFrom ((StoreCall.put key text).run s.store) u =
        (.error (.store key reason), v) := hrun
      obtain ⟨hsame, hrefused⟩ := ih hnext hrest
      rw [hput, List.filter_cons_of_neg (by simp [htakes]), List.filter_cons_of_neg (by simp [htakes])]
      refine ⟨hsame, ?_⟩
      rintro e he hnot
      rcases List.mem_cons.mp he with rfl | he
      · exact ⟨key, text, reason, rfl⟩
      · exact hrefused e he hnot
    · obtain ⟨hanswer, hnext⟩ := h.step hrel htakes
      obtain ⟨hsame, hrefused⟩ := ih hnext hrest
      rw [List.filter_cons_of_pos (p := fun e : StoreEvent => s.Takes e.call) htakes,
        List.filter_cons_of_pos htakes, MapStore.events, hanswer, hsame]
      refine ⟨rfl, ?_⟩
      rintro e he hnot
      rcases List.mem_cons.mp he with rfl | he
      · rw [htakes] at hnot
        cases hnot
      · exact hrefused e he hnot

/-- A store in a directory that is made new and empty answers as one in memory. Calls with keys whose
files can be named have the same answers, one by one; a text that is put under another key is refused
and changes no other answer. -/
theorem events_agree {s : DirectoryStore} {t made : FileTree} {c : List String}
    (h : s.Creates t made c) {calls : List StoreCall}
    (hcalls : ∀ call ∈ calls, s.Takes call ∨ ∃ key text, call = .put key text) :
    (s.store.events calls t).filter (s.Takes ·.call) =
        MemoryStore.store.events (calls.filter (s.Takes ·)) {} ∧
      ∀ e ∈ s.store.events calls t, s.Takes e.call = false →
        ∃ key text reason, e = ⟨.put key text, .error (.store key reason)⟩ :=
  h.run .absent hcalls

def work : FileTree := .ofDir ["work"] 0

def workWith (name : String) : FileTree :=
  ⟨[(["work"], .dir 1), (["work", name], .dir 1)], ["work"], 2, none⟩

theorem look?_workWith (name other : String) :
    (workWith name).look? (["work", name] ++ [other]) = none := by
  simp [FileTree.look?, FileTree.node?, workWith, Assoc.lookup]

def cache : DirectoryStore := ⟨"cache"⟩

theorem creates_cache : Creates cache work (workWith "cache") ["work", "cache"] where
  sound := by decide
  absent := by decide +kernel
  creates := by rfl
  home := ⟨by decide +kernel, by decide +kernel⟩
  empty := look?_workWith "cache"

def longKey : String := String.ofList (List.replicate 122 'k')

theorem events_agree_in_cache :
    Creates cache work (workWith "cache") ["work", "cache"] ∧
      (cache.store.events [.put longKey "text", .put "page" "text", .get "page"] work).filter
          (cache.Takes ·.call) =
        [⟨.put "page" "text", .ok ()⟩, ⟨.get "page", .ok (some "text")⟩] := by
  have hlong : cache.Takes (.put longKey "text") = false := by decide +kernel
  have hpage : cache.Takes (.put "page" "text") = true := by decide +kernel
  have hget : cache.Takes (.get "page") = true := by decide +kernel
  have hcalls : ∀ call ∈ [.put longKey "text", .put "page" "text", .get "page"], cache.Takes call ∨
      ∃ key text, call = .put key text := by
    simp only [List.mem_cons, List.not_mem_nil, or_false]
    rintro call (rfl | rfl | rfl)
    · exact .inr ⟨longKey, "text", rfl⟩
    · exact .inl hpage
    · exact .inl hget
  refine ⟨creates_cache, (events_agree creates_cache hcalls).1.trans ?_⟩
  rw [List.filter_cons_of_neg (by simp [hlong]), List.filter_cons_of_pos hpage,
    List.filter_cons_of_pos hget, List.filter_nil]
  rfl

def long : DirectoryStore := ⟨FileTree.trailing "a" 4090⟩

theorem creates_long : Creates long work (workWith "a") ["work", "a"] := by
  have hplace : ∀ t : FileTree, t.place long.dir = t.place "a" :=
    fun t => t.place_trailing (by decide +kernel) (by decide)
  refine ⟨by decide, ?_, ?_, ⟨?_, by decide +kernel⟩, look?_workWith "a"⟩
  · have hwork : work.place long.dir = .ok ["work", "a"] := (hplace work).trans (by decide +kernel)
    rw [FileTree.find_of_place hwork]
    rfl
  · have hmake : work.makeDir long.dir = .ok (workWith "a") := by
      rw [FileTree.makeDir, long, work.placeLast_trailing (by decide +kernel) (by decide)]
      rfl
    refine FileTree.ensureDirs_of_makeDir ?_ hmake
    rw [long, FileTree.parent?_trailing (by decide)]
    decide +kernel
  · exact (hplace _).trans (by decide +kernel)

def twisted : DirectoryStore := ⟨"c/61.map.json/.."⟩

/-- With a key that is short enough: a new, empty directory whose path is too long for the files in
it, and one that is made with something in it. -/
theorem events_disagree :
    (Creates long work (workWith "a") ["work", "a"] ∧ Text.size "page" ≤ 121 ∧
      long.store.events [.put "page" "text"] work ≠
        MemoryStore.store.events [.put "page" "text"] {}) ∧
    (work.find twisted.dir = .error .notFound ∧
      (runFrom (Files.ensureDirs twisted.dir) work).1 = .ok () ∧ twisted.Accepts "a" ∧
      twisted.store.events [.put "a" "text"] work ≠ MemoryStore.store.events [.put "a" "text"] {}) := by
  have hput : ∀ (s : DirectoryStore) (key text : String),
      (runFrom (s.put key text : ExceptT Error (StateM FileTree) Unit) work).1.isOk = false →
      s.store.events [.put key text] work ≠ MemoryStore.store.events [.put key text] {} := by
    intro s key text hfailed heq
    have hanswers := congrArg (List.map fun e => e.answer.isOk) heq
    exact Bool.false_ne_true (hfailed.symm.trans (List.cons.inj hanswers).1)
  refine ⟨⟨creates_long, by decide, hput _ _ _ ?_⟩, by decide +kernel, by decide +kernel,
    by decide +kernel, hput _ _ _ (by decide +kernel)⟩
  have hkey : ¬ long.Accepts "page" := by
    rintro ⟨-, hsize⟩
    have hlong : Text.size long.dir = 4091 := FileTree.size_trailing "a" 4090
    have hpath := le_size_stagingPath long "page"
    rw [size_stagingName, hlong] at hpath
    rw [FileTree.maxPath] at hsize
    omega
  obtain ⟨reason, hrun⟩ := creates_long.home.put_error hkey "text"
  rw [creates_long.put_eq, hrun]
  rfl

end DirectoryStore

end TemplateTrace
