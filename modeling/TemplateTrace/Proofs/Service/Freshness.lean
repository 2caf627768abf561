import TemplateTrace.Proofs.FileTable
import TemplateTrace.Proofs.Files.Edits
import TemplateTrace.Proofs.Service.Calls
import TemplateTrace.Proofs.Store.Fresh
import TemplateTrace.Proofs.Store.Isolation
import TemplateTrace.Proofs.Templates

/-!
Histories of a service whose templates and maps are files. Anything outside the cache directory may
be edited between any two calls. Main statement: `calculate_of_fresh`, that a fresh entry holds the
map that the present templates lead to.
-/

namespace TemplateTrace

open Json (maxCount)
open SourceMap (TableFits)

structure DirectoryService where
  templates : DirectoryLoader
  maps : DirectoryStore

structure Recording where
  content : String
  table : Table Location
  map : SourceMap

namespace DirectoryService

def service (d : DirectoryService) : TraceService (StateM FileTree) := ⟨d.templates.loader, d.maps.store⟩

inductive Action
  | call (c : ServiceCall)
  | edit (e : Edit)
  | wait (ticks : Nat)

structure Event where
  action : Action
  answer : Except Failure ServiceAnswer

def Action.run (d : DirectoryService) (t : FileTree) : Action → Except Failure ServiceAnswer × FileTree
  | call c => runFrom (c.run d.service) t
  | edit e => (.ok .done, e.run t)
  | wait ticks => (.ok .done, { t with now := t.now + ticks })

def after (d : DirectoryService) : List Action → FileTree → FileTree
  | [], t => t
  | a :: rest, t => d.after rest (a.run d t).2

def events (d : DirectoryService) : List Action → FileTree → List Event
  | [], _ => []
  | a :: rest, t => ⟨a, (a.run d t).1⟩ :: d.events rest (a.run d t).2

def Event.recording? (key : String) : Event → Option Recording
  | ⟨.call (.record k content table), .ok (.map map)⟩ =>
    if k = key then some ⟨content, table, map⟩ else none
  | _ => none

def latest (log : List Event) (key : String) : Option Recording :=
  (log.filterMap (Event.recording? key)).getLast?

def Action.Fits : Action → Prop
  | call (.record _ content table) => Text.Fits content ∧ TableFits table
  | edit e => e.Fits
  | _ => True

def Action.Spares (c dir : List String) : Action → Prop
  | edit e => ¬ c <+: FileTree.destination dir e.path
  | _ => True

/-- The cache directory is there and holds no entry; the root of the templates is an absolute path,
and neither of the two directories is below the other. -/
structure Starts (d : DirectoryService) (t : FileTree) (c : List String) : Prop where
  home : d.maps.At t c
  empty : ∀ key, t.look? (c ++ [DirectoryStore.entryName key]) = none
  root : Path.isAbsolute d.templates.root = true
  root_outside : ¬ c <+: FileTree.destination [] d.templates.root
  cache_outside : ¬ FileTree.destination [] d.templates.root <+: c
  fits : t.Fits

variable {d : DirectoryService} {t u : FileTree} {c : List String} {log : List Event} {key : String}

theorem latest_append (log : List Event) (e : Event) (key : String) :
    latest (log ++ [e]) key = (e.recording? key).or (latest log key) := by
  rw [latest, List.filterMap_append]
  rcases h : e.recording? key with _ | r
  · simp [h, latest]
  · simp [h]

structure MadeFrom (d : DirectoryService) (r : Recording) (answers : Assoc String Source) : Prop where
  keys : Assoc.keys answers = SourceMap.loadOrder (Text.bytes r.content) r.table
  map : r.map = SourceMap.assemble (Text.bytes r.content) r.table answers
  read : ∀ map, SourceMap.deserialize (Text.bytes r.map.serialize) = .ok map → map = r.map
  resolve : ∀ e ∈ answers, d.templates.resolve e.1 = .ok e.2.filename

def Unaltered (t : FileTree) (time : Nat) (source : Source) : Prop :=
  ∀ x, t.node? (FileTree.destination t.currentDir source.filename) = some x → x.modified ≤ time →
    x.content? = some (Text.bytes source.content)

/-- An entry holds the map of the latest recording, and the files that it was made from are as they
were unless they are newer than the entry. -/
structure Backed (d : DirectoryService) (log : List Event) (t : FileTree) (key : String) (b : Bytes)
    (time : Nat) : Prop where
  past : time < t.now
  made : ∃ r answers, latest log key = some r ∧ b = Text.bytes r.map.serialize ∧ d.MadeFrom r answers ∧
    ∀ e ∈ answers, Unaltered t time e.2

structure Advances (c : List String) (t u : FileTree) : Prop where
  dirs : FileTree.DirsKept t u
  now : t.now ≤ u.now
  later : ∀ p x, ¬ c <+: p → u.node? p = some x → t.node? p = some x ∨ t.now ≤ x.modified

theorem Advances.of_confined (h : DirectoryStore.Confined c key t u) : Advances c t u where
  dirs := h.dirs
  now := h.now
  later p _ hp hx := .inl (h.outside p hp ▸ hx)

theorem Advances.of_edited {p : List String} (h : FileTree.Edited p t u) : Advances c t u where
  dirs := h.dirs
  now := Nat.le_of_lt h.now
  later q x _ hx := h.later q x hx

theorem Unaltered.advance {time : Nat} {source : Source} (h : Unaltered t time source)
    (hpast : time < t.now) (hadvance : Advances c t u)
    (hout : ¬ c <+: FileTree.destination t.currentDir source.filename) : Unaltered u time source := by
  intro x hx hle
  rw [hadvance.dirs.currentDir] at hx
  rcases hadvance.later _ x hout hx with hbefore | hlate
  · exact h x hbefore hle
  · omega

theorem Starts.outside (h : d.Starts t c) {path file : String}
    (hfile : d.templates.resolve path = .ok file) (dir : List String) :
    ¬ c <+: FileTree.destination dir file := by
  intro hbelow
  have hroot := DirectoryLoader.prefix_of_resolve h.root hfile [] dir
  rcases List.prefix_or_prefix_of_prefix hbelow hroot with hprefix | hprefix
  · exact h.root_outside hprefix
  · exact h.cache_outside hprefix

theorem Starts.look?_of_load {start : FileTree} (h : d.Starts start c) {path : String} {source : Source}
    (hload : (runFrom (d.templates.load path : ExceptT Failure (StateM FileTree) Source) t).1 =
      .ok source) :
    ¬ c <+: FileTree.destination t.currentDir source.filename ∧
      t.look? (FileTree.destination t.currentDir source.filename) =
        some (some (Text.bytes source.content)) := by
  obtain ⟨hresolve, hbytes⟩ := DirectoryLoader.of_load hload
  obtain ⟨p, hplace, hlook, -⟩ := FileTree.readBytes_eq_ok_iff.mp hbytes
  rw [FileTree.eq_destination_of_place hplace] at hlook
  exact ⟨h.outside hresolve _, hlook⟩

/-- The invariant of a history: every entry is backed by the events so far. -/
structure Tracks (d : DirectoryService) (c : List String) (start : FileTree) (log : List Event)
    (t : FileTree) : Prop where
  dirs : FileTree.DirsKept start t
  fits : ∀ p b, ¬ c <+: p → t.look? p = some (some b) → b.length < maxCount
  entry : ∀ key b time, t.stat? (c ++ [DirectoryStore.entryName key]) = some (some (b, time)) →
    d.Backed log t key b time

variable {start : FileTree} {e : Event}

section Steps

variable (hstart : d.Starts start c)
include hstart

theorem Backed.advance {b : Bytes} {time : Nat} (h : d.Backed log t key b time)
    (hadvance : Advances c t u) (hevent : e.recording? key = none) :
    d.Backed (log ++ [e]) u key b time := by
  obtain ⟨r, answers, hlatest, hb, hmade, hfiles⟩ := h.made
  refine ⟨Nat.lt_of_lt_of_le h.past hadvance.now, r, answers, ?_, hb, hmade, fun e he => ?_⟩
  · rw [latest_append, hevent, Option.none_or, hlatest]
  · exact (hfiles e he).advance h.past hadvance (hstart.outside (hmade.resolve e he) _)

theorem Tracks.keep (h : d.Tracks c start log t) (hadvance : Advances c t u)
    (hevent : ∀ key, e.recording? key = none)
    (hfits : ∀ p b, ¬ c <+: p → u.look? p = some (some b) →
      t.look? p = some (some b) ∨ b.length < maxCount)
    (hentry : ∀ key, u.stat? (c ++ [DirectoryStore.entryName key]) =
        t.stat? (c ++ [DirectoryStore.entryName key]) ∨
      u.stat? (c ++ [DirectoryStore.entryName key]) = none) :
    d.Tracks c start (log ++ [e]) u where
  dirs := h.dirs.trans hadvance.dirs
  fits p b hp hfile := (hfits p b hp hfile).elim (h.fits p b hp) id
  entry key b time hstat := by
    rcases hentry key with hsame | hnone
    · rw [hsame] at hstat
      exact (h.entry key b time hstat).advance hstart hadvance (hevent key)
    · rw [hnone] at hstat
      cases hstat

theorem Tracks.confined (h : d.Tracks c start log t) (hconfined : DirectoryStore.Confined c key t u)
    (hevent : ∀ key, e.recording? key = none)
    (hentry : u.stat? (c ++ [DirectoryStore.entryName key]) =
        t.stat? (c ++ [DirectoryStore.entryName key]) ∨
      u.stat? (c ++ [DirectoryStore.entryName key]) = none) :
    d.Tracks c start (log ++ [e]) u := by
  refine h.keep hstart (.of_confined hconfined) hevent (fun p b hp hfile => ?_) fun other => ?_
  · rw [FileTree.look?, hconfined.outside p hp] at hfile
    exact .inl hfile
  · by_cases hother : other = key
    · rw [hother]
      exact hentry
    · exact .inl (hconfined.stat _ (DirectoryStore.entry_place_ne c hother)
        (DirectoryStore.place_ne c key other).symm)

theorem Tracks.edit (h : d.Tracks c start log t) {change : Edit} (hfits : change.Fits)
    (hspares : ¬ c <+: FileTree.destination start.currentDir change.path) :
    d.Tracks c start (log ++ [⟨.edit change, .ok .done⟩]) (change.run t) := by
  rw [Edit.run]
  rcases happly : change.apply t with failed | u
  · exact h.keep hstart ⟨⟨rfl, fun _ h => h⟩, Nat.le_refl _, fun _ _ _ h => .inl h⟩ (fun _ => rfl)
      (fun _ _ _ h => .inl h) fun _ => .inl rfl
  · obtain ⟨p, hplace, hedited⟩ := Edit.edited happly
    have hp : ¬ c <+: p := by
      rw [FileTree.eq_destination_of_place hplace, h.dirs.currentDir]
      exact hspares
    refine h.keep hstart (.of_edited hedited) (fun _ => rfl)
      (fun _ _ _ hfile => hfits.file happly hfile) fun key => .inl ?_
    rw [FileTree.stat?, FileTree.stat?, hedited.frame]
    · rintro rfl
      exact hp (List.prefix_append _ _)
    · intro heq
      exact hp ((List.prefix_append _ _).trans (heq ▸ List.dropLast_prefix p))

theorem Tracks.fits_of_calculate (h : d.Tracks c start log t) {content : String}
    {table : Table Location} {map : SourceMap} (hcontent : Text.Fits content) (htable : TableFits table)
    (hmap : runFrom (SourceMap.calculate (m := StateM FileTree) d.templates.load content table) t =
      (.ok map, t)) : map.Fits := by
  have hkeep : ∀ path v, v = t → (runFrom (d.templates.load path :
      ExceptT Failure (StateM FileTree) Source) v).2 = t := fun path => d.templates.preserves_load path
  refine SourceMap.fits_of_keeps hmap hkeep (fun path v source hv hload => ?_) rfl hcontent htable
  rw [hv] at hload
  obtain ⟨hout, hlook⟩ := hstart.look?_of_load hload
  exact h.fits _ _ hout hlook

theorem Tracks.record (h : d.Tracks c start log t) {content : String} {table : Table Location}
    {map : SourceMap} (hcontent : Text.Fits content) (htable : TableFits table)
    (hmap : runFrom (SourceMap.calculate (m := StateM FileTree) d.templates.load content table) t =
      (.ok map, t))
    (hput : runFrom (d.maps.put key map.serialize : ExceptT Error (StateM FileTree) Unit) t = (.ok (), u)) :
    d.Tracks c start (log ++ [⟨.call (.record key content table), .ok (.map map)⟩]) u := by
  have hhome := hstart.home.kept h.dirs
  have hconfined := hhome.confined_of_put key map.serialize
  obtain ⟨hentry, hpast⟩ := hhome.entry_of_put_ok hput
  rw [hput] at hconfined
  obtain ⟨-, answers, hkeys, hloads, hassembled⟩ := DirectoryLoader.calculate_eq_ok_iff.mp hmap
  have hmapFits := h.fits_of_calculate hstart hcontent htable hmap
  refine ⟨h.dirs.trans hconfined.dirs, fun p b hp hfile => ?_, fun other b time hstat => ?_⟩
  · rw [FileTree.look?, hconfined.outside p hp] at hfile
    exact h.fits p b hp hfile
  · by_cases hother : other = key
    · subst hother
      rw [hentry] at hstat
      cases hstat
      refine ⟨hpast, ⟨content, table, map⟩, answers, ?_, rfl, ⟨hkeys, hassembled, fun other hother => ?_,
        fun e he => ?_⟩, fun e he x hx _ => ?_⟩
      · rw [latest_append, Event.recording?, if_pos rfl, Option.some_or]
      · exact SourceMap.eq_of_read_written (SourceMap.closed_of_calculate hmap) hmapFits hother
      · exact (DirectoryLoader.of_load (congrArg Prod.fst (hloads e he))).1
      · obtain ⟨hout, hlook⟩ := hstart.look?_of_load (congrArg Prod.fst (hloads e he))
        rw [hconfined.dirs.currentDir, hconfined.outside _ hout] at hx
        rw [FileTree.look?, hx] at hlook
        exact Option.some.inj hlook
    · rw [hconfined.stat _ (DirectoryStore.entry_place_ne c hother)
        (DirectoryStore.place_ne c key other).symm] at hstat
      refine (h.entry other b time hstat).advance hstart (.of_confined hconfined) ?_
      rw [Event.recording?, if_neg (Ne.symm hother)]

theorem Tracks.removed (h : d.Tracks c start log t) (key : String)
    (hevent : ∀ key, e.recording? key = none) : d.Tracks c start (log ++ [e])
      (runFrom (d.maps.remove key : ExceptT Error (StateM FileTree) Unit) t).2 := by
  have hhome := hstart.home.kept h.dirs
  refine h.confined hstart (hhome.confined_of_remove key) hevent ?_
  rcases hhome.entry_of_remove key with hsame | hnone
  · exact .inl (by rw [hsame])
  · exact .inr hnone

theorem Tracks.unchanged (h : d.Tracks c start log t) (hevent : ∀ key, e.recording? key = none) :
    d.Tracks c start (log ++ [e]) t :=
  h.confined hstart (.refl c "" t) hevent (.inl rfl)

end Steps

theorem state_of_load (d : DirectoryService) (key : String) (t : FileTree) :
    (runFrom (d.service.load key) t).2 = t ∨ (runFrom (d.service.load key) t).2 =
      (runFrom (d.maps.remove key : ExceptT Error (StateM FileTree) Unit) t).2 := by
  rcases hget : runFrom (d.service.store.get key) t with ⟨e | text, u⟩
  · have hu : u = t := congrArg Prod.snd (hget.symm.trans (d.maps.runFrom_get key t))
    rw [TraceService.load_failed hget, hu]
    exact .inl rfl
  · have hu : u = t := congrArg Prod.snd (hget.symm.trans (d.maps.runFrom_get key t))
    subst hu
    rcases text with _ | text
    · rw [TraceService.load_missing hget]
      exact .inl rfl
    · rcases hread : SourceMap.deserialize (Text.bytes text) with e | map
      · refine .inr ?_
        rcases hremove : runFrom (d.service.store.remove key) u with ⟨failed | _, v⟩
        · rw [TraceService.load_unremoved hget hread hremove]
          exact (congrArg Prod.snd hremove).symm
        · rw [TraceService.load_unreadable hget hread hremove]
          exact (congrArg Prod.snd hremove).symm
      · rw [TraceService.load_readable hget hread]
        exact .inl rfl

theorem Tracks.call (hstart : d.Starts start c) (h : d.Tracks c start log t) {call : ServiceCall}
    (hcall : ∀ key content table, call ≠ .record key content table) {answer} :
    d.Tracks c start (log ++ [⟨.call call, answer⟩]) (runFrom (call.run d.service) t).2 := by
  have hevent : ∀ key, Event.recording? key ⟨.call call, answer⟩ = none := by
    intro key
    cases call with
    | record k content table => exact absurd rfl (hcall k content table)
    | _ => rfl
  have hasks : ∀ key, call.asksFor? = some key →
      d.Tracks c start (log ++ [⟨.call call, answer⟩]) (runFrom (call.run d.service) t).2 := by
    intro key hkey
    rw [ServiceCall.run_of_asksFor _ hkey, runFrom_map]
    rcases d.state_of_load key t with hstate | hstate
    · rw [hstate]
      exact h.unchanged hstart hevent
    · rw [hstate]
      exact h.removed hstart key hevent
  cases call with
  | record key content table => exact absurd rfl (hcall key content table)
  | load key => exact hasks key rfl
  | trace key line => exact hasks key rfl
  | dependencies key => exact hasks key rfl
  | forget key =>
    rw [TraceService.state_forget]
    exact h.removed hstart key hevent
  | keys =>
    have hkeys : runFrom d.service.store.keys t = _ := (hstart.home.kept h.dirs).keys_eq
    rw [TraceService.state_keys, hkeys]
    exact h.unchanged hstart hevent

theorem Tracks.call_record (hstart : d.Starts start c) (h : d.Tracks c start log t)
    {content : String} {table : Table Location} (hcontent : Text.Fits content) (htable : TableFits table) :
    d.Tracks c start
      (log ++ [⟨.call (.record key content table),
        (Action.run d t (.call (.record key content table))).1⟩])
      (Action.run d t (.call (.record key content table))).2 := by
  have hrun : runFrom ((ServiceCall.record key content table).run d.service) t =
      ((runFrom (d.service.record key content table) t).1.map .map,
        (runFrom (d.service.record key content table) t).2) := runFrom_map _ _ t
  rw [Action.run, hrun]
  rcases hmap : runFrom (SourceMap.calculate d.service.loader.load content table) t with ⟨e | map, u⟩
  · have hu : u = t := (congrArg Prod.snd hmap).symm.trans (d.templates.state_calculate content table t)
    rw [TraceService.record_error hmap, hu]
    exact h.unchanged hstart fun _ => rfl
  · have hu : u = t := (DirectoryLoader.calculate_reads hmap).symm
    subst hu
    rcases hput : runFrom (d.service.store.put key map.serialize) u with ⟨e | _, v⟩
    · have hhome := hstart.home.kept h.dirs
      have hconfined := hhome.confined_of_put key map.serialize
      rw [show runFrom (d.maps.put key map.serialize) u = _ from hput] at hconfined
      rw [TraceService.record_unstored hmap hput]
      exact h.confined hstart hconfined (fun _ => rfl)
        (.inl (hhome.stat?_of_put_error hput (DirectoryStore.place_ne c key key).symm))
    · rw [TraceService.record_ok hmap hput]
      exact h.record hstart hcontent htable hmap hput

theorem Tracks.step (hstart : d.Starts start c) (h : d.Tracks c start log t) {a : Action}
    (hfits : a.Fits) (hspares : a.Spares c start.currentDir) :
    d.Tracks c start (log ++ [⟨a, (a.run d t).1⟩]) (a.run d t).2 := by
  cases a with
  | edit e => exact h.edit hstart hfits hspares
  | wait ticks =>
    refine h.keep hstart ⟨⟨rfl, fun _ h => h⟩, Nat.le_add_right _ _, fun _ _ _ h => .inl h⟩
      (fun _ => rfl) (fun _ _ _ h => .inl h) fun _ => .inl rfl
  | call call =>
    by_cases hcall : ∃ key content table, call = .record key content table
    · obtain ⟨key, content, table, rfl⟩ := hcall
      exact h.call_record hstart hfits.1 hfits.2
    · exact h.call hstart fun key content table heq => hcall ⟨key, content, table, heq⟩

theorem Tracks.run (hstart : d.Starts start c) (h : d.Tracks c start log t) {actions : List Action}
    (hactions : ∀ a ∈ actions, a.Fits ∧ a.Spares c start.currentDir) :
    d.Tracks c start (log ++ d.events actions t) (d.after actions t) := by
  induction actions generalizing log t with
  | nil =>
    rw [events, List.append_nil]
    exact h
  | cons a rest ih =>
    rw [List.forall_mem_cons] at hactions
    have hstep := h.step hstart hactions.1.1 hactions.1.2
    rw [events, after, List.append_cons]
    exact ih hstep hactions.2

theorem Starts.tracks (h : d.Starts t c) : d.Tracks c t [] t where
  dirs := ⟨rfl, fun _ h => h⟩
  fits p b _ hfile := h.fits p b hfile
  entry key b time hstat := by
    have hempty := h.empty key
    rw [← FileTree.stat?_eq_none_iff, hstat] at hempty
    cases hempty

theorem Tracks.calculate_of_isFresh (hstart : d.Starts start c) (h : d.Tracks c start log t)
    (hfresh : runFrom (d.maps.isFresh key : ExceptT Error (StateM FileTree) Bool) t = (.ok true, u)) :
    ∃ r, latest log key = some r ∧
      runFrom (SourceMap.calculate (m := StateM FileTree) d.templates.load r.content r.table) t =
        (.ok r.map, t) := by
  obtain ⟨time, text, map, htime, hbytes, hread, hfiles⟩ := DirectoryStore.of_isFresh hfresh
  have hentry : t.stat? (c ++ [DirectoryStore.entryName key]) = some (some (Text.bytes text, time)) := by
    obtain ⟨p, x, -, hplace, hnode, rfl⟩ := FileTree.of_modified? htime
    obtain ⟨q, hplace', hlook, -⟩ := FileTree.readBytes_eq_ok_iff.mp hbytes
    cases hplace.symm.trans hplace'
    cases (hstart.home.kept h.dirs).place_entryPath hplace
    obtain ⟨modified, hfile⟩ := FileTree.look?_eq_file_iff.mp hlook
    cases hnode.symm.trans hfile
    exact FileTree.stat?_eq_file_iff.mpr hfile
  obtain ⟨r, answers, hlatest, htext, hmade, hsources⟩ := (h.entry key _ time hentry).made
  rw [htext] at hread
  cases hmade.read map hread
  refine ⟨r, hlatest, DirectoryLoader.calculate_eq_ok_iff.mpr
    ⟨rfl, answers, hmade.keys, fun e he => ?_, hmade.map⟩⟩
  -- The entry vouches for the file, which is therefore what it was when it was loaded.
  have hmentioned : e.2.filename ∈ r.map.paths := by
    rw [hmade.map]
    exact SourceMap.mem_paths_assemble hmade.keys he
  obtain ⟨changed, hchanged, hle⟩ := hfiles _ hmentioned
  obtain ⟨p, x, hfind, hplace, hnode, rfl⟩ := FileTree.of_modified? hchanged
  rw [FileTree.eq_destination_of_place hplace] at hnode
  have hcontent := hsources e he x hnode hle
  exact DirectoryLoader.load_of_read (hmade.resolve e he) (FileTree.readBytes_of_find hfind hcontent)

/-- In every state that a history leads to, a fresh entry holds the map of the latest recording that
has succeeded, and building it again from the templates that are there now gives that map. -/
theorem calculate_of_fresh (hstart : d.Starts t c) {actions : List Action}
    (hactions : ∀ a ∈ actions, a.Fits ∧ a.Spares c t.currentDir) {key : String}
    (hfresh : (runFrom (d.maps.isFresh key : ExceptT Error (StateM FileTree) Bool)
      (d.after actions t)).1 = .ok true) :
    ∃ r, latest (d.events actions t) key = some r ∧
      runFrom (SourceMap.calculate (m := StateM FileTree) d.templates.load r.content r.table)
        (d.after actions t) = (.ok r.map, d.after actions t) := by
  have htracks := hstart.tracks.run hstart hactions
  rw [List.nil_append] at htracks
  exact htracks.calculate_of_isFresh hstart (Prod.ext hfresh rfl)

def pages : DirectoryService := ⟨⟨"/views", none⟩, ⟨"/cache"⟩⟩

def pageTree : FileTree where
  nodes := [(["cache"], .dir 0), (["views"], .dir 0), (["views", "page"], .file (Text.bytes "one\n") 0)]
  currentDir := []
  now := 1

theorem starts_pages : pages.Starts pageTree ["cache"] where
  home := ⟨by decide +kernel, by decide +kernel⟩
  empty key := by
    rw [FileTree.look?_eq_none_iff, FileTree.node?_of_ne_nil _ (by simp)]
    simp [pageTree, Assoc.lookup]
  root := by decide +kernel
  root_outside := by decide +kernel
  cache_outside := by decide +kernel
  fits := FileTree.fits_of_nodes (by decide +kernel)

def pageActions : List Action :=
  [.call (.record "page" "one\n" (Table.empty.insert 0 ⟨⟨"page", 0⟩, []⟩)),
    .edit (.write "/views/other" (Text.bytes "two\n")), .wait 5, .call (.trace "page" 1)]

theorem calculate_of_fresh_page :
    pages.Starts pageTree ["cache"] ∧
      (runFrom (pages.maps.isFresh "page" : ExceptT Error (StateM FileTree) Bool)
        (pages.after pageActions pageTree)).1 = .ok true ∧
      ∃ r, latest (pages.events pageActions pageTree) "page" = some r ∧
        runFrom (SourceMap.calculate (m := StateM FileTree) pages.templates.load r.content r.table)
          (pages.after pageActions pageTree) = (.ok r.map, pages.after pageActions pageTree) := by
  have hactions : ∀ a ∈ pageActions, a.Fits ∧ a.Spares ["cache"] pageTree.currentDir := by
    simp only [pageActions, List.forall_mem_cons]
    refine ⟨⟨⟨?_, ?_⟩, trivial⟩, ⟨?_, ?_⟩, ⟨trivial, trivial⟩, ⟨trivial, trivial⟩, List.forall_mem_nil _⟩
    · decide +kernel
    · decide +kernel
    · show (Text.bytes "two\n").length < maxCount
      decide +kernel
    · show ¬ ["cache"] <+: FileTree.destination [] "/views/other"
      decide +kernel
  have hfresh : (runFrom (pages.maps.isFresh "page" : ExceptT Error (StateM FileTree) Bool)
      (pages.after pageActions pageTree)).1 = .ok true := by decide +kernel
  exact ⟨starts_pages, hfresh, calculate_of_fresh starts_pages hactions hfresh⟩

end DirectoryService

end TemplateTrace
