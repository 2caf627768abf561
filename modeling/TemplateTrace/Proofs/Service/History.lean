import TemplateTrace.Loader.Memory
import TemplateTrace.Proofs.Service.Calls
import TemplateTrace.Proofs.Sizes
import TemplateTrace.Proofs.Store.Keys
import TemplateTrace.Store.Memory

/-!
Histories of a service whose templates and maps are in memory. What the service holds under a key
is read off the events so far, and every answer is what the events say. Templates may change, and
texts may be put into the store, between any two calls.
-/

namespace TemplateTrace

open SourceMap (maxLinks TableFits)

structure Memory where
  templates : MemoryLoader
  maps : MemoryStore := {}

namespace Memory

def onTemplates {α : Type} (act : StateM MemoryLoader α) : StateM Memory α := fun s =>
  let (a, templates) := act.run s.templates
  (a, { s with templates })

def onMaps {α : Type} (act : StateM MemoryStore α) : StateM Memory α := fun s =>
  let (a, maps) := act.run s.maps
  (a, { s with maps })

def service : TraceService (StateM Memory) where
  loader := MemoryLoader.loader.hoist onTemplates
  store := MemoryStore.store.hoist onMaps

def put (s : Memory) (key text : String) : Memory :=
  { s with maps := ⟨Assoc.insert key text s.maps.entries⟩ }

def without (s : Memory) (key : String) : Memory :=
  { s with maps := ⟨Assoc.erase key s.maps.entries⟩ }

def text? (s : Memory) (key : String) : Option String := Assoc.lookup key s.maps.entries

theorem text?_put (s : Memory) (key j text : String) :
    (s.put key text).text? j = if j = key then some text else s.text? j :=
  Assoc.lookup_insert _ _ _ _

theorem text?_without (s : Memory) (key j : String) :
    (s.without key).text? j = if j = key then none else s.text? j :=
  Assoc.lookup_erase _ _ _

inductive Action
  | call (c : ServiceCall)
  | register (path : String) (source : Source)
  | write (key text : String)

structure Event where
  action : Action
  answer : Except Failure ServiceAnswer

def Action.run : Action → ExceptT Failure (StateM Memory) ServiceAnswer
  | call c => c.run service
  | register path source => do
    ExceptT.mk (onTemplates (MemoryLoader.register path source).run)
    return .done
  | write key text => do
    TraceService.stored (service.store.put key text)
    return .done

def after : List Action → Memory → Memory
  | [], s => s
  | a :: rest, s => after rest (runFrom a.run s).2

def events : List Action → Memory → List Event
  | [], _ => []
  | a :: rest, s => ⟨a, (runFrom a.run s).1⟩ :: events rest (runFrom a.run s).2

inductive Held
  | recorded (map : SourceMap)
  | written (text : String)

def Held.text : Held → String
  | recorded map => map.serialize
  | written text => text

def Held.read : Held → Except MapError SourceMap
  | recorded map => .ok map
  | written text => SourceMap.deserialize (Text.bytes text)

def Event.change? : Event → Option (String × Option Held)
  | ⟨.call (.record key _ _), .ok (.map map)⟩ => some (key, some (.recorded map))
  | ⟨.call (.forget key), _⟩ => some (key, none)
  | ⟨.call c, .error (.error (.map _))⟩ => c.asksFor?.map fun key => (key, none)
  | ⟨.write key text, _⟩ => some (key, some (.written text))
  | _ => none

def Event.update (key : String) (held : Option Held) (e : Event) : Option Held :=
  match e.change? with
  | some (changed, now) => if key = changed then now else held
  | none => held

def held (log : List Event) (key : String) : Option Held := log.foldl (Event.update key) none

theorem held_append (log : List Event) (e : Event) (key : String) :
    held (log ++ [e]) key = e.update key (held log key) := by
  rw [held, List.foldl_append]
  rfl

def Event.recorded (key : String) (map : Option SourceMap) : Event → Option SourceMap
  | ⟨.call (.record k _ _), .ok (.map new)⟩ => if key = k then some new else map
  | ⟨.call (.forget k), _⟩ => if key = k then none else map
  | _ => map

def latest (log : List Event) (key : String) : Option SourceMap :=
  log.foldl (Event.recorded key) none

theorem latest_append (log : List Event) (e : Event) (key : String) :
    latest (log ++ [e]) key = e.recorded key (latest log key) := by
  rw [latest, List.foldl_append]
  rfl

def Event.Writes (key : String) : Event → Prop
  | ⟨.call (.record k _ _), .ok _⟩ => k = key
  | ⟨.write k _, _⟩ => k = key
  | _ => False

/-- The templates change, a recording fails, or the event is about another key. -/
def Event.Spares (key : String) : Event → Prop
  | ⟨.register _ _, _⟩ => True
  | ⟨.write k _, _⟩ => k ≠ key
  | ⟨.call (.record _ _ _), .error _⟩ => True
  | ⟨.call c, _⟩ => c.key? ≠ some key

def Action.Fits : Action → Prop
  | call (.record _ content table) =>
    Text.Fits content ∧ TableFits table ∧ ∀ e ∈ table.entries, e.2.depth ≤ maxLinks
  | register _ source => Text.Fits source.content
  | _ => True

end Memory

namespace MemoryLoader

def Fits (l : MemoryLoader) : Prop :=
  ∀ path source, Assoc.lookup path l.templates = some source → Text.Fits source.content

theorem runFrom_register (path : String) (source : Source) (l : MemoryLoader) :
    runFrom (register path source) l =
      if l.isLocked then (.error (.error .locked), l)
      else (.ok (), { l with templates := Assoc.insert path source l.templates }) := rfl

theorem runFrom_load (path : String) (l : MemoryLoader) :
    runFrom (load path) l =
      if l.isLocked then (.error (.error .locked), { l with loads := l.loads + 1 })
      else match Assoc.lookup path l.templates with
        | some source => (.ok source, { l with loads := l.loads + 1 })
        | none => (.error (.error (.templateLoad path "no such template registered")),
            { l with loads := l.loads + 1 }) := rfl

theorem templates_load (path : String) (l : MemoryLoader) :
    (runFrom (load path) l).2.templates = l.templates := by
  rw [runFrom_load]
  split
  · rfl
  · split <;> rfl

theorem lookup_of_load {path : String} {l : MemoryLoader} {source : Source}
    (h : (runFrom (load path) l).1 = .ok source) : Assoc.lookup path l.templates = some source := by
  rw [runFrom_load] at h
  split at h
  · cases h
  · split at h
    · rename_i found hfound
      cases h
      exact hfound
    · cases h

theorem Fits.load {l : MemoryLoader} (h : l.Fits) (path : String) : (runFrom (load path) l).2.Fits := by
  intro p source hp
  rw [templates_load] at hp
  exact h p source hp

theorem Fits.register {l : MemoryLoader} (h : l.Fits) (path : String) {source : Source}
    (hsource : Text.Fits source.content) : (runFrom (register path source) l).2.Fits := by
  rw [runFrom_register]
  split
  · exact h
  · intro p found hp
    rw [Assoc.lookup_insert] at hp
    split at hp
    · cases hp
      exact hsource
    · exact h p found hp

end MemoryLoader

namespace Memory

variable {s : Memory} {key : String}

theorem calculate_keeps (s : Memory) (h : s.templates.Fits) (content : String)
    (table : Table Location) :
    let t := (runFrom (SourceMap.calculate service.loader.load content table) s).2
    t.templates.Fits ∧ t.maps = s.maps := by
  have hload : ∀ path (u : Memory), u.templates.Fits ∧ u.maps = s.maps →
      (runFrom (service.loader.load path) u).2.templates.Fits ∧
        (runFrom (service.loader.load path) u).2.maps = s.maps :=
    fun path _ hu => ⟨hu.1.load path, hu.2⟩
  exact SourceMap.runFrom_calculate_keeps hload content table ⟨h, rfl⟩

theorem readable_of_calculate {content : String} {table : Table Location} {map : SourceMap}
    {t : Memory} (h : runFrom (SourceMap.calculate service.loader.load content table) s = (.ok map, t))
    (hs : s.templates.Fits) (hcall : (Action.call (.record key content table)).Fits) :
    SourceMap.deserialize (Text.bytes map.serialize) = .ok map := by
  obtain ⟨hcontent, htable, hdepth⟩ := hcall
  have hload : ∀ path (u : Memory), u.templates.Fits →
      (runFrom (service.loader.load path) u).2.templates.Fits := fun path _ hu => hu.load path
  have hgood : ∀ path (u : Memory) (source : Source), u.templates.Fits →
      (runFrom (service.loader.load path) u).1 = .ok source → Text.Fits source.content :=
    fun path _ source hu hloaded => hu path source (MemoryLoader.lookup_of_load hloaded)
  apply SourceMap.read_built h
  · exact SourceMap.fits_of_keeps h hload hgood hs hcontent htable
  · intro e he
    exact hdepth e (List.mem_of_mem_filter he)

def answerOf (s : Memory) (key : String) (c : ServiceCall) :
    Option String → Except Failure ServiceAnswer × Memory
  | none => (.error (.error (.notStored key)), s)
  | some text =>
    match SourceMap.deserialize (Text.bytes text) with
    | .ok map => (.ok (c.view map), s)
    | .error e => (.error (.error (.map e)), s.without key)

theorem run_asksFor {c : ServiceCall} (s : Memory) (h : c.asksFor? = some key) :
    runFrom (c.run service) s = s.answerOf key c (s.text? key) := by
  have hget : runFrom (service.store.get key) s = (.ok (s.text? key), s) := rfl
  rw [ServiceCall.run_of_asksFor service h, runFrom_map]
  rcases htext : s.text? key with _ | text
  · rw [htext] at hget
    rw [TraceService.load_missing hget]
    rfl
  · rw [htext] at hget
    rcases hread : SourceMap.deserialize (Text.bytes text) with e | map
    · rw [TraceService.load_unreadable hget hread rfl, answerOf, hread]
      rfl
    · rw [TraceService.load_readable hget hread, answerOf, hread]
      rfl

inductive Changes (s t : Memory) : Event → Prop
  | nothing {e : Event} (hchange : e.change? = none) (hmaps : t.maps = s.maps) : Changes s t e
  | records {key content : String} {table : Table Location} {map : SourceMap}
      (hread : SourceMap.deserialize (Text.bytes map.serialize) = .ok map)
      (hmaps : t.maps = (s.put key map.serialize).maps) :
      Changes s t ⟨.call (.record key content table), .ok (.map map)⟩
  | writes {key text : String} (hmaps : t.maps = (s.put key text).maps) :
      Changes s t ⟨.write key text, .ok .done⟩
  | forgets {key : String} (hmaps : t.maps = (s.without key).maps) :
      Changes s t ⟨.call (.forget key), .ok .done⟩
  | evicts {c : ServiceCall} {key text : String} {e : MapError} (hasks : c.asksFor? = some key)
      (htext : s.text? key = some text)
      (hread : SourceMap.deserialize (Text.bytes text) = .error e)
      (hmaps : t.maps = (s.without key).maps) :
      Changes s t ⟨.call c, .error (.error (.map e))⟩

theorem changes_asksFor {c : ServiceCall} (s : Memory) (hs : s.templates.Fits)
    (h : c.asksFor? = some key) :
    let t := (runFrom (c.run service) s).2
    Changes s t ⟨.call c, (runFrom (c.run service) s).1⟩ ∧ t.templates.Fits := by
  rw [run_asksFor s h]
  rcases htext : s.text? key with _ | text
  · refine ⟨.nothing ?_ rfl, hs⟩
    cases c <;> first | rfl | cases h
  · rcases hread : SourceMap.deserialize (Text.bytes text) with e | map
    · simp only [answerOf, hread]
      exact ⟨.evicts h htext hread rfl, hs⟩
    · simp only [answerOf, hread]
      refine ⟨.nothing ?_ rfl, hs⟩
      cases c <;> first | rfl | cases h

theorem changes_record (s : Memory) (hs : s.templates.Fits) {content : String}
    {table : Table Location} (hcall : (Action.call (.record key content table)).Fits) :
    let run := runFrom ((ServiceCall.record key content table).run service) s
    Changes s run.2 ⟨.call (.record key content table), run.1⟩ ∧ run.2.templates.Fits := by
  obtain ⟨hfits, hmaps⟩ := calculate_keeps s hs content table
  intro run
  have hrun : run = ((runFrom (service.record key content table) s).1.map .map,
      (runFrom (service.record key content table) s).2) := runFrom_map _ _ _
  rcases h : runFrom (SourceMap.calculate service.loader.load content table) s with ⟨e | map, t⟩
  · rw [h] at hfits hmaps
    rw [hrun, TraceService.record_error h]
    refine ⟨.nothing ?_ hmaps, hfits⟩
    cases e with
    | abort => rfl
    | error e => cases e <;> rfl
  · rw [h] at hfits hmaps
    have hput : runFrom (service.store.put key map.serialize) t = (.ok (), t.put key map.serialize) :=
      rfl
    rw [hrun, TraceService.record_ok h hput]
    refine ⟨.records (readable_of_calculate h hs hcall) ?_, hfits⟩
    rw [put, put, hmaps]

theorem run_register (path : String) (source : Source) (s : Memory) :
    runFrom (Action.register path source).run s =
      ((runFrom (MemoryLoader.register path source) s.templates).1.map fun _ => .done,
        { s with templates := (runFrom (MemoryLoader.register path source) s.templates).2 }) :=
  runFrom_map _ (fun _ => ServiceAnswer.done) s

theorem changes_run (a : Action) (s : Memory) (hs : s.templates.Fits) (ha : a.Fits) :
    Changes s (runFrom a.run s).2 ⟨a, (runFrom a.run s).1⟩ ∧ (runFrom a.run s).2.templates.Fits := by
  cases a with
  | register path source =>
    rw [run_register]
    exact ⟨.nothing rfl rfl, hs.register path ha⟩
  | write key text => exact ⟨.writes rfl, hs⟩
  | call c =>
    cases c with
    | record key content table => exact changes_record s hs ha
    | load key => exact changes_asksFor s hs rfl
    | trace key line => exact changes_asksFor s hs rfl
    | dependencies key => exact changes_asksFor s hs rfl
    | forget key => exact ⟨.forgets rfl, hs⟩
    | keys => exact ⟨.nothing rfl rfl, hs⟩

/-- What is held according to the events is what the memory holds, and maps of recordings can be
read back. -/
structure Reflects (s : Memory) (log : List Event) : Prop where
  fits : s.templates.Fits
  nodup : (Assoc.keys s.maps.entries).Nodup
  text : ∀ key, s.text? key = (held log key).map Held.text
  readable : ∀ key map, held log key = some (.recorded map) →
    SourceMap.deserialize (Text.bytes map.serialize) = .ok map

theorem change?_evicts {c : ServiceCall} (h : c.asksFor? = some key) (e : MapError) :
    Event.change? ⟨.call c, .error (.error (.map e))⟩ = some (key, none) := by
  cases c <;> cases h <;> rfl

theorem Reflects.start {templates : MemoryLoader} (h : templates.Fits) : Reflects ⟨templates, {}⟩ [] :=
  ⟨h, List.nodup_nil, fun _ => rfl, fun _ _ h => nomatch h⟩

theorem Reflects.changed {t : Memory} {log : List Event} {e : Event} {now : Option Held}
    (h : Reflects s log) (hfits : t.templates.Fits) (hchange : e.change? = some (key, now))
    (hnodup : (Assoc.keys t.maps.entries).Nodup)
    (htext : ∀ j, t.text? j = if j = key then now.map Held.text else s.text? j)
    (hread : ∀ map, now = some (.recorded map) →
      SourceMap.deserialize (Text.bytes map.serialize) = .ok map) : Reflects t (log ++ [e]) := by
  have hheld : ∀ j, held (log ++ [e]) j = if j = key then now else held log j := by
    intro j
    rw [held_append, Event.update, hchange]
  refine ⟨hfits, hnodup, fun j => ?_, fun j map hj => ?_⟩
  · rw [htext, hheld, apply_ite (Option.map Held.text), h.text]
  · rw [hheld] at hj
    split at hj
    · exact hread map hj
    · exact h.readable j map hj

theorem Reflects.step {t : Memory} {log : List Event} {e : Event} (h : Reflects s log)
    (hchanges : Changes s t e) (hfits : t.templates.Fits) : Reflects t (log ++ [e]) := by
  cases hchanges with
  | nothing hchange hmaps =>
    have hheld : ∀ key, held (log ++ [e]) key = held log key := by
      intro key
      rw [held_append, Event.update, hchange]
    have htext : ∀ key, t.text? key = s.text? key := by
      intro key
      rw [text?, text?, hmaps]
    refine ⟨hfits, hmaps ▸ h.nodup, fun key => ?_, fun key map hkey => ?_⟩
    · rw [htext, hheld, h.text]
    · rw [hheld] at hkey
      exact h.readable key map hkey
  | @records key content table map hread hmaps =>
    apply h.changed hfits rfl
    · rw [hmaps]
      exact Assoc.nodup_keys_insert _ _ h.nodup
    · intro j
      rw [text?, hmaps]
      exact text?_put _ _ _ _
    · rintro _ ⟨⟩
      exact hread
  | @writes key text hmaps =>
    apply h.changed hfits rfl
    · rw [hmaps]
      exact Assoc.nodup_keys_insert _ _ h.nodup
    · intro j
      rw [text?, hmaps]
      exact text?_put _ _ _ _
    · rintro _ ⟨⟩
  | @forgets key hmaps =>
    apply h.changed hfits rfl
    · rw [hmaps]
      exact Assoc.nodup_keys_erase _ h.nodup
    · intro j
      rw [text?, hmaps]
      exact text?_without _ _ _
    · rintro _ ⟨⟩
  | @evicts c key text e hasks htext hread hmaps =>
    apply h.changed hfits (change?_evicts hasks e)
    · rw [hmaps]
      exact Assoc.nodup_keys_erase _ h.nodup
    · intro j
      rw [text?, hmaps]
      exact text?_without _ _ _
    · rintro _ ⟨⟩

theorem Reflects.run {log : List Event} (h : Reflects s log) (actions : List Action)
    (hactions : ∀ a ∈ actions, a.Fits) : Reflects (after actions s) (log ++ events actions s) := by
  induction actions generalizing s log with
  | nil => simpa [after, events] using h
  | cons a rest ih =>
    obtain ⟨hchanges, hfits⟩ := changes_run a s h.fits (hactions a (by simp))
    have hnext := ih (h.step hchanges hfits) fun b hb => hactions b (by simp [hb])
    simpa [after, events] using hnext

theorem recorded_of_change?_none {e : Event} (h : e.change? = none) (map : Option SourceMap) :
    e.recorded key map = map := by
  unfold Event.recorded
  split
  · cases h
  · cases h
  · rfl

theorem held_eq_latest_step {t : Memory} {log : List Event} {e : Event} (h : Reflects s log)
    (hheld : held log key = (latest log key).map .recorded) (hchanges : Changes s t e)
    (hwrite : ∀ text, e.action ≠ .write key text) :
    held (log ++ [e]) key = (latest (log ++ [e]) key).map .recorded := by
  rw [held_append, latest_append, hheld]
  cases hchanges with
  | nothing hchange hmaps => rw [Event.update, hchange, recorded_of_change?_none hchange]
  | @records k content table map hread hmaps =>
    rw [Event.update, Event.change?, Event.recorded, apply_ite (Option.map Held.recorded)]
    rfl
  | @writes k text hmaps =>
    have hk : key ≠ k := fun heq => hwrite text (heq ▸ rfl)
    simp only [Event.update, Event.change?, if_neg hk, Event.recorded]
  | @forgets k hmaps =>
    rw [Event.update, Event.change?, Event.recorded, apply_ite (Option.map Held.recorded)]
    rfl
  | @evicts c k text e hasks htext hread hmaps =>
    -- What is evicted cannot be read, so it is not the map of a recording.
    have hk : key ≠ k := by
      rintro rfl
      have hstored := h.text key
      rw [htext, hheld] at hstored
      rcases hmap : latest log key with _ | map
      · rw [hmap] at hstored
        cases hstored
      · rw [hmap] at hheld hstored
        cases hstored
        have hok := h.readable key map hheld
        rw [Held.text] at hread
        rw [hok] at hread
        cases hread
    have hsame : ∀ map, Event.recorded key map ⟨.call c, .error (.error (.map e))⟩ = map := by
      intro map
      cases c <;> first | rfl | cases hasks
    rw [Event.update, change?_evicts hasks, hsame]
    exact if_neg hk

theorem held_eq_latest {log : List Event} (h : Reflects s log)
    (hheld : held log key = (latest log key).map .recorded) (actions : List Action)
    (hactions : ∀ a ∈ actions, a.Fits) (hwrite : ∀ text, .write key text ∉ actions) :
    held (log ++ events actions s) key = (latest (log ++ events actions s) key).map .recorded := by
  induction actions generalizing s log with
  | nil => simpa [events] using hheld
  | cons a rest ih =>
    obtain ⟨hchanges, hfits⟩ := changes_run a s h.fits (hactions a (by simp))
    have hfirst := held_eq_latest_step h hheld hchanges fun text heq => hwrite text (by simp [← heq])
    have hrest := ih (h.step hchanges hfits) hfirst (fun b hb => hactions b (by simp [hb]))
      fun text hb => hwrite text (by simp [hb])
    simpa [events] using hrest

theorem text?_of_spares {t : Memory} {e : Event} (hchanges : Changes s t e) (h : e.Spares key) :
    t.text? key = s.text? key := by
  cases hchanges with
  | nothing hchange hmaps => rw [text?, text?, hmaps]
  | @records k content table map hread hmaps =>
    have hk : key ≠ k := fun heq => h (congrArg some heq.symm)
    rw [text?, hmaps]
    exact (text?_put s k key _).trans (if_neg hk)
  | @writes k text hmaps =>
    rw [text?, hmaps]
    exact (text?_put s k key _).trans (if_neg (Ne.symm h))
  | @forgets k hmaps =>
    have hk : key ≠ k := fun heq => h (congrArg some heq.symm)
    rw [text?, hmaps]
    exact (text?_without s k key).trans (if_neg hk)
  | @evicts c k text e hasks htext hread hmaps =>
    have hk : key ≠ k := by
      rintro rfl
      cases c <;> first | exact h hasks | cases hasks
    rw [text?, hmaps]
    exact (text?_without s k key).trans (if_neg hk)

theorem text?_of_not_writes {t : Memory} {e : Event} (hchanges : Changes s t e) (h : ¬ e.Writes key)
    (hnone : s.text? key = none) : t.text? key = none := by
  cases hchanges with
  | nothing hchange hmaps => rw [text?, hmaps, ← text?, hnone]
  | @records k content table map hread hmaps =>
    rw [text?, hmaps]
    exact (text?_put s k key _).trans ((if_neg (Ne.symm h)).trans hnone)
  | @writes k text hmaps =>
    rw [text?, hmaps]
    exact (text?_put s k key _).trans ((if_neg (Ne.symm h)).trans hnone)
  | @forgets k hmaps =>
    rw [text?, hmaps]
    exact (text?_without s k key).trans (by rw [hnone, ite_self])
  | @evicts c k text e hasks htext hread hmaps =>
    rw [text?, hmaps]
    exact (text?_without s k key).trans (by rw [hnone, ite_self])

theorem text?_after {key : String} (actions : List Action) (hs : s.templates.Fits)
    (hactions : ∀ a ∈ actions, a.Fits) (hwrites : ∀ e ∈ events actions s, ¬ e.Writes key)
    (hnone : s.text? key = none) : (after actions s).text? key = none := by
  induction actions generalizing s with
  | nil => exact hnone
  | cons a rest ih =>
    obtain ⟨hchanges, hfits⟩ := changes_run a s hs (hactions a (by simp))
    apply ih hfits fun b hb => hactions b (by simp [hb])
    · exact fun e he => hwrites e (by simp [events, he])
    · exact text?_of_not_writes hchanges (hwrites _ (by simp [events])) hnone

theorem answerOf_fst (s t : Memory) (key : String) (c : ServiceCall) (text : Option String) :
    (s.answerOf key c text).1 = (t.answerOf key c text).1 := by
  rcases text with _ | text
  · rfl
  · rw [answerOf, answerOf]
    split <;> rfl

/-- What a service answers after a history of actions from a store without maps. -/
structure Answers (actions : List Action) (log : List Event) (s : Memory) : Prop where
  reads : ∀ (key : String) (c : ServiceCall), c.asksFor? = some key →
    runFrom (c.run service) s = s.answerOf key c ((held log key).map Held.text)
  recorded : ∀ key, (∀ text, .write key text ∉ actions) → ∀ c : ServiceCall, c.asksFor? = some key →
    runFrom (c.run service) s =
      (match latest log key with
        | some map => .ok (c.view map)
        | none => .error (.error (.notStored key)), s)
  keys : ∃ keys, runFrom (ServiceCall.keys.run service) s = (.ok (.keys keys), s) ∧
    keys.Pairwise (· < ·) ∧ (∀ key, key ∈ keys ↔ (held log key).isSome) ∧
    ∀ key, (∀ text, .write key text ∉ actions) →
      (key ∈ keys ↔ ∃ map, runFrom ((ServiceCall.load key).run service) s = (.ok (.map map), s))
  spared : ∀ (a : Action) (key : String) (c : ServiceCall), a.Fits →
    Event.Spares key ⟨a, (runFrom a.run s).1⟩ → c.asksFor? = some key →
      (runFrom (c.run service) (runFrom a.run s).2).1 = (runFrom (c.run service) s).1
  evicted : ∀ (key text : String) (e : MapError), s.text? key = some text →
    SourceMap.deserialize (Text.bytes text) = .error e → ∀ c : ServiceCall, c.asksFor? = some key →
      runFrom (c.run service) s = (.error (.error (.map e)), s.without key) ∧
      ∀ more : List Action, (∀ a ∈ more, a.Fits) →
        (∀ later ∈ events more (s.without key), ¬ later.Writes key) →
        ∀ d : ServiceCall, d.asksFor? = some key →
          runFrom (d.run service) (after more (s.without key)) =
            (.error (.error (.notStored key)), after more (s.without key))

theorem Reflects.reads {log : List Event} (h : Reflects s log) {c : ServiceCall}
    (hasks : c.asksFor? = some key) :
    runFrom (c.run service) s = s.answerOf key c ((held log key).map Held.text) := by
  rw [run_asksFor s hasks, h.text]

theorem Reflects.recorded {log : List Event} (h : Reflects s log)
    (hheld : held log key = (latest log key).map .recorded) {c : ServiceCall}
    (hasks : c.asksFor? = some key) :
    runFrom (c.run service) s =
      (match latest log key with
        | some map => .ok (c.view map)
        | none => .error (.error (.notStored key)), s) := by
  rw [h.reads hasks, hheld]
  rcases hmap : latest log key with _ | map
  · rfl
  · rw [hmap] at hheld
    simp only [Option.map_some, Held.text, answerOf, h.readable key map hheld]

theorem evicted {text : String} {e : MapError} (hs : s.templates.Fits)
    (htext : s.text? key = some text) (hread : SourceMap.deserialize (Text.bytes text) = .error e)
    {c : ServiceCall} (hasks : c.asksFor? = some key) :
    runFrom (c.run service) s = (.error (.error (.map e)), s.without key) ∧
      ∀ more : List Action, (∀ a ∈ more, a.Fits) →
        (∀ later ∈ events more (s.without key), ¬ later.Writes key) →
        ∀ d : ServiceCall, d.asksFor? = some key →
          runFrom (d.run service) (after more (s.without key)) =
            (.error (.error (.notStored key)), after more (s.without key)) := by
  constructor
  · rw [run_asksFor s hasks, htext]
    simp only [answerOf, hread]
  · intro more hmore hwrites d hd
    have hnone : (s.without key).text? key = none := (text?_without s key key).trans (if_pos rfl)
    rw [run_asksFor _ hd, text?_after (s := s.without key) more hs hmore hwrites hnone]
    rfl

theorem answers_of_history (templates : MemoryLoader) (actions : List Action)
    (htemplates : templates.Fits) (hactions : ∀ a ∈ actions, a.Fits) :
    Answers actions (events actions ⟨templates, {}⟩) (after actions ⟨templates, {}⟩) := by
  have h : Reflects (after actions ⟨templates, {}⟩) (events actions ⟨templates, {}⟩) :=
    (Reflects.start htemplates).run actions hactions
  have hlatest : ∀ key, (∀ text, .write key text ∉ actions) →
      held (events actions ⟨templates, {}⟩) key =
        (latest (events actions ⟨templates, {}⟩) key).map .recorded :=
    fun key hwrite => held_eq_latest (Reflects.start htemplates) rfl actions hactions hwrite
  generalize after actions ⟨templates, {}⟩ = s at h ⊢
  generalize events actions ⟨templates, {}⟩ = log at h hlatest ⊢
  have hkeys : ∀ key, key ∈ MapStore.sortKeys (Assoc.keys s.maps.entries) ↔ (held log key).isSome := by
    intro key
    rw [(MapStore.perm_sortKeys _).mem_iff, Assoc.mem_keys_iff, ← text?, h.text, Option.isSome_map]
  constructor
  · exact fun key c hasks => h.reads hasks
  · exact fun key hwrite c hasks => h.recorded (hlatest key hwrite) hasks
  · refine ⟨_, rfl, MapStore.ascending_sortKeys h.nodup, hkeys, fun key hwrite => ?_⟩
    rw [hkeys, hlatest key hwrite, Option.isSome_map, h.recorded (hlatest key hwrite) rfl]
    rcases latest log key with _ | map
    · simp
    · exact iff_of_true rfl ⟨map, rfl⟩
  · intro a key c ha hspares hasks
    have hchanges := (changes_run a s h.fits ha).1
    rw [run_asksFor s hasks, run_asksFor _ hasks, text?_of_spares hchanges hspares]
    exact answerOf_fst _ _ _ _ _
  · exact fun key text e htext hread c hasks => evicted h.fits htext hread hasks

def visits : List Action :=
  [.call (.record "page" "one\ntwo\nthree\n" SourceMap.pageTable), .write "broken" "[",
    .register "child" ⟨"/views/other.tpl", ""⟩,
    .call (.record "page" "one\n" ⟨[(0, ⟨⟨"missing", 0⟩, []⟩)], by decide⟩)]

theorem answers_of_visits :
    (SourceMap.pages.Fits ∧ ∀ a ∈ visits, a.Fits) ∧
      runFrom ((ServiceCall.trace "page" 2).run service) (after visits ⟨SourceMap.pages, {}⟩) =
        (.ok (.frames [⟨"/views/child.tpl", 2⟩, ⟨"/views/base.tpl", 2⟩]),
          after visits ⟨SourceMap.pages, {}⟩) := by
  have htemplates : SourceMap.pages.Fits := by
    have hall : ∀ e ∈ SourceMap.pages.templates, Text.Fits e.2.content := by decide
    exact fun path source hsource => hall _ (Assoc.mem_of_lookup hsource)
  have hactions : ∀ a ∈ visits, a.Fits := by
    have hpage : (Action.call (.record "page" "one\ntwo\nthree\n" SourceMap.pageTable)).Fits :=
      ⟨by decide, by decide, by decide⟩
    simp only [visits, List.mem_cons, List.not_mem_nil, or_false]
    rintro a (rfl | rfl | rfl | rfl)
    · exact hpage
    · trivial
    · exact (by decide : Text.Fits "")
    · exact ⟨by decide, by decide, by decide⟩
  have hwrite : ∀ text, .write "page" text ∉ visits := by simp [visits]
  have hanswers := answers_of_history SourceMap.pages visits htemplates hactions
  refine ⟨⟨htemplates, hactions⟩, ?_⟩
  rw [hanswers.recorded "page" hwrite _ rfl]
  rfl

end Memory

end TemplateTrace
