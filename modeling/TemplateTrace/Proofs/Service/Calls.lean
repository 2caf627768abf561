import TemplateTrace.Proofs.Runs
import TemplateTrace.Service

namespace TemplateTrace

inductive ServiceCall
  | record (key content : String) (table : Table Location)
  | load (key : String)
  | trace (key : String) (line : Nat)
  | dependencies (key : String)
  | forget (key : String)
  | keys

inductive ServiceAnswer
  | map (map : SourceMap)
  | frames (frames : List Frame)
  | files (files : List String)
  | keys (keys : List String)
  | done
  deriving DecidableEq

namespace ServiceCall

def key? : ServiceCall → Option String
  | record key _ _ => some key
  | load key => some key
  | trace key _ => some key
  | dependencies key => some key
  | forget key => some key
  | keys => none

def asksFor? : ServiceCall → Option String
  | load key => some key
  | trace key _ => some key
  | dependencies key => some key
  | _ => none

def view (map : SourceMap) : ServiceCall → ServiceAnswer
  | trace _ line => .frames (map.stack line)
  | dependencies _ => .files map.paths
  | _ => .map map

def run {m : Type → Type} [Monad m] (s : TraceService m) : ServiceCall → ExceptT Failure m ServiceAnswer
  | record key content table => do return .map (← s.record key content table)
  | load key => do return .map (← s.load key)
  | trace key line => do return .frames (← s.trace key line)
  | dependencies key => do return .files (← s.dependencies key)
  | forget key => do s.forget key; return .done
  | keys => do return .keys (← s.keys)

theorem run_of_asksFor {m : Type → Type} [Monad m] [LawfulMonad m] (s : TraceService m)
    {c : ServiceCall} {key : String} (h : c.asksFor? = some key) :
    c.run s = (do return c.view (← s.load key)) := by
  cases c <;> cases h <;>
    simp only [run, view, TraceService.trace, TraceService.dependencies, bind_assoc, pure_bind]

end ServiceCall

theorem SourceMap.isDecode_of_deserialize {b : Bytes} {e : MapError} (h : deserialize b = .error e) :
    e.isDecode = true := by
  rw [deserialize] at h
  split at h
  · cases h; rfl
  · split at h
    · cases h; rfl
    · split at h
      · cases h; rfl
      · cases h

namespace TraceService

variable {σ : Type} {s : TraceService (StateM σ)} {key : String} {a b c : σ}

theorem runFrom_stored_ok {α : Type} {act : ExceptT Error (StateM σ) α} {x : α}
    (h : runFrom act a = (.ok x, b)) : runFrom (stored act) a = (.ok x, b) :=
  runFrom_adapt_eq_ok_iff.mpr h

theorem runFrom_stored_error {α : Type} {act : ExceptT Error (StateM σ) α} {e : Error}
    (h : runFrom act a = (.error e, b)) : runFrom (stored act) a = (.error (.error e), b) :=
  runFrom_adapt_error h _

theorem state_forget (s : TraceService (StateM σ)) (key : String) (a : σ) :
    (runFrom ((ServiceCall.forget key).run s) a).2 = (runFrom (s.store.remove key) a).2 :=
  congrArg Prod.snd (runFrom_map (s.forget key) (fun _ => ServiceAnswer.done) a)

theorem state_keys (s : TraceService (StateM σ)) (a : σ) :
    (runFrom (ServiceCall.keys.run s) a).2 = (runFrom s.store.keys a).2 :=
  congrArg Prod.snd (runFrom_map s.keys ServiceAnswer.keys a)

theorem load_missing (hget : runFrom (s.store.get key) a = (.ok none, b)) :
    runFrom (s.load key) a = (.error (.error (.notStored key)), b) := by
  rw [load, runFrom_bind_ok (runFrom_stored_ok hget)]
  rfl

theorem load_readable {text : String} {map : SourceMap}
    (hget : runFrom (s.store.get key) a = (.ok (some text), b))
    (hread : SourceMap.deserialize (Text.bytes text) = .ok map) :
    runFrom (s.load key) a = (.ok map, b) := by
  rw [load, runFrom_bind_ok (runFrom_stored_ok hget)]
  simp only [hread]
  rfl

theorem load_unreadable {text : String} {e : MapError}
    (hget : runFrom (s.store.get key) a = (.ok (some text), b))
    (hread : SourceMap.deserialize (Text.bytes text) = .error e)
    (hremove : runFrom (s.store.remove key) b = (.ok (), c)) :
    runFrom (s.load key) a = (.error (.error (.map e)), c) := by
  rw [load, runFrom_bind_ok (runFrom_stored_ok hget)]
  simp only [hread, SourceMap.isDecode_of_deserialize hread, if_true]
  rw [runFrom_bind_ok (runFrom_stored_ok hremove)]
  rfl

theorem load_unremoved {text : String} {e : MapError} {failed : Error}
    (hget : runFrom (s.store.get key) a = (.ok (some text), b))
    (hread : SourceMap.deserialize (Text.bytes text) = .error e)
    (hremove : runFrom (s.store.remove key) b = (.error failed, c)) :
    runFrom (s.load key) a = (.error (.error failed), c) := by
  rw [load, runFrom_bind_ok (runFrom_stored_ok hget)]
  simp only [hread, SourceMap.isDecode_of_deserialize hread, if_true]
  exact runFrom_bind_error (runFrom_stored_error hremove)

theorem load_failed {e : Error} (hget : runFrom (s.store.get key) a = (.error e, b)) :
    runFrom (s.load key) a = (.error (.error e), b) := by
  rw [load, runFrom_bind_error (runFrom_stored_error hget)]

theorem of_load {map : SourceMap} (h : runFrom (s.load key) a = (.ok map, c)) :
    ∃ text, runFrom (s.store.get key) a = (.ok (some text), c) ∧
      SourceMap.deserialize (Text.bytes text) = .ok map := by
  rcases hget : runFrom (s.store.get key) a with ⟨e | _ | text, b⟩
  · rw [load_failed hget] at h
    cases h
  · rw [load_missing hget] at h
    cases h
  · rcases hread : SourceMap.deserialize (Text.bytes text) with e | found
    · rcases hremove : runFrom (s.store.remove key) b with ⟨failed | _, d⟩
      · rw [load_unremoved hget hread hremove] at h
        cases h
      · rw [load_unreadable hget hread hremove] at h
        cases h
    · rw [load_readable hget hread] at h
      cases h
      exact ⟨text, rfl, hread⟩

variable {content : String} {table : Table Location}

theorem record_error {e : Failure}
    (h : runFrom (SourceMap.calculate s.loader.load content table) a = (.error e, b)) :
    runFrom (s.record key content table) a = (.error e, b) := by
  rw [record, runFrom_bind_error h]

theorem record_ok {map : SourceMap}
    (h : runFrom (SourceMap.calculate s.loader.load content table) a = (.ok map, b))
    (hput : runFrom (s.store.put key map.serialize) b = (.ok (), c)) :
    runFrom (s.record key content table) a = (.ok map, c) := by
  rw [record, runFrom_bind_ok h, runFrom_bind_ok (runFrom_stored_ok hput)]
  rfl

theorem record_unstored {map : SourceMap} {e : Error}
    (h : runFrom (SourceMap.calculate s.loader.load content table) a = (.ok map, b))
    (hput : runFrom (s.store.put key map.serialize) b = (.error e, c)) :
    runFrom (s.record key content table) a = (.error (.error e), c) := by
  rw [record, runFrom_bind_ok h, runFrom_bind_error (runFrom_stored_error hput)]

end TraceService

end TemplateTrace
