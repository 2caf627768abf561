import TemplateTrace.Proofs.Service.Calls
import TemplateTrace.Proofs.Sizes
import TemplateTrace.Proofs.Store.Calls

namespace TemplateTrace

inductive Steps (α : Type)
  | done (a : α)
  | call (c : StoreCall) (next : Except Error c.Answer → Steps α)

namespace Steps

variable {α β γ : Type}

def bind : Steps α → (α → Steps β) → Steps β
  | done a, f => f a
  | call c next, f => call c fun answer => (next answer).bind f

instance : Monad Steps where
  pure := done
  bind := bind

theorem bind_done (x : Steps α) : x.bind done = x := by
  induction x with
  | done a => rfl
  | call c next ih => exact congrArg (call c) (funext ih)

theorem bind_bind (x : Steps α) (f : α → Steps β) (g : β → Steps γ) :
    (x.bind f).bind g = x.bind fun a => (f a).bind g := by
  induction x with
  | done a => rfl
  | call c next ih => exact congrArg (call c) (funext ih)

instance : LawfulMonad Steps :=
  LawfulMonad.mk' Steps bind_done (fun _ _ => rfl) bind_bind

def store : MapStore Steps where
  put key text := ExceptT.mk (call (.put key text) done)
  get key := ExceptT.mk (call (.get key) done)
  remove key := ExceptT.mk (call (.remove key) done)
  keys := ExceptT.mk (call .keys done)

def next? : Steps α → Option StoreCall
  | done _ => none
  | call c _ => some c

end Steps

namespace SourceMap

variable {m : Type → Type} [Monad m] [LawfulMonad m] {ε α β : Type}

def settled (x : Except ε α) : ExceptT ε m α := ExceptT.mk (pure x)

theorem settled_bind (x : Except ε α) (f : α → Except ε β) :
    (settled x >>= fun a => settled (f a) : ExceptT ε m β) = settled (x >>= f) := by
  cases x with
  | error e => exact pure_bind (m := m) (Except.error e) _
  | ok a => exact pure_bind (m := m) (Except.ok a) _

def answersAtOnce (load : String → Except ε Source) : List String → Except ε (Assoc String Source)
  | [] => .ok []
  | path :: rest => do return (path, ← load path) :: (← answersAtOnce load rest)

def built (load : String → Except ε Source) (content : String) (table : Table Location) :
    Except ε SourceMap := do
  return assemble (Text.bytes content) table
    (← answersAtOnce load (loadOrder (Text.bytes content) table))

theorem loadAll_settled (load : String → Except ε Source) (paths : List String) :
    loadAll (m := m) (fun path => settled (load path)) paths =
      settled (answersAtOnce load paths) := by
  induction paths with
  | nil => rfl
  | cons path rest ih =>
    rw [loadAll_cons, ih, answersAtOnce, ← settled_bind]
    exact bind_congr fun source => settled_bind _ fun answers => .ok ((path, source) :: answers)

theorem calculate_settled (load : String → Except ε Source) (content : String)
    (table : Table Location) :
    calculate (m := m) (fun path => settled (load path)) content table =
      settled (built load content table) := by
  rw [calculate_eq, loadAll_settled]
  exact settled_bind _ fun answers => .ok (assemble (Text.bytes content) table answers)

theorem read_built_at_once {load : String → Except ε Source} {content : String}
    {table : Table Location} {map : SourceMap} (h : built load content table = .ok map)
    (hcontent : Text.Fits content) (htable : TableFits table)
    (hsources : ∀ path source, load path = .ok source → Text.Fits source.content)
    (hdepth : ∀ e ∈ table.entries, e.2.depth ≤ maxLinks) :
    deserialize (Text.bytes map.serialize) = .ok map := by
  have hrun : runFrom (calculate (m := StateM Unit) (fun path => settled (load path)) content table) ()
      = (.ok map, ()) := by
    rw [calculate_settled, h]
    rfl
  have hkeeps : ∀ path (u : Unit), True →
      (fun _ => True) (runFrom (settled (m := StateM Unit) (load path)) u).2 := fun _ _ _ => trivial
  have hgood : ∀ path (u : Unit) (source : Source), True →
      (runFrom (settled (m := StateM Unit) (load path)) u).1 = .ok source →
      Text.Fits source.content := fun path _ source _ hload => hsources path source hload
  have hfits := fits_of_keeps hrun hkeeps hgood trivial hcontent htable
  exact read_built hrun hfits fun e he => hdepth e (List.mem_of_mem_filter he)

end SourceMap

structure Request where
  call : ServiceCall
  load : String → Except Failure Source

namespace Request

def loader (q : Request) : Loader Steps where
  load path := SourceMap.settled (q.load path)
  contains path := SourceMap.settled (.ok (q.load path).isOk)

def service (q : Request) : TraceService Steps := ⟨q.loader, Steps.store⟩

def steps (q : Request) : Steps (Except Failure ServiceAnswer) := (q.call.run q.service).run

theorem steps_read {q : Request} {key : String} (h : q.call.asksFor? = some key) :
    q.steps = .call (.get key) fun
      | .error e => .done (.error (.error e))
      | .ok none => .done (.error (.error (.notStored key)))
      | .ok (some text) =>
        match SourceMap.deserialize (Text.bytes text) with
        | .ok map => .done (.ok (q.call.view map))
        | .error e => .call (.remove key) fun
          | .error failed => .done (.error (.error failed))
          | .ok _ => .done (.error (.error (.map e))) := by
  rw [steps, ServiceCall.run_of_asksFor q.service h]
  refine congrArg (Steps.call (.get key)) (funext fun answer => ?_)
  rcases answer with e | _ | text
  · rfl
  · rfl
  · simp only [Steps.bind, Function.comp, ExceptT.bindCont]
    delta Except.mapError
    rcases hread : SourceMap.deserialize (Text.bytes text) with e | map
    · simp only [hread, SourceMap.isDecode_of_deserialize hread, if_true]
      refine congrArg (Steps.call (.remove key)) (funext fun answer => ?_)
      cases answer <;> rfl
    · simp only [hread]
      rfl

theorem steps_record {q : Request} {key content : String} {table : Table Location}
    (h : q.call = .record key content table) :
    q.steps = match SourceMap.built q.load content table with
      | .error e => .done (.error e)
      | .ok map => .call (.put key map.serialize) fun
        | .error failed => .done (.error (.error failed))
        | .ok _ => .done (.ok (.map map)) := by
  have hcalculate : SourceMap.calculate q.service.loader.load content table =
      SourceMap.settled (SourceMap.built q.load content table) :=
    SourceMap.calculate_settled q.load content table
  rw [steps, h, ServiceCall.run, TraceService.record, hcalculate]
  rcases SourceMap.built q.load content table with e | map
  · rfl
  · refine congrArg (Steps.call (.put key map.serialize)) (funext fun answer => ?_)
    cases answer <;> rfl

theorem steps_forget {q : Request} {key : String} (h : q.call = .forget key) :
    q.steps = .call (.remove key) fun
      | .error failed => .done (.error (.error failed))
      | .ok _ => .done (.ok .done) := by
  rw [steps, h]
  refine congrArg (Steps.call (.remove key)) (funext fun answer => ?_)
  cases answer <;> rfl

theorem steps_keys {q : Request} (h : q.call = .keys) :
    q.steps = .call .keys fun
      | .error failed => .done (.error (.error failed))
      | .ok keys => .done (.ok (.keys keys)) := by
  rw [steps, h]
  refine congrArg (Steps.call .keys) (funext fun answer => ?_)
  cases answer <;> rfl

end Request

end TemplateTrace
