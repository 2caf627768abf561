import TemplateTrace.Proofs.Runs
import TemplateTrace.Store.Basic

namespace TemplateTrace

inductive StoreCall
  | put (key text : String)
  | get (key : String)
  | remove (key : String)
  | keys
  deriving DecidableEq

namespace StoreCall

def key? : StoreCall → Option String
  | put key _ => some key
  | get key => some key
  | remove key => some key
  | keys => none

def Answer : StoreCall → Type
  | put _ _ => Unit
  | get _ => Option String
  | remove _ => Unit
  | keys => List String

instance : (c : StoreCall) → DecidableEq c.Answer
  | put _ _ => inferInstanceAs (DecidableEq Unit)
  | get _ => inferInstanceAs (DecidableEq (Option String))
  | remove _ => inferInstanceAs (DecidableEq Unit)
  | keys => inferInstanceAs (DecidableEq (List String))

def run {m : Type → Type} (s : MapStore m) : (c : StoreCall) → ExceptT Error m c.Answer
  | put key text => s.put key text
  | get key => s.get key
  | remove key => s.remove key
  | keys => s.keys

end StoreCall

structure StoreEvent where
  call : StoreCall
  answer : Except Error call.Answer

def MapStore.events {σ : Type} (s : MapStore (StateM σ)) : List StoreCall → σ → List StoreEvent
  | [], _ => []
  | c :: rest, a => ⟨c, (runFrom (c.run s) a).1⟩ :: s.events rest (runFrom (c.run s) a).2

end TemplateTrace
