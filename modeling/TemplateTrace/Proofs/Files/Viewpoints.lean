import TemplateTrace.Proofs.Files.Components
import TemplateTrace.Proofs.Files.Directories

namespace TemplateTrace

namespace Path

variable {base path : String}

end Path

namespace FileTree

variable {t u : FileTree} {path : String} {α β ε δ : Type}

def seenFrom (t : FileTree) (dir : List String) : FileTree := { t with currentDir := dir }

@[simp] theorem step_seenFrom (t : FileTree) (dir : List String) : (t.seenFrom dir).step = t.step := rfl

@[simp] theorem drop_seenFrom (t : FileTree) (dir place : List String) :
    (t.seenFrom dir).drop place = (t.drop place).seenFrom dir := rfl

@[simp] theorem walk_seenFrom (t : FileTree) (dir place steps : List String) :
    (t.seenFrom dir).walk place steps = t.walk place steps := by
  induction steps generalizing place with
  | nil => rfl
  | cons name rest ih => simp [walk, ih]

/-- The action gives the same result from everywhere, and changes the same. -/
def Blind (act : ExceptT ε (StateM FileTree) α) : Prop :=
  ∀ t dir, runFrom act (t.seenFrom dir) = ((runFrom act t).1, (runFrom act t).2.seenFrom dir)

variable {x : ExceptT ε (StateM FileTree) α}

theorem Blind.pure (a : α) : Blind (Pure.pure a : ExceptT ε (StateM FileTree) α) := fun _ _ => rfl

theorem Blind.throw (e : ε) : Blind (MonadExcept.throw e : ExceptT ε (StateM FileTree) α) := fun _ _ => rfl

theorem Blind.bind {f : α → ExceptT ε (StateM FileTree) β} (hx : Blind x) (hf : ∀ a, Blind (f a)) :
    Blind (x >>= f) := by
  intro t dir
  have hseen := hx t dir
  rcases hrun : runFrom x t with ⟨e | a, u⟩
  · rw [hrun] at hseen
    rw [runFrom_bind_error hrun, runFrom_bind_error hseen]
  · rw [hrun] at hseen
    rw [runFrom_bind_ok hrun, runFrom_bind_ok hseen]
    exact hf a u dir

theorem Blind.tryCatch {f : ε → ExceptT ε (StateM FileTree) α} (hx : Blind x) (hf : ∀ e, Blind (f e)) :
    Blind (tryCatch x f) := by
  intro t dir
  have hseen := hx t dir
  rcases hrun : runFrom x t with ⟨e | a, u⟩
  · rw [hrun] at hseen
    rw [runFrom_tryCatch_error hrun, runFrom_tryCatch_error hseen]
    exact hf e u dir
  · rw [hrun] at hseen
    rw [runFrom_tryCatch_ok hrun, runFrom_tryCatch_ok hseen]

theorem Blind.adapt (hx : Blind x) (f : ε → δ) : Blind (x.adapt f) := by
  intro t dir
  rw [runFrom_adapt, runFrom_adapt, hx t dir]

end FileTree

end TemplateTrace
