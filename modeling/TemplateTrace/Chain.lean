
namespace TemplateTrace

@[ext]
structure Chain (α : Type) where
  innermost : α
  enclosing : List α
  deriving DecidableEq

namespace Chain

variable {α β : Type}

def links (c : Chain α) : List α := c.innermost :: c.enclosing

def depth (c : Chain α) : Nat := c.links.length

def within (a : α) (parent : Option (Chain α)) : Chain α :=
  ⟨a, (parent.map links).getD []⟩

def parent (c : Chain α) : Option (Chain α) :=
  match c.enclosing with
  | [] => none
  | a :: rest => some ⟨a, rest⟩

def mapM {m : Type → Type} [Monad m] (f : α → m β) (c : Chain α) : m (Chain β) := do
  let a ← f c.innermost
  return ⟨a, ← c.enclosing.mapM f⟩

theorem links_within (a : α) (p : Option (Chain α)) :
    (within a p).links = a :: (p.map links).getD [] := rfl

theorem within_parent (c : Chain α) : within c.innermost c.parent = c := by
  obtain ⟨a, _ | ⟨b, rest⟩⟩ := c <;> rfl

theorem depth_pos (c : Chain α) : 0 < c.depth := by simp [depth, links]

end Chain

end TemplateTrace
