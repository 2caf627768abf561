import TemplateTrace.Json.Numeral
import TemplateTrace.Proofs.Files.Changes

namespace TemplateTrace

open Json (maxCount)

namespace FileTree

variable {t : FileTree}

def Fits (t : FileTree) : Prop := ∀ p b, t.look? p = some (some b) → b.length < maxCount

theorem fits_of_nodes
    (h : ∀ e ∈ t.nodes, (e.2.content?.map List.length).getD 0 < maxCount) : t.Fits := by
  intro p b hlook
  by_cases hp : p = []
  · rw [hp, look?_root] at hlook
    cases hlook
  · obtain ⟨time, hnode⟩ := look?_eq_file_iff.mp hlook
    rw [node?_of_ne_nil t hp] at hnode
    exact h _ (Assoc.mem_of_lookup hnode)

end FileTree

inductive Edit
  | write (path : String) (content : Bytes)
  | remove (path : String)
  | makeDir (path : String)

namespace Edit

def path : Edit → String
  | write path _ => path
  | remove path => path
  | makeDir path => path

def apply (t : FileTree) : Edit → Except FileError FileTree
  | write path content => t.writeBytes path content
  | remove path => t.removeFile path
  | makeDir path => t.makeDir path

def run (e : Edit) (t : FileTree) : FileTree :=
  match e.apply t with
  | .ok u => u
  | .error _ => t

def Fits : Edit → Prop
  | write _ content => content.length < maxCount
  | _ => True

variable {e : Edit} {t u : FileTree}

theorem edited (h : e.apply t = .ok u) :
    ∃ p, t.place e.path = .ok p ∧ FileTree.Edited p t u := by
  cases e with
  | write path content => exact FileTree.edited_of_writeBytes h
  | remove path => exact FileTree.edited_of_removeFile h
  | makeDir path => exact FileTree.edited_of_makeDir h

theorem Fits.file (hfits : e.Fits) (h : e.apply t = .ok u) {p : List String} {b : Bytes}
    (hfile : u.look? p = some (some b)) : t.look? p = some (some b) ∨ b.length < maxCount := by
  cases e with
  | write path content =>
    obtain ⟨q, -, -, -, -, hlook⟩ := FileTree.look?_of_writeBytes h
    rw [hlook] at hfile
    split at hfile
    · cases hfile
      exact .inr hfits
    · exact .inl hfile
  | remove path =>
    obtain ⟨q, b', -, -, -, hlook⟩ := FileTree.look?_of_removeFile h
    rw [hlook] at hfile
    split at hfile
    · cases hfile
    · exact .inl hfile
  | makeDir path =>
    obtain ⟨q, -, -, -, hlook⟩ := FileTree.look?_of_makeDir h
    rw [hlook] at hfile
    split at hfile
    · cases hfile
    · exact .inl hfile

end Edit

end TemplateTrace
