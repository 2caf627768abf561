import TemplateTrace.Files.Drive
import TemplateTrace.Proofs.Files.Directories

namespace TemplateTrace.FileTree

variable {drive : Drive} {path text : String} {t u : FileTree} {content : Bytes}

/-- The file of the path holds a beginning of the text, and nothing else has changed. -/
def BrokenOff (path text : String) (t u : FileTree) : Prop :=
  ∃ p content, u.place path = .ok p ∧ content <+: Text.bytes text ∧
    ∀ q, u.look? q = if q = p then some (some content) else t.look? q

theorem brokenOff_of_writeBytes (hpart : content <+: Text.bytes text) (h : t.writeBytes path content = .ok u) :
    BrokenOff path text t u := by
  obtain ⟨p, hplace, -, -, -, hlook⟩ := look?_of_writeBytes h
  exact ⟨p, content, (dirsKept_of_writeBytes h).place hplace, hpart, hlook⟩

theorem of_breaking {write : Bytes → FileTree → Except FileError FileTree} {result : Except FileError Unit}
    (h : runFrom (breaking drive path text write) t = (result, u)) :
    ((∃ e, result = .error e) ∧ u = t) ∨ ∃ content, content <+: Text.bytes text ∧ write content t = .ok u := by
  rw [breaking] at h
  split at h
  · rcases result with e | _
    · exact .inl ⟨⟨e, rfl⟩, of_change_error h⟩
    · exact .inr ⟨_, List.prefix_refl _, of_change_ok h⟩
  · rename_i fault _
    rcases hwrite : runFrom (change (write ((Text.bytes text).take fault.written))) t with ⟨e | _, v⟩
    · rw [runFrom_bind_error hwrite] at h
      cases h
      exact .inl ⟨⟨e, rfl⟩, of_change_error hwrite⟩
    · rw [runFrom_bind_ok hwrite] at h
      cases h
      exact .inr ⟨_, List.take_prefix _ _, of_change_ok hwrite⟩

theorem ensureDirs_onDrive (drive : Drive) (path : String) :
    @Files.ensureDirs (StateM FileTree) _ (onDrive drive) path = Files.ensureDirs path := by
  have hwithin : ∀ above path, @Files.ensureDirsWithin (StateM FileTree) _ (onDrive drive) above path =
      Files.ensureDirsWithin above path := by
    intro above
    induction above with
    | zero => exact fun _ => rfl
    | succ above ih =>
      intro path
      unfold Files.ensureDirsWithin
      simp only [ih]
      rfl
  exact hwithin _ path

end TemplateTrace.FileTree
