import TemplateTrace.Proofs.Files.Viewpoints
import TemplateTrace.Proofs.NormalForm
import TemplateTrace.Proofs.Store.Fresh
import TemplateTrace.Proofs.Templates

/-!
Maps that are recorded in one directory and asked for in another. A loader makes its root absolute
once, so that all filenames of its maps are absolute, and they lead to the same files from everywhere.
-/

namespace TemplateTrace

open FileTree (Blind)

namespace DirectoryLoader

variable {l : DirectoryLoader} {root path file content : String} {table : Table Location}
  {map : SourceMap} {a t u : FileTree}

end DirectoryLoader

theorem SourceMap.mem_files_of_mem_paths {m : SourceMap} (h : m.Closed) {file : String}
    (hfile : file ∈ m.paths) : file ∈ m.files := by
  rw [paths_eq, mem_newIn_iff, mentions_eq] at hfile
  obtain ⟨l, hl, rfl⟩ := List.mem_map.mp hfile.1
  rw [fileName_of_lt (h l hl)]
  exact List.getElem_mem _

namespace DirectoryStore

variable {s : DirectoryStore} {key text : String} {t : FileTree} {time : Nat} {dir : List String}

end DirectoryStore

namespace DirectoryLoader

def site : FileTree where
  nodes := [(["srv"], .dir 0), (["srv", "site"], .dir 0), (["srv", "views"], .dir 0),
    (["srv", "views", "page.tpl"], .file (Text.bytes "one\ntwo\n") 0), (["cache"], .dir 0), (["tmp"], .dir 0)]
  currentDir := ["srv", "site"]
  now := 1

end DirectoryLoader

end TemplateTrace
