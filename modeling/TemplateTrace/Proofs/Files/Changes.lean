import TemplateTrace.Proofs.Assoc
import TemplateTrace.Proofs.Files.Walks

namespace TemplateTrace

def Node.stat : Node → Option (Bytes × Nat)
  | file content time => some (content, time)
  | dir _ => none

namespace FileTree

variable {t u : FileTree} {p q dir : List String} {path name : String} {content : Bytes}

theorem node?_of_ne_nil (t : FileTree) (hp : p ≠ []) : t.node? p = Assoc.lookup p t.nodes := by
  rw [node?, if_neg hp]

/-- What is at a place, with the time of a file but not of a directory, which changes with every
entry that is made or removed there. -/
def stat? (t : FileTree) (p : List String) : Option (Option (Bytes × Nat)) := (t.node? p).map Node.stat

theorem look?_eq_stat? (t : FileTree) (p : List String) :
    t.look? p = (t.stat? p).map (Option.map Prod.fst) := by
  rw [look?, stat?]
  rcases t.node? p with _ | ⟨content, time⟩ | time <;> rfl

theorem stat?_eq_dir_iff : t.stat? p = some none ↔ t.look? p = some none := by
  rw [look?_eq_stat?]
  rcases t.stat? p with _ | _ | ⟨content, time⟩ <;> simp

theorem stat?_eq_none_iff : t.stat? p = none ↔ t.look? p = none := by
  rw [look?_eq_stat?, Option.map_eq_none_iff]

theorem stat?_eq_file_iff {b : Bytes} {time : Nat} :
    t.stat? p = some (some (b, time)) ↔ t.node? p = some (.file b time) := by
  rw [stat?]
  rcases t.node? p with _ | ⟨content, time⟩ | time <;> simp [Node.stat]

theorem stat?_set (hp : p ≠ []) (hparent : t.look? p.dropLast = some none) (node : Nat → Node)
    (q : List String) :
    (t.set p node).stat? q = if q = p then some (node t.now).stat else t.stat? q := by
  rw [← stat?_eq_dir_iff] at hparent
  by_cases hq : q = []
  · subst hq
    rw [if_neg (Ne.symm hp)]
    rfl
  · rw [stat?, node?_of_ne_nil _ hq, set, Assoc.lookup_insert]
    by_cases hqp : q = p
    · rw [if_pos hqp, if_pos hqp]
      rfl
    · rw [if_neg hqp, if_neg hqp]
      split
      · rw [Assoc.lookup_insert]
        split
        · rename_i heq
          subst heq
          exact hparent.symm
        · rw [stat?, node?_of_ne_nil t hq]
      · rw [stat?, node?_of_ne_nil t hq]

theorem stat?_drop (hp : p ≠ []) (hparent : t.look? p.dropLast = some none) (q : List String) :
    (t.drop p).stat? q = if q = p then none else t.stat? q := by
  rw [← stat?_eq_dir_iff] at hparent
  have hne : p ≠ p.dropLast := by
    intro heq
    have hlt := congrArg List.length heq
    have hpos := List.length_pos_of_ne_nil hp
    rw [List.length_dropLast] at hlt
    omega
  by_cases hq : q = []
  · subst hq
    rw [if_neg (Ne.symm hp)]
    rfl
  · have herase : Assoc.lookup q (Assoc.erase p t.nodes) = if q = p then none else Assoc.lookup q t.nodes :=
      Assoc.lookup_erase _ _ _
    have hstat : ((if q = p then none else Assoc.lookup q t.nodes).map Node.stat) =
        if q = p then none else t.stat? q := by
      rw [stat?, node?_of_ne_nil t hq]
      split <;> rfl
    rw [stat?, node?_of_ne_nil _ hq, ← hstat, ← herase, drop]
    dsimp only
    split
    · rw [Assoc.lookup_insert]
      split
      · rename_i heq
        subst heq
        rw [herase, hstat, if_neg (Ne.symm hne), hparent]
        rfl
      · rfl
    · rfl

theorem node?_set_of_ne {q : List String} (hq : q ≠ p) (hparent : q ≠ p.dropLast)
    (node : Nat → Node) : (t.set p node).node? q = t.node? q := by
  by_cases hroot : q = []
  · subst hroot
    rfl
  · rw [node?_of_ne_nil _ hroot, node?_of_ne_nil _ hroot, set, Assoc.lookup_insert, if_neg hq]
    split
    · rw [Assoc.lookup_insert, if_neg hparent]
    · rfl

theorem node?_drop_of_ne {q : List String} (hq : q ≠ p) (hparent : q ≠ p.dropLast) :
    (t.drop p).node? q = t.node? q := by
  by_cases hroot : q = []
  · subst hroot
    rfl
  · rw [node?_of_ne_nil _ hroot, node?_of_ne_nil _ hroot, drop]
    dsimp only
    split
    · rw [Assoc.lookup_insert, if_neg hparent, Assoc.lookup_erase, if_neg hq]
    · rw [Assoc.lookup_erase, if_neg hq]

theorem later_set {q : List String} {node : Nat → Node} {x : Node}
    (hnode : (node t.now).modified = t.now) (h : (t.set p node).node? q = some x) :
    t.node? q = some x ∨ x.modified = t.now := by
  by_cases hroot : q = []
  · subst hroot
    exact .inl h
  · rw [node?_of_ne_nil _ hroot] at h ⊢
    rw [set, Assoc.lookup_insert] at h
    split at h
    · cases h
      exact .inr hnode
    · split at h
      · rw [Assoc.lookup_insert] at h
        split at h
        · cases h
          exact .inr rfl
        · exact .inl h
      · exact .inl h

theorem later_drop {q : List String} {x : Node} (h : (t.drop p).node? q = some x) :
    t.node? q = some x ∨ x.modified = t.now := by
  by_cases hroot : q = []
  · subst hroot
    exact .inl h
  · have herase : Assoc.lookup q (Assoc.erase p t.nodes) = some x → Assoc.lookup q t.nodes = some x := by
      rw [Assoc.lookup_erase]
      split
      · intro h
        cases h
      · exact id
    rw [node?_of_ne_nil _ hroot] at h ⊢
    rw [drop] at h
    dsimp only at h
    split at h
    · rw [Assoc.lookup_insert] at h
      split at h
      · cases h
        exact .inr rfl
      · exact .inl (herase h)
    · exact .inl (herase h)

theorem look?_set (hp : p ≠ []) (hparent : t.look? p.dropLast = some none) (node : Nat → Node)
    (q : List String) :
    (t.set p node).look? q = if q = p then some (node t.now).content? else t.look? q := by
  rw [look?_eq_stat?, look?_eq_stat?, stat?_set hp hparent, apply_ite (Option.map _)]
  rcases node t.now with ⟨content, time⟩ | time <;> rfl

theorem look?_drop (hp : p ≠ []) (hparent : t.look? p.dropLast = some none) (q : List String) :
    (t.drop p).look? q = if q = p then none else t.look? q := by
  rw [look?_eq_stat?, look?_eq_stat?, stat?_drop hp hparent, apply_ite (Option.map _)]
  rfl

theorem dirsKept_of_look? {x : Option (Option Bytes)} (hp : t.look? p ≠ some none)
    (hcurrent : u.currentDir = t.currentDir)
    (hlook : ∀ q, u.look? q = if q = p then x else t.look? q) : DirsKept t u := by
  refine ⟨hcurrent, fun q hq => ?_⟩
  rw [hlook, if_neg, hq]
  rintro rfl
  exact hp hq

theorem find_of_place (h : t.place path = .ok p) :
    t.find path = match t.node? p with
      | none => .error .notFound
      | some (.dir time) => .ok (.dir time)
      | some (.file content time) =>
        if Path.endsWithSlash path then .error .notDirectory else .ok (.file content time) := by
  rw [find, h]
  rfl

theorem find_eq_file_iff {b : Bytes} {time : Nat} :
    t.find path = .ok (.file b time) ↔
      ∃ p, t.place path = .ok p ∧ t.node? p = some (.file b time) ∧
        Path.endsWithSlash path = false := by
  constructor
  · intro h
    obtain ⟨p, hplace, -⟩ := ok_of_bind h
    rw [find_of_place hplace] at h
    split at h
    · cases h
    · cases h
    · rename_i hnode
      split at h
      · cases h
      · rename_i hslash
        cases h
        exact ⟨p, hplace, hnode, Bool.eq_false_iff.mpr hslash⟩
  · rintro ⟨p, hplace, hnode, hslash⟩
    rw [find_of_place hplace, hnode]
    simp [hslash]

theorem find_eq_dir_iff {time : Nat} :
    t.find path = .ok (.dir time) ↔ ∃ p, t.place path = .ok p ∧ t.node? p = some (.dir time) := by
  constructor
  · intro h
    obtain ⟨p, hplace, -⟩ := ok_of_bind h
    rw [find_of_place hplace] at h
    split at h
    · cases h
    · rename_i hnode
      cases h
      exact ⟨p, hplace, hnode⟩
    · split at h <;> cases h
  · rintro ⟨p, hplace, hnode⟩
    rw [find_of_place hplace, hnode]

theorem readBytes_eq_ok_iff {b : Bytes} :
    t.readBytes path = .ok b ↔
      ∃ p, t.place path = .ok p ∧ t.look? p = some (some b) ∧ Path.endsWithSlash path = false := by
  simp only [look?_eq_file_iff]
  constructor
  · intro h
    rw [readBytes] at h
    obtain ⟨node, hfind, h⟩ := ok_of_bind h
    rcases node with ⟨content, time⟩ | time
    · cases h
      obtain ⟨p, hplace, hnode, hslash⟩ := find_eq_file_iff.mp hfind
      exact ⟨p, hplace, ⟨time, hnode⟩, hslash⟩
    · cases h
  · rintro ⟨p, hplace, ⟨time, hnode⟩, hslash⟩
    rw [readBytes, find_eq_file_iff.mpr ⟨p, hplace, hnode, hslash⟩]
    rfl

theorem readBytes_of_place (h : t.place path = .ok p) :
    t.readBytes path = match t.look? p with
      | none => .error .notFound
      | some none => .error .isDirectory
      | some (some b) => if Path.endsWithSlash path then .error .notDirectory else .ok b := by
  rw [readBytes, find_of_place h, look?]
  rcases t.node? p with _ | ⟨content, time⟩ | time
  · rfl
  · cases hslash : Path.endsWithSlash path <;> rfl
  · rfl

theorem readBytes_of_place_error {e : FileError} (h : t.place path = .error e) :
    t.readBytes path = .error e := by
  rw [readBytes, find, h]
  rfl

theorem readBytes_of_find {b : Bytes} {x : Node} (h : t.find path = .ok x) (hx : x.content? = some b) :
    t.readBytes path = .ok b := by
  rw [readBytes, h, ok_bind]
  rcases x with ⟨content, time⟩ | time
  · cases hx
    rfl
  · cases hx

theorem of_modified? {time : Nat} (h : t.modified? path = some time) :
    ∃ p x, t.find path = .ok x ∧ t.place path = .ok p ∧ t.node? p = some x ∧ x.modified = time := by
  rw [modified?] at h
  split at h
  · rename_i x hfind
    cases h
    rcases x with ⟨content, time⟩ | time
    · obtain ⟨p, hplace, hnode, -⟩ := find_eq_file_iff.mp hfind
      exact ⟨p, _, hfind, hplace, hnode, rfl⟩
    · obtain ⟨p, hplace, hnode⟩ := find_eq_dir_iff.mp hfind
      exact ⟨p, _, hfind, hplace, hnode, rfl⟩
  · cases h

theorem isFile_iff : t.isFile path = true ↔ ∃ b, t.readBytes path = .ok b := by
  constructor
  · intro h
    rw [isFile] at h
    split at h
    · rename_i content time hfind
      refine ⟨content, ?_⟩
      rw [readBytes, hfind]
      rfl
    · cases h
  · rintro ⟨b, h⟩
    obtain ⟨⟨content, time⟩ | time, hfind, h⟩ := ok_of_bind h
    · rw [isFile, hfind]
    · cases h

theorem isDir_iff : t.isDir path = true ↔ ∃ p, t.place path = .ok p ∧ t.look? p = some none := by
  simp only [look?_eq_dir_iff]
  constructor
  · intro h
    rw [isDir] at h
    split at h
    · rename_i time hfind
      obtain ⟨p, hplace, hnode⟩ := find_eq_dir_iff.mp hfind
      exact ⟨p, hplace, time, hnode⟩
    · cases h
  · rintro ⟨p, hplace, time, hnode⟩
    rw [isDir, find_eq_dir_iff.mpr ⟨p, hplace, hnode⟩]

theorem look?_dropLast_concat (h : t.look? dir = some none) :
    t.look? (dir ++ [name]).dropLast = some none := by
  rwa [List.dropLast_concat]

theorem of_writeBytes (h : t.writeBytes path content = .ok u) :
    ∃ dir name, t.place path = .ok (dir ++ [name]) ∧ t.look? dir = some none ∧
      Path.endsWithSlash path = false ∧ t.look? (dir ++ [name]) ≠ some none ∧
      u = t.set (dir ++ [name]) (.file content) := by
  obtain ⟨last, hlast, h⟩ := ok_of_bind h
  rcases last with ⟨dir, name⟩ | _
  · obtain ⟨hplace, hdir⟩ := of_placeLast_name hlast
    simp only at h
    split at h
    · cases h
    · rename_i hslash
      split at h
      · cases h
      · rename_i hnode
        cases h
        refine ⟨dir, name, hplace, hdir, Bool.eq_false_iff.mpr hslash, ?_, rfl⟩
        rw [ne_eq, look?_eq_dir_iff]
        rintro ⟨time, htime⟩
        exact hnode time htime
  · cases h

theorem of_makeDir (h : t.makeDir path = .ok u) :
    ∃ dir name, t.place path = .ok (dir ++ [name]) ∧ t.look? dir = some none ∧
      t.look? (dir ++ [name]) = none ∧ u = t.set (dir ++ [name]) .dir := by
  obtain ⟨last, hlast, h⟩ := ok_of_bind h
  rcases last with ⟨dir, name⟩ | _
  · obtain ⟨hplace, hdir⟩ := of_placeLast_name hlast
    simp only at h
    split at h
    · cases h
    · rename_i hnode
      cases h
      exact ⟨dir, name, hplace, hdir, look?_eq_none_iff.mpr hnode, rfl⟩
  · cases h

theorem of_removeFile (h : t.removeFile path = .ok u) :
    ∃ dir name b, t.place path = .ok (dir ++ [name]) ∧ t.look? dir = some none ∧
      t.look? (dir ++ [name]) = some (some b) ∧ u = t.drop (dir ++ [name]) := by
  obtain ⟨last, hlast, h⟩ := ok_of_bind h
  rcases last with ⟨dir, name⟩ | _
  · obtain ⟨hplace, hdir⟩ := of_placeLast_name hlast
    simp only at h
    split at h
    · cases h
    · cases h
    · rename_i b time hnode
      split at h
      · cases h
      · cases h
        exact ⟨dir, name, b, hplace, hdir, look?_eq_file_iff.mpr ⟨time, hnode⟩, rfl⟩
  · cases h

theorem of_rename {source target : String} (h : t.rename source target = .ok u) :
    ∃ dir name dir' name' b time, t.place source = .ok (dir ++ [name]) ∧ t.look? dir = some none ∧
      t.node? (dir ++ [name]) = some (.file b time) ∧ t.place target = .ok (dir' ++ [name']) ∧
      t.look? dir' = some none ∧ t.look? (dir' ++ [name']) ≠ some none ∧
      u = (t.drop (dir ++ [name])).set (dir' ++ [name']) fun _ => .file b time := by
  obtain ⟨node, hfind, h⟩ := ok_of_bind h
  obtain ⟨last, hsource, h⟩ := ok_of_bind h
  obtain ⟨last', htarget, h⟩ := ok_of_bind h
  rcases node with ⟨b, time⟩ | time
  · rcases last with ⟨dir, name⟩ | _
    · rcases last' with ⟨dir', name'⟩ | _
      · obtain ⟨hplace, hdir⟩ := of_placeLast_name hsource
        obtain ⟨hplace', hdir'⟩ := of_placeLast_name htarget
        obtain ⟨p, hp, hnode, -⟩ := find_eq_file_iff.mp hfind
        cases hp.symm.trans hplace
        simp only at h
        split at h
        · cases h
        · rename_i hnode'
          cases h
          refine ⟨dir, name, dir', name', b, time, hplace, hdir, hnode, hplace', hdir', ?_, rfl⟩
          rw [ne_eq, look?_eq_dir_iff]
          rintro ⟨time', htime'⟩
          exact hnode' time' htime'
      · cases h
    · cases h
  · cases h

theorem stat?_of_writeBytes (h : t.writeBytes path content = .ok u) :
    ∃ p, t.place path = .ok p ∧ Path.endsWithSlash path = false ∧ t.look? p ≠ some none ∧
      u.currentDir = t.currentDir ∧
      ∀ q, u.stat? q = if q = p then some (some (content, t.now)) else t.stat? q := by
  obtain ⟨dir, name, hplace, hdir, hslash, hnode, rfl⟩ := of_writeBytes h
  exact ⟨_, hplace, hslash, hnode, rfl, stat?_set (by simp) (look?_dropLast_concat hdir) _⟩

theorem look?_of_writeBytes (h : t.writeBytes path content = .ok u) :
    ∃ p, t.place path = .ok p ∧ Path.endsWithSlash path = false ∧ t.look? p ≠ some none ∧
      u.currentDir = t.currentDir ∧ ∀ q, u.look? q = if q = p then some (some content) else t.look? q := by
  obtain ⟨p, hplace, hslash, hnode, hcurrent, hstat⟩ := stat?_of_writeBytes h
  refine ⟨p, hplace, hslash, hnode, hcurrent, fun q => ?_⟩
  rw [look?_eq_stat?, look?_eq_stat?, hstat, apply_ite (Option.map _)]
  rfl

theorem look?_of_makeDir (h : t.makeDir path = .ok u) :
    ∃ p, t.place path = .ok p ∧ t.look? p = none ∧ u.currentDir = t.currentDir ∧
      ∀ q, u.look? q = if q = p then some none else t.look? q := by
  obtain ⟨dir, name, hplace, hdir, hnode, rfl⟩ := of_makeDir h
  exact ⟨_, hplace, hnode, rfl, look?_set (by simp) (look?_dropLast_concat hdir) _⟩

theorem stat?_of_removeFile (h : t.removeFile path = .ok u) :
    ∃ p b, t.place path = .ok p ∧ t.look? p = some (some b) ∧ u.currentDir = t.currentDir ∧
      ∀ q, u.stat? q = if q = p then none else t.stat? q := by
  obtain ⟨dir, name, b, hplace, hdir, hfile, rfl⟩ := of_removeFile h
  exact ⟨_, b, hplace, hfile, rfl, stat?_drop (by simp) (look?_dropLast_concat hdir)⟩

theorem look?_of_removeFile (h : t.removeFile path = .ok u) :
    ∃ p b, t.place path = .ok p ∧ t.look? p = some (some b) ∧ u.currentDir = t.currentDir ∧
      ∀ q, u.look? q = if q = p then none else t.look? q := by
  obtain ⟨p, b, hplace, hfile, hcurrent, hstat⟩ := stat?_of_removeFile h
  refine ⟨p, b, hplace, hfile, hcurrent, fun q => ?_⟩
  rw [look?_eq_stat?, look?_eq_stat?, hstat, apply_ite (Option.map _)]
  rfl

theorem look?_drop_dir {b : Bytes} {dir' : List String} (hdir : t.look? dir = some none)
    (hfile : t.look? (dir ++ [name]) = some (some b)) (hdir' : t.look? dir' = some none) :
    (t.drop (dir ++ [name])).look? dir' = some none := by
  rw [look?_drop (by simp) (look?_dropLast_concat hdir), if_neg, hdir']
  rintro rfl
  rw [hfile] at hdir'
  cases hdir'

theorem stat?_of_rename {source target : String} (h : t.rename source target = .ok u) :
    ∃ p q b time, t.place source = .ok p ∧ t.place target = .ok q ∧ t.stat? p = some (some (b, time)) ∧
      t.look? q ≠ some none ∧ u.currentDir = t.currentDir ∧
      ∀ r, u.stat? r = if r = q then some (some (b, time)) else if r = p then none else t.stat? r := by
  obtain ⟨dir, name, dir', name', b, time, hplace, hdir, hnode, hplace', hdir', hnode', rfl⟩ :=
    of_rename h
  have hdir'' := look?_drop_dir hdir (look?_eq_file_iff.mpr ⟨time, hnode⟩) hdir'
  refine ⟨_, _, b, time, hplace, hplace', stat?_eq_file_iff.mpr hnode, hnode', rfl, fun r => ?_⟩
  rw [stat?_set (by simp) (look?_dropLast_concat hdir''),
    stat?_drop (by simp) (look?_dropLast_concat hdir)]
  rfl

theorem look?_of_rename {source target : String} (h : t.rename source target = .ok u) :
    ∃ p q b, t.place source = .ok p ∧ t.place target = .ok q ∧ t.look? p = some (some b) ∧
      t.look? q ≠ some none ∧ u.currentDir = t.currentDir ∧
      ∀ r, u.look? r = if r = q then some (some b) else if r = p then none else t.look? r := by
  obtain ⟨p, q, b, time, hplace, hplace', hfile, hnode, hcurrent, hstat⟩ := stat?_of_rename h
  refine ⟨p, q, b, hplace, hplace', by rw [look?_eq_stat?, hfile]; rfl, hnode, hcurrent, fun r => ?_⟩
  rw [look?_eq_stat?, look?_eq_stat?, hstat, apply_ite (Option.map _), apply_ite (Option.map _)]
  rfl

theorem dirsKept_of_writeBytes (h : t.writeBytes path content = .ok u) : DirsKept t u := by
  obtain ⟨p, -, -, hdir, hcurrent, hlook⟩ := look?_of_writeBytes h
  exact dirsKept_of_look? hdir hcurrent hlook

theorem dirsKept_of_makeDir (h : t.makeDir path = .ok u) : DirsKept t u := by
  obtain ⟨p, -, hnew, hcurrent, hlook⟩ := look?_of_makeDir h
  refine dirsKept_of_look? ?_ hcurrent hlook
  rw [hnew]
  nofun

theorem dirsKept_of_removeFile (h : t.removeFile path = .ok u) : DirsKept t u := by
  obtain ⟨p, b, -, hfile, hcurrent, hlook⟩ := look?_of_removeFile h
  refine dirsKept_of_look? ?_ hcurrent hlook
  rw [hfile]
  nofun

theorem dirsKept_of_rename {source target : String} (h : t.rename source target = .ok u) :
    DirsKept t u := by
  obtain ⟨p, q, b, -, -, hfile, hnode, hcurrent, hlook⟩ := look?_of_rename h
  refine ⟨hcurrent, fun r hr => ?_⟩
  have hrq : r ≠ q := fun heq => hnode (heq ▸ hr)
  have hrp : r ≠ p := by
    rintro rfl
    rw [hfile] at hr
    cases hr
  rw [hlook, if_neg hrq, if_neg hrp, hr]

/-- A change at one place: what it makes there, and in the directory that the place is in, has the
time of the change. -/
structure Edited (p : List String) (t u : FileTree) : Prop where
  dirs : DirsKept t u
  now : t.now < u.now
  later : ∀ q x, u.node? q = some x → t.node? q = some x ∨ t.now ≤ x.modified
  frame : ∀ q, q ≠ p → q ≠ p.dropLast → u.node? q = t.node? q

theorem Edited.set {node : Nat → Node} (hdirs : DirsKept t (t.set p node))
    (hnode : (node t.now).modified = t.now) : Edited p t (t.set p node) where
  dirs := hdirs
  now := Nat.lt_succ_self _
  later _ _ h := (later_set hnode h).imp_right fun heq => Nat.le_of_eq heq.symm
  frame _ hq hparent := node?_set_of_ne hq hparent node

theorem edited_of_writeBytes (h : t.writeBytes path content = .ok u) :
    ∃ p, t.place path = .ok p ∧ Edited p t u := by
  have hdirs := dirsKept_of_writeBytes h
  obtain ⟨dir, name, hplace, -, -, -, rfl⟩ := of_writeBytes h
  exact ⟨_, hplace, .set hdirs rfl⟩

theorem edited_of_makeDir (h : t.makeDir path = .ok u) : ∃ p, t.place path = .ok p ∧ Edited p t u := by
  have hdirs := dirsKept_of_makeDir h
  obtain ⟨dir, name, hplace, -, -, rfl⟩ := of_makeDir h
  exact ⟨_, hplace, .set hdirs rfl⟩

theorem edited_of_removeFile (h : t.removeFile path = .ok u) :
    ∃ p, t.place path = .ok p ∧ Edited p t u := by
  have hdirs := dirsKept_of_removeFile h
  obtain ⟨dir, name, b, hplace, -, -, rfl⟩ := of_removeFile h
  exact ⟨_, hplace, hdirs, Nat.lt_succ_self _,
    fun _ _ h => (later_drop h).imp_right fun heq => Nat.le_of_eq heq.symm,
    fun _ hq hparent => node?_drop_of_ne hq hparent⟩

theorem frame_of_rename {source target : String} (h : t.rename source target = .ok u) :
    ∃ p q, t.place source = .ok p ∧ t.place target = .ok q ∧ t.now ≤ u.now ∧
      ∀ r, r ≠ p → r ≠ p.dropLast → r ≠ q → r ≠ q.dropLast → u.node? r = t.node? r := by
  obtain ⟨dir, name, dir', name', b, time, hplace, -, -, hplace', -, -, rfl⟩ := of_rename h
  refine ⟨_, _, hplace, hplace', Nat.le_add_right _ 2, fun r hp hparent hq hparent' => ?_⟩
  rw [node?_set_of_ne hq hparent', node?_drop_of_ne hp hparent]

theorem readBytes_of_writeBytes (h : t.writeBytes path content = .ok u) : u.readBytes path = .ok content := by
  obtain ⟨p, hplace, hslash, -, -, hlook⟩ := look?_of_writeBytes h
  refine readBytes_eq_ok_iff.mpr ⟨p, (dirsKept_of_writeBytes h).place hplace, ?_, hslash⟩
  rw [hlook, if_pos rfl]

theorem readBytes_of_removeFile (h : t.removeFile path = .ok u) : u.readBytes path = .error .notFound := by
  obtain ⟨p, b, hplace, -, -, hlook⟩ := look?_of_removeFile h
  have hplace' := (dirsKept_of_removeFile h).place hplace
  have hnone : u.look? p = none := by rw [hlook, if_pos rfl]
  rw [readBytes, find_of_place hplace', look?_eq_none_iff.mp hnone]
  rfl

theorem readBytes_of_removeFile_error (h : t.removeFile path = .error .notFound) :
    t.readBytes path = .error .notFound := by
  rcases hlast : t.placeLast path with e | ⟨dir, name⟩ | _
  · rw [removeFile, hlast] at h
    cases h
    exact readBytes_of_place_error (place_of_placeLast_error hlast)
  · rw [readBytes_of_place (of_placeLast_name hlast).1, look?]
    rw [removeFile, hlast, ok_bind] at h
    rcases hnode : t.node? (dir ++ [name]) with _ | ⟨b, time⟩ | time
    · rfl
    · simp only [hnode] at h
      split at h <;> cases h
    · simp only [hnode] at h
      cases h
  · rw [removeFile, hlast] at h
    cases h

theorem makeFile_of_file {b : Bytes} (hplace : t.place path = .ok p) (hfile : t.look? p = some (some b))
    (hslash : Path.endsWithSlash path = false) : t.makeFile path = .ok t := by
  obtain ⟨time, hnode⟩ := look?_eq_file_iff.mp hfile
  rw [makeFile, find_eq_file_iff.mpr ⟨p, hplace, hnode, hslash⟩]

theorem makeFile_of_new (hplace : t.place path = .ok p) (hnew : t.look? p = none) :
    t.makeFile path = t.writeBytes path [] := by
  rw [makeFile, find_of_place hplace, look?_eq_none_iff.mp hnew]

theorem look?_of_makeFile (h : t.makeFile path = .ok u) :
    ∃ p, t.place path = .ok p ∧ Path.endsWithSlash path = false ∧
      ((∃ b, t.look? p = some (some b)) ∧ u = t ∨
        t.look? p = none ∧ u.currentDir = t.currentDir ∧
          ∀ q, u.look? q = if q = p then some (some []) else t.look? q) := by
  rcases hfind : t.find path with e | ⟨b, time⟩ | time
  case ok.file =>
    obtain ⟨p, hplace, hnode, hslash⟩ := find_eq_file_iff.mp hfind
    have hfile := look?_eq_file_iff.mpr ⟨time, hnode⟩
    rw [makeFile_of_file hplace hfile hslash] at h
    cases h
    exact ⟨p, hplace, hslash, .inl ⟨⟨b, hfile⟩, rfl⟩⟩
  all_goals
    have hwrite : t.writeBytes path [] = .ok u := by
      rw [makeFile, hfind] at h
      exact h
    obtain ⟨p, hplace, hslash, hdir, hcurrent, hlook⟩ := look?_of_writeBytes hwrite
    refine ⟨p, hplace, hslash, ?_⟩
    rcases hp : t.look? p with _ | _ | b
    · exact .inr ⟨rfl, hcurrent, hlook⟩
    · exact absurd hp hdir
    · rw [makeFile_of_file hplace hp hslash] at h
      cases h
      exact .inl ⟨⟨b, rfl⟩, rfl⟩

theorem look?_of_append (h : t.append path content = .ok u) :
    ∃ p b, t.place path = .ok p ∧ t.look? p = some (some b) ∧ u.currentDir = t.currentDir ∧
      ∀ q, u.look? q = if q = p then some (some (b ++ content)) else t.look? q := by
  obtain ⟨⟨b, time⟩ | time, hfind, h⟩ := ok_of_bind h
  · obtain ⟨p, hplace, hnode, -⟩ := find_eq_file_iff.mp hfind
    have hfile := look?_eq_file_iff.mpr ⟨time, hnode⟩
    refine ⟨p, b, hplace, hfile, ?_⟩
    dsimp only at h
    split at h
    · rename_i hempty
      cases h
      refine ⟨rfl, fun q => ?_⟩
      split
      · subst_vars
        rw [hfile, List.append_nil]
      · rfl
    · obtain ⟨q, hplace', -, -, hcurrent, hlook⟩ := look?_of_writeBytes h
      cases hplace.symm.trans hplace'
      exact ⟨hcurrent, hlook⟩
  · cases h

theorem dirsKept_of_append (h : t.append path content = .ok u) : DirsKept t u := by
  obtain ⟨p, b, -, hfile, hcurrent, hlook⟩ := look?_of_append h
  refine dirsKept_of_look? ?_ hcurrent hlook
  rw [hfile]
  nofun

theorem readBytes_of_append {other : String} (h : t.append other content = .ok u)
    (hplace : t.place path = .ok p) (hother : t.place other ≠ .ok p) : u.readBytes path = t.readBytes path := by
  obtain ⟨q, b, hplace', -, -, hlook⟩ := look?_of_append h
  have hlook' : u.look? p = t.look? p := by
    rw [hlook, if_neg]
    rintro rfl
    exact hother hplace'
  rw [readBytes_of_place hplace, readBytes_of_place ((dirsKept_of_append h).place hplace), hlook']

def Sound (t : FileTree) : Prop := (Assoc.keys t.nodes).Nodup

instance (t : FileTree) : Decidable t.Sound := inferInstanceAs (Decidable (List.Nodup _))

theorem Sound.set (h : t.Sound) (p : List String) (node : Nat → Node) : (t.set p node).Sound := by
  apply Assoc.nodup_keys_insert
  split
  · exact Assoc.nodup_keys_insert _ _ h
  · exact h

theorem Sound.drop (h : t.Sound) (p : List String) : (t.drop p).Sound := by
  rw [Sound, FileTree.drop]
  dsimp only
  split
  · exact Assoc.nodup_keys_insert _ _ (Assoc.nodup_keys_erase _ h)
  · exact Assoc.nodup_keys_erase _ h

theorem Sound.writeBytes (h : t.Sound) (hwrite : t.writeBytes path content = .ok u) : u.Sound := by
  obtain ⟨dir, name, -, -, -, -, rfl⟩ := of_writeBytes hwrite
  exact h.set _ _

theorem Sound.makeDir (h : t.Sound) (hmake : t.makeDir path = .ok u) : u.Sound := by
  obtain ⟨dir, name, -, -, -, rfl⟩ := of_makeDir hmake
  exact h.set _ _

theorem Sound.removeFile (h : t.Sound) (hremove : t.removeFile path = .ok u) : u.Sound := by
  obtain ⟨dir, name, b, -, -, -, rfl⟩ := of_removeFile hremove
  exact h.drop _

theorem Sound.rename (h : t.Sound) {source target : String}
    (hrename : t.rename source target = .ok u) : u.Sound := by
  obtain ⟨dir, name, dir', name', b, time, -, -, -, -, -, -, rfl⟩ := of_rename hrename
  exact (h.drop _).set _ _

theorem writeBytes_ok (hlast : t.placeLast path = .ok (.name dir name))
    (hslash : Path.endsWithSlash path = false) (hnode : t.look? (dir ++ [name]) ≠ some none)
    (content : Bytes) : ∃ u, t.writeBytes path content = .ok u := by
  rw [writeBytes, hlast, ok_bind]
  simp only [hslash]
  rcases h : t.node? (dir ++ [name]) with _ | ⟨b, time⟩ | time
  · exact ⟨_, rfl⟩
  · exact ⟨_, rfl⟩
  · exact absurd (look?_eq_dir_iff.mpr ⟨time, h⟩) hnode

theorem removeFile_ok (hlast : t.placeLast path = .ok (.name dir name))
    (hslash : Path.endsWithSlash path = false) {b : Bytes} (hfile : t.look? (dir ++ [name]) = some (some b)) :
    t.removeFile path = .ok (t.drop (dir ++ [name])) := by
  obtain ⟨time, hnode⟩ := look?_eq_file_iff.mp hfile
  rw [removeFile, hlast, ok_bind]
  simp only [hnode, hslash]
  rfl

theorem rename_ok {source target : String} {dir' : List String} {name' : String} {b : Bytes}
    (hsource : t.placeLast source = .ok (.name dir name))
    (hslash : Path.endsWithSlash source = false) (hfile : t.look? (dir ++ [name]) = some (some b))
    (htarget : t.placeLast target = .ok (.name dir' name'))
    (hnode : t.look? (dir' ++ [name']) ≠ some none) : ∃ u, t.rename source target = .ok u := by
  obtain ⟨time, hsourceNode⟩ := look?_eq_file_iff.mp hfile
  have hplace := (of_placeLast_name hsource).1
  rw [rename, find_eq_file_iff.mpr ⟨_, hplace, hsourceNode, hslash⟩, ok_bind, hsource, ok_bind,
    htarget, ok_bind]
  simp only
  rcases h : t.node? (dir' ++ [name']) with _ | ⟨b, time⟩ | time
  · exact ⟨_, rfl⟩
  · exact ⟨_, rfl⟩
  · exact absurd (look?_eq_dir_iff.mpr ⟨time, h⟩) hnode

theorem dropLast_getLast?_iff {p dir : List String} {name : String} :
    (if p.dropLast = dir then p.getLast? else none) = some name ↔ p = dir ++ [name] := by
  constructor
  · intro h
    split at h
    · rename_i hdir
      obtain ⟨before, hbefore⟩ := List.getLast?_eq_some_iff.mp h
      rw [hbefore, List.dropLast_concat] at hdir
      rw [hbefore, hdir]
    · cases h
  · rintro rfl
    rw [if_pos (List.dropLast_concat ..), List.getLast?_concat]

theorem mem_filesIn_node_iff :
    name ∈ t.filesIn dir ↔ ∃ b time, (dir ++ [name], Node.file b time) ∈ t.nodes := by
  rw [filesIn, List.mem_filterMap]
  constructor
  · rintro ⟨⟨p, ⟨b, time⟩ | time⟩, hmem, hname⟩
    · cases dropLast_getLast?_iff.mp hname
      exact ⟨b, time, hmem⟩
    · cases hname
  · rintro ⟨b, time, hmem⟩
    exact ⟨_, hmem, dropLast_getLast?_iff.mpr rfl⟩

theorem mem_filesIn_iff (h : t.Sound) :
    name ∈ t.filesIn dir ↔ ∃ b, t.look? (dir ++ [name]) = some (some b) := by
  simp only [mem_filesIn_node_iff, look?_eq_file_iff, node?_of_ne_nil t (List.concat_ne_nil name dir)]
  refine exists_congr fun b => exists_congr fun time => ?_
  exact ⟨Assoc.lookup_of_mem h, Assoc.mem_of_lookup⟩

theorem nodup_filesIn (h : t.Sound) (dir : List String) : (t.filesIn dir).Nodup := by
  have hnodes : t.nodes.Pairwise fun a b => a.1 ≠ b.1 := List.pairwise_map.mp h
  refine hnodes.filterMap _ ?_
  rintro ⟨p, ⟨b, time⟩ | time⟩ ⟨p', ⟨b', time'⟩ | time'⟩ hne name hname other hother heq
  · cases dropLast_getLast?_iff.mp hname
    cases dropLast_getLast?_iff.mp hother
    exact hne (congrArg (fun n => dir ++ [n]) heq)
  · cases hother
  · cases hname
  · cases hname

end FileTree

end TemplateTrace
