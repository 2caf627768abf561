import TemplateTrace.Files.Dirs
import TemplateTrace.Proofs.Files.Changes
import TemplateTrace.Proofs.Files.Destinations

namespace TemplateTrace

namespace FileTree

variable {t u v : FileTree} {p : List String} {path : String}

structure Extends (t u : FileTree) : Prop where
  currentDir : u.currentDir = t.currentDir
  look : ∀ p x, t.look? p = some x → u.look? p = some x

theorem Extends.refl (t : FileTree) : Extends t t := ⟨rfl, fun _ _ h => h⟩

theorem Extends.trans (h : Extends t u) (h' : Extends u v) : Extends t v :=
  ⟨h'.currentDir.trans h.currentDir, fun p x hp => h'.look p x (h.look p x hp)⟩

theorem Extends.dirsKept (h : Extends t u) : DirsKept t u := ⟨h.currentDir, fun p => h.look p none⟩

theorem DirsKept.isDir (h : DirsKept t u) (hdir : t.isDir path = true) : u.isDir path = true := by
  obtain ⟨p, hplace, hlook⟩ := isDir_iff.mp hdir
  exact isDir_iff.mpr ⟨p, h.place hplace, h.dir p hlook⟩

theorem currentPath?_eq_some_iff {here : String} :
    t.currentPath? = some here ↔ t.look? t.currentDir = some none ∧ t.currentPath = here := by
  rw [currentPath?, isDirAt, look?_eq_dir_iff]
  rcases t.node? t.currentDir with _ | ⟨content, time⟩ | time <;> simp

theorem DirsKept.currentPath? (h : DirsKept t u) {here : String} (hhere : t.currentPath? = some here) :
    u.currentPath? = some here := by
  rw [currentPath?_eq_some_iff] at hhere ⊢
  rw [currentPath, h.currentDir]
  exact ⟨h.dir _ hhere.1, hhere.2⟩

theorem Extends.readBytes (h : Extends t u) {b : Bytes} (hread : t.readBytes path = .ok b) :
    u.readBytes path = .ok b := by
  obtain ⟨p, hplace, hlook, hslash⟩ := readBytes_eq_ok_iff.mp hread
  exact readBytes_eq_ok_iff.mpr ⟨p, h.dirsKept.place hplace, h.look p _ hlook, hslash⟩

/-- Every directory is one after the change, and no file has become one. -/
structure KindsKept (t u : FileTree) : Prop where
  dirs : DirsKept t u
  files : ∀ p b, t.look? p = some (some b) → u.look? p ≠ some none

theorem Extends.kindsKept (h : Extends t u) (h' : KindsKept u v) : KindsKept t v :=
  ⟨h.dirsKept.trans h'.dirs, fun p b hp => h'.files p b (h.look p _ hp)⟩

theorem kindsKept_of_writeBytes {content : Bytes} (h : t.writeBytes path content = .ok u) :
    KindsKept t u := by
  obtain ⟨p, -, -, -, -, hlook⟩ := look?_of_writeBytes h
  refine ⟨dirsKept_of_writeBytes h, fun q b hq => ?_⟩
  rw [hlook, hq]
  split <;> nofun

theorem KindsKept.append (h : KindsKept t u) {content : Bytes} (happend : u.append path content = .ok v) :
    KindsKept t v := by
  obtain ⟨p, _, -, -, -, hlook⟩ := look?_of_append happend
  refine ⟨h.dirs.trans (dirsKept_of_append happend), fun q b hq => ?_⟩
  rw [hlook]
  split
  · nofun
  · exact h.files q b hq

theorem extends_of_new {x : Option Bytes} (hnew : t.look? p = none) (hcurrent : u.currentDir = t.currentDir)
    (hlook : ∀ q, u.look? q = if q = p then some x else t.look? q) : Extends t u := by
  refine ⟨hcurrent, fun q y hq => ?_⟩
  rw [hlook, if_neg, hq]
  rintro rfl
  rw [hnew] at hq
  cases hq

/-- Nothing has changed but that there may be new directories. -/
structure Grown (t u : FileTree) : Prop where
  currentDir : u.currentDir = t.currentDir
  look : ∀ p, u.look? p = t.look? p ∨ t.look? p = none ∧ u.look? p = some none

namespace Grown

theorem refl (t : FileTree) : Grown t t := ⟨rfl, fun _ => .inl rfl⟩

theorem trans (h : Grown t u) (h' : Grown u v) : Grown t v := by
  refine ⟨h'.currentDir.trans h.currentDir, fun p => ?_⟩
  rcases h'.look p with heq | ⟨hnone, hdir⟩
  · rw [heq]
    exact h.look p
  · rcases h.look p with heq | ⟨hnone', -⟩
    · exact .inr ⟨heq ▸ hnone, hdir⟩
    · exact .inr ⟨hnone', hdir⟩

theorem kept (h : Grown t u) : Extends t u := by
  refine ⟨h.currentDir, fun p x hp => ?_⟩
  rcases h.look p with heq | ⟨hnone, -⟩
  · rw [heq, hp]
  · rw [hnone] at hp
    cases hp

theorem of_makeDir (h : t.makeDir path = .ok u) : Grown t u := by
  obtain ⟨p, -, hnew, hcurrent, hlook⟩ := look?_of_makeDir h
  refine ⟨hcurrent, fun q => ?_⟩
  rw [hlook]
  split
  · rename_i hq
    exact .inr ⟨hq ▸ hnew, rfl⟩
  · exact .inl rfl

theorem walk_error (h : Grown t u) {e : FileError} (he : e ≠ .notFound) {names : List String}
    (hwalk : t.walk p names = .error e) : u.walk p names = .error e := by
  induction names generalizing p with
  | nil => cases hwalk
  | cons name rest ih =>
    have hstep : t.step p name = .error .notFound ∨ u.step p name = t.step p name := by
      rcases h.look p with heq | ⟨hnone, -⟩
      · exact .inr (by rw [step_eq, step_eq, heq])
      · exact .inl (step_none hnone name)
    rw [walk] at hwalk ⊢
    rcases hstep with hmissing | heq
    · rw [hmissing] at hwalk
      cases hwalk
      exact absurd rfl he
    · rw [heq]
      rcases hnext : t.step p name with e' | next
      · rwa [hnext] at hwalk
      · rw [hnext] at hwalk
        exact ih hwalk

theorem place_error (h : Grown t u) {e : FileError} (he : e ≠ .notFound)
    (hplace : t.place path = .error e) : u.place path = .error e := by
  rw [place] at hplace ⊢
  rcases hcheck : checkPath path with e' | _
  · rwa [hcheck] at hplace
  · rw [hcheck] at hplace
    rw [h.kept.dirsKept.origin]
    exact h.walk_error he hplace

theorem readBytes (h : Grown t u)
    (hidden : t.readBytes path = .error .notFound → t.look? (destination t.currentDir path) = none) :
    u.readBytes path = t.readBytes path ∨
      t.readBytes path = .error .notFound ∧ ∃ e, u.readBytes path = .error e := by
  have hnothing : ∀ p, t.look? p = none → u.place path = .ok p → ∃ e, u.readBytes path = .error e := by
    intro p hnone hplace
    rw [readBytes_of_place hplace]
    rcases h.look p with heq | ⟨-, hdir⟩
    · rw [heq, hnone]
      exact ⟨_, rfl⟩
    · rw [hdir]
      exact ⟨_, rfl⟩
  rcases hplace : t.place path with e | p
  · by_cases he : e = .notFound
    · subst he
      have hread := readBytes_of_place_error hplace
      refine .inr ⟨hread, ?_⟩
      rcases hplace' : u.place path with e' | p
      · exact ⟨e', readBytes_of_place_error hplace'⟩
      · apply hnothing p ?_ hplace'
        rw [eq_destination_of_place hplace', h.currentDir]
        exact hidden hread
    · refine .inl ?_
      rw [readBytes_of_place_error hplace, readBytes_of_place_error (h.place_error he hplace)]
  · have hplace' := h.kept.dirsKept.place hplace
    rcases h.look p with heq | ⟨hnone, -⟩
    · refine .inl ?_
      rw [readBytes_of_place hplace, readBytes_of_place hplace', heq]
    · refine .inr ⟨?_, hnothing p hnone hplace'⟩
      rw [readBytes_of_place hplace, hnone]

end Grown

theorem extends_of_makeFile (h : t.makeFile path = .ok u) : Extends t u := by
  obtain ⟨p, -, -, ⟨-, rfl⟩ | ⟨hnew, hcurrent, hlook⟩⟩ := look?_of_makeFile h
  · exact .refl _
  · exact extends_of_new hnew hcurrent hlook

theorem makeFile_again {base name : String} (hname : Path.IsName name)
    (h : t.makeFile (Path.join base name) = .ok u) (hkept : KindsKept u v) :
    ∃ w, v.makeFile (Path.join base name) = .ok w := by
  obtain ⟨p, hplace, hslash, hcases⟩ := look?_of_makeFile h
  have hfile : ∃ b, u.look? p = some (some b) := by
    rcases hcases with ⟨hfile, rfl⟩ | ⟨-, -, hlook⟩
    · exact hfile
    · exact ⟨[], by rw [hlook, if_pos rfl]⟩
  obtain ⟨b, hfile⟩ := hfile
  have hplace' := ((extends_of_makeFile h).kindsKept hkept).dirs.place hplace
  rcases hnow : v.look? p with _ | _ | b'
  · obtain ⟨dir, hlast, rfl⟩ := placeLast_of_place_join hname hplace'
    rw [makeFile_of_new hplace' hnow]
    apply writeBytes_ok hlast hslash
    rw [hnow]
    nofun
  · exact absurd hnow (hkept.files p b hfile)
  · exact ⟨v, makeFile_of_file hplace' hnow hslash⟩

theorem runFrom_change (f : FileTree → Except FileError FileTree) (t : FileTree) :
    runFrom (change f) t =
      match f t with
      | .ok u => (.ok (), u)
      | .error e => (.error e, t) := by
  show change f t = _
  rw [change]
  cases f t <;> rfl

theorem runFrom_change_ok {f : FileTree → Except FileError FileTree} (h : f t = .ok u) :
    runFrom (change f) t = (.ok (), u) := by
  rw [runFrom_change, h]

theorem runFrom_change_error {f : FileTree → Except FileError FileTree} {e : FileError}
    (h : f t = .error e) : runFrom (change f) t = (.error e, t) := by
  rw [runFrom_change, h]

theorem of_change_ok {f : FileTree → Except FileError FileTree}
    (h : runFrom (change f) t = (.ok (), u)) : f t = .ok u := by
  rw [runFrom_change] at h
  split at h
  · rename_i hf
    cases h
    exact hf
  · cases h

theorem of_change_error {f : FileTree → Except FileError FileTree} {e : FileError}
    (h : runFrom (change f) t = (.error e, u)) : u = t := by
  rw [runFrom_change] at h
  split at h
  · cases h
  · cases h
    rfl

theorem runFrom_readText (path : String) (t : FileTree) :
    runFrom (Files.readText path : ExceptT FileError (StateM FileTree) String) t =
      (do match Text.ofBytes? (← t.readBytes path) with
        | some text => .ok text
        | none => .error .notText, t) := by
  rcases h : t.readBytes path with e | b
  · have hrun : runFrom (Files.readBytes path : ExceptT FileError (StateM FileTree) Bytes) t =
        (.error e, t) := congrArg (·, t) h
    exact runFrom_bind_error hrun
  · have hrun : runFrom (Files.readBytes path : ExceptT FileError (StateM FileTree) Bytes) t =
        (.ok b, t) := congrArg (·, t) h
    rw [Files.readText, runFrom_bind_ok hrun, ok_bind]
    rcases Text.ofBytes? b with _ | text <;> rfl

theorem readText_eq_ok_iff {text : String} :
    runFrom (Files.readText path : ExceptT FileError (StateM FileTree) String) t = (.ok text, u) ↔
      t.readBytes path = .ok (Text.bytes text) ∧ t = u := by
  rw [runFrom_readText]
  constructor
  · intro h
    obtain ⟨hread, rfl⟩ := Prod.mk.inj h
    obtain ⟨b, hbytes, hread⟩ := ok_of_bind hread
    split at hread
    · rename_i found hfound
      cases hread
      rw [hbytes, Text.bytes_of_ofBytes? hfound]
      exact ⟨rfl, rfl⟩
    · cases hread
  · rintro ⟨hread, rfl⟩
    rw [hread, ok_bind, Text.ofBytes?_bytes]

theorem makeDir_of_isDir (h : t.isDir path = true) : t.makeDir path = .error .alreadyExists := by
  obtain ⟨p, hplace, hlook⟩ := isDir_iff.mp h
  rcases placeLast_of_place hplace with hlast | ⟨dir, name, hlast, rfl⟩
  · rw [makeDir, hlast]
    rfl
  · obtain ⟨time, hnode⟩ := look?_eq_dir_iff.mp hlook
    rw [makeDir, hlast, ok_bind]
    simp only [hnode]

theorem ensureDir_cases (path : String) (t : FileTree) :
    (∃ u, runFrom (Files.ensureDir path) t = (.ok (), u) ∧ Extends t u ∧ u.isDir path = true) ∨
      ∃ e, runFrom (Files.ensureDir path) t = (.error e, t) := by
  rcases hmake : t.makeDir path with e | u
  · have hrun : runFrom (Files.makeDir path : ExceptT FileError (StateM FileTree) Unit) t =
        (.error e, t) := runFrom_change_error hmake
    have hcatch : runFrom (Files.ensureDir path) t =
        runFrom (if e = .alreadyExists ∧ t.isDir path = true then pure () else throw e :
          ExceptT FileError (StateM FileTree) Unit) t := runFrom_tryCatch_error hrun _
    rw [hcatch]
    by_cases h : e = .alreadyExists ∧ t.isDir path = true
    · rw [if_pos h]
      exact .inl ⟨t, rfl, .refl t, h.2⟩
    · rw [if_neg h]
      exact .inr ⟨e, rfl⟩
  · have hrun : runFrom (Files.makeDir path : ExceptT FileError (StateM FileTree) Unit) t =
        (.ok (), u) := runFrom_change_ok hmake
    rw [Files.ensureDir, runFrom_tryCatch_ok hrun]
    obtain ⟨p, hplace, hnone, hcurrent, hlook⟩ := look?_of_makeDir hmake
    have hextends := extends_of_new hnone hcurrent hlook
    refine .inl ⟨u, rfl, hextends, isDir_iff.mpr ⟨p, hextends.dirsKept.place hplace, ?_⟩⟩
    rw [hlook, if_pos rfl]

theorem ensureDir_of_isDir (h : t.isDir path = true) :
    runFrom (Files.ensureDir path) t = (.ok (), t) := by
  have hrun : runFrom (Files.makeDir path : ExceptT FileError (StateM FileTree) Unit) t =
      (.error .alreadyExists, t) := runFrom_change_error (makeDir_of_isDir h)
  have hcatch : runFrom (Files.ensureDir path) t =
      runFrom (if FileError.alreadyExists = .alreadyExists ∧ t.isDir path = true then pure ()
        else throw .alreadyExists : ExceptT FileError (StateM FileTree) Unit) t :=
    runFrom_tryCatch_error hrun _
  rw [hcatch, if_pos ⟨rfl, h⟩]
  rfl

theorem extends_ensureDirsWithin (above : Nat) (path : String) (t : FileTree) :
    Extends t (runFrom (Files.ensureDirsWithin above path) t).2 := by
  induction above generalizing path t with
  | zero =>
    rcases ensureDir_cases path t with ⟨u, hrun, hextends, -⟩ | ⟨e, hrun⟩
    · rw [Files.ensureDirsWithin, hrun]
      exact hextends
    · rw [Files.ensureDirsWithin, hrun]
      exact .refl t
  | succ above ih =>
    rw [Files.ensureDirsWithin]
    rcases Path.parent? path with _ | parent
    · exact .refl t
    · rcases ensureDir_cases path t with ⟨u, hrun, hextends, -⟩ | ⟨e, hrun⟩
      · simp only
        rw [runFrom_tryCatch_ok hrun]
        exact hextends
      · simp only
        rw [runFrom_tryCatch_error hrun]
        split
        -- The directories above may be made even if this one cannot be.
        · have habove := ih parent t
          rcases hparent : runFrom (Files.ensureDirsWithin above parent) t with ⟨e | _, u⟩
          · rw [runFrom_bind_error hparent]
            rw [hparent] at habove
            exact habove
          · rw [runFrom_bind_ok hparent]
            rw [hparent] at habove
            rcases ensureDir_cases path u with ⟨v, hrun', hextends, -⟩ | ⟨e, hrun'⟩
            · rw [hrun']
              exact habove.trans hextends
            · rw [hrun']
              exact habove
        · exact .refl t

theorem extends_ensureDirs (path : String) (t : FileTree) :
    Extends t (runFrom (Files.ensureDirs path) t).2 := extends_ensureDirsWithin _ path t

theorem isDir_of_ensureDirsWithin {above : Nat}
    (h : runFrom (Files.ensureDirsWithin (above + 1) path) t = (.ok (), u)) :
    Path.parent? path = none ∧ u = t ∨ u.isDir path = true := by
  rw [Files.ensureDirsWithin] at h
  rcases hparent : Path.parent? path with _ | parent
  · rw [hparent] at h
    cases h
    exact .inl ⟨rfl, rfl⟩
  · rw [hparent] at h
    refine .inr ?_
    simp only at h
    rcases ensureDir_cases path t with ⟨v, hrun, -, hdir⟩ | ⟨e, hrun⟩
    · rw [runFrom_tryCatch_ok hrun] at h
      cases h
      exact hdir
    · rw [runFrom_tryCatch_error hrun] at h
      split at h
      · obtain ⟨_, v, -, h⟩ := runFrom_bind_eq_ok h
        rcases ensureDir_cases path v with ⟨w, hrun', -, hdir⟩ | ⟨e, hrun'⟩
        · rw [hrun'] at h
          cases h
          exact hdir
        · rw [hrun'] at h
          cases h
      · cases h

theorem ensureDirs_eq (m : Type → Type) [Monad m] [Files m] (path : String) :
    ∃ above, (Files.ensureDirs path : ExceptT FileError m Unit) =
      Files.ensureDirsWithin (above + 1) path := by
  obtain ⟨part, rest, hcons⟩ := List.exists_cons_of_ne_nil (Path.parts_ne_nil path)
  exact ⟨rest.length, by rw [Files.ensureDirs, hcons, List.length_cons]⟩

theorem ensureDirs_of_isDir (h : t.isDir path = true) :
    runFrom (Files.ensureDirs path) t = (.ok (), t) := by
  obtain ⟨above, heq⟩ := ensureDirs_eq (StateM FileTree) path
  rw [heq, Files.ensureDirsWithin]
  split
  · rfl
  · exact runFrom_tryCatch_ok (ensureDir_of_isDir h) _

theorem ensureDirs_of_makeDir (hparent : Path.parent? path ≠ none) (h : t.makeDir path = .ok u) :
    runFrom (Files.ensureDirs path) t = (.ok (), u) := by
  have hmade : runFrom (Files.makeDir path : ExceptT FileError (StateM FileTree) Unit) t =
      (.ok (), u) := runFrom_change_ok h
  have hensure : runFrom (Files.ensureDir path) t = (.ok (), u) := runFrom_tryCatch_ok hmade _
  obtain ⟨above, heq⟩ := ensureDirs_eq (StateM FileTree) path
  rw [heq, Files.ensureDirsWithin]
  split
  · rename_i hnone
    exact absurd hnone hparent
  · exact runFrom_tryCatch_ok hensure _

theorem ensureDirs_again (h : runFrom (Files.ensureDirs path) t = (.ok (), u)) (hkept : DirsKept u v) :
    runFrom (Files.ensureDirs path) v = (.ok (), v) := by
  obtain ⟨above, heq⟩ := ensureDirs_eq (StateM FileTree) path
  rw [heq] at h
  rcases isDir_of_ensureDirsWithin h with ⟨hparent, -⟩ | hdir
  · rw [heq, Files.ensureDirsWithin, hparent]
    rfl
  · exact ensureDirs_of_isDir (hkept.isDir hdir)

variable {Inv : FileTree → Prop}

theorem preserves_change {f : FileTree → Except FileError FileTree}
    (hf : ∀ t u, Inv t → f t = .ok u → Inv u) : Preserves Inv (change f) := by
  intro t ht
  rw [runFrom_change]
  rcases h : f t with e | u
  · exact ht
  · exact hf t u ht h

theorem preserves_ensureDir
    (hmake : Preserves Inv (Files.makeDir path : ExceptT FileError (StateM FileTree) Unit)) :
    Preserves Inv (Files.ensureDir path) := by
  refine hmake.tryCatch fun e => ?_
  refine Preserves.bind (fun _ h => h) fun isDir => ?_
  split
  · exact .pure ()
  · exact .throw e

theorem preserves_ensureDirsWithin {above : Nat} (hmake : ∀ a ∈ path :: Path.parentsWithin above path,
      Preserves Inv (Files.makeDir a : ExceptT FileError (StateM FileTree) Unit)) :
    Preserves Inv (Files.ensureDirsWithin above path) := by
  induction above generalizing path with
  | zero => exact preserves_ensureDir (hmake path List.mem_cons_self)
  | succ above ih =>
    rw [Files.ensureDirsWithin]
    rw [Path.parentsWithin] at hmake
    have hpath := preserves_ensureDir (hmake path List.mem_cons_self)
    split
    · exact .pure ()
    · rename_i parent hparent
      rw [hparent] at hmake
      have habove := ih fun a ha => hmake a (List.mem_cons_of_mem path ha)
      refine hpath.tryCatch fun e => ?_
      split
      · exact habove.bind fun _ => hpath
      · exact .throw e

theorem preserves_ensureDirs (hmake : ∀ a ∈ Path.ancestors path,
      Preserves Inv (Files.makeDir a : ExceptT FileError (StateM FileTree) Unit)) :
    Preserves Inv (Files.ensureDirs path) := preserves_ensureDirsWithin hmake

structure GrownAt (paths : List String) (t u : FileTree) : Prop where
  grown : Grown t u
  new : ∀ p, t.look? p = none → u.look? p ≠ none → ∃ a ∈ paths, u.place a = .ok p

theorem GrownAt.refl (paths : List String) (t : FileTree) : GrownAt paths t t :=
  ⟨.refl t, fun _ hnone hsome => absurd hnone hsome⟩

theorem GrownAt.makeDir {paths : List String} (h : GrownAt paths t u) (hpath : path ∈ paths)
    (hmake : u.makeDir path = .ok v) : GrownAt paths t v := by
  obtain ⟨p, hplace, -, -, hlook⟩ := look?_of_makeDir hmake
  have hkept := dirsKept_of_makeDir hmake
  refine ⟨h.grown.trans (.of_makeDir hmake), fun q hnone hsome => ?_⟩
  rw [hlook] at hsome
  by_cases hq : q = p
  · exact ⟨path, hpath, hq ▸ hkept.place hplace⟩
  · rw [if_neg hq] at hsome
    obtain ⟨a, ha, hplace'⟩ := h.new q hnone hsome
    exact ⟨a, ha, hkept.place hplace'⟩

theorem grownAt_ensureDirs (path : String) (t : FileTree) :
    GrownAt (Path.ancestors path) t (runFrom (Files.ensureDirs path) t).2 :=
  preserves_ensureDirs (fun _ ha => preserves_change fun _ _ h hmake => h.makeDir ha hmake) t (.refl _ t)

theorem Sound.preserves_ensureDirs (path : String) : Preserves Sound (Files.ensureDirs path) :=
  FileTree.preserves_ensureDirs fun _ _ => preserves_change fun _ _ h hmake => h.makeDir hmake

end FileTree

end TemplateTrace
