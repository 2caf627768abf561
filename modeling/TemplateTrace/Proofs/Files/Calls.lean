import TemplateTrace.Proofs.Files.Directories

/-!
Operations on files cut into the calls that they make, between which others may do theirs. A file
that is open stays the same file when it is moved: what is written to it afterwards is found at its
new place.
-/

namespace TemplateTrace

inductive FileCall
  | currentDir
  | accountHome
  | readBytes (path : String)
  | openNew (path : String)
  | write (file : Nat) (content : Bytes)
  | makeFile (path : String)
  | append (path text : String)
  | makeDir (path : String)
  | rename (source target : String)
  | removeFile (path : String)
  | modified? (path : String)
  | isFile (path : String)
  | isDir (path : String)
  | fileNames (path : String)

def FileCall.Answer : FileCall → Type
  | currentDir => Option String
  | accountHome => Option String
  | readBytes _ => Except FileError Bytes
  | openNew _ => Except FileError Nat
  | write _ _ => Unit
  | makeFile _ => Except FileError Unit
  | append _ _ => Except FileError Unit
  | makeDir _ => Except FileError Unit
  | rename _ _ => Except FileError Unit
  | removeFile _ => Except FileError Unit
  | modified? _ => Option Nat
  | isFile _ => Bool
  | isDir _ => Bool
  | fileNames _ => Except FileError (List String)

/-- A file tree, and where the files are that have been opened. One that was removed or replaced is
nowhere. -/
structure Disk where
  tree : FileTree
  opened : List (Option (List String)) := []

namespace Disk

def openNew (d : Disk) (path : String) : Except FileError Disk := do
  let tree ← d.tree.writeBytes path []
  return ⟨{ tree with now := d.tree.now }, d.opened ++ [some (← d.tree.place path)]⟩

def write (d : Disk) (file : Nat) (content : Bytes) : Disk :=
  match d.opened[file]?.join with
  | none => d
  | some p =>
    match d.tree.node? p with
    | some (.file old _) => { d with tree := d.tree.set p (.file (content ++ old.drop content.length)) }
    | _ => d

def rename (d : Disk) (source target : String) : Except FileError Disk := do
  let tree ← d.tree.rename source target
  let p ← d.tree.place source
  let q ← d.tree.place target
  let moved := fun r => if r = p then some q else if r = q then none else some r
  return ⟨tree, d.opened.map (·.bind moved)⟩

def removeFile (d : Disk) (path : String) : Except FileError Disk := do
  let tree ← d.tree.removeFile path
  let p ← d.tree.place path
  return ⟨tree, d.opened.map (·.filter (· ≠ p))⟩

def change (d : Disk) (f : FileTree → Except FileError FileTree) : Except FileError Disk := do
  return { d with tree := ← f d.tree }

def settle {α : Type} (d : Disk) (a : α) : Except FileError Disk → Except FileError α × Disk
  | .ok d' => (.ok a, d')
  | .error e => (.error e, d)

end Disk

def FileCall.run (d : Disk) : (c : FileCall) → c.Answer × Disk
  | currentDir => (d.tree.currentPath?, d)
  | accountHome => (d.tree.accountHome, d)
  | readBytes path => (d.tree.readBytes path, d)
  | openNew path => d.settle d.opened.length (d.openNew path)
  | write file content => ((), d.write file content)
  | makeFile path => d.settle () (d.change (·.makeFile path))
  | append path text => d.settle () (d.change (·.append path (Text.bytes text)))
  | makeDir path => d.settle () (d.change (·.makeDir path))
  | rename source target => d.settle () (d.rename source target)
  | removeFile path => d.settle () (d.removeFile path)
  | modified? path => (d.tree.modified? path, d)
  | isFile path => (d.tree.isFile path, d)
  | isDir path => (d.tree.isDir path, d)
  | fileNames path => (d.tree.fileNames path, d)

namespace Disk

variable {d d' : Disk} {path : String} {file : Nat} {p : List String}

theorem look?_of_openNew (h : d.openNew path = .ok d') :
    ∃ p, d.tree.place path = .ok p ∧ d'.opened = d.opened ++ [some p] ∧
      Path.endsWithSlash path = false ∧ d.tree.look? p ≠ some none ∧
      d'.tree.currentDir = d.tree.currentDir ∧
      ∀ q, d'.tree.look? q = if q = p then some (some []) else d.tree.look? q := by
  obtain ⟨tree, hwrite, h⟩ := ok_of_bind h
  obtain ⟨p, hplace, h⟩ := ok_of_bind h
  cases h
  obtain ⟨q, hq, hslash, hdir, hcurrent, hlook⟩ := FileTree.look?_of_writeBytes hwrite
  cases hq.symm.trans hplace
  exact ⟨p, hplace, rfl, hslash, hdir, hcurrent, hlook⟩

theorem look?_write (hopen : d.opened[file]? = some (some p)) (hp : p ≠ [])
    (hparent : d.tree.look? p.dropLast = some none) {old : Bytes}
    (hfile : d.tree.look? p = some (some old)) (content : Bytes) :
    (d.write file content).tree.currentDir = d.tree.currentDir ∧
      ∀ q, (d.write file content).tree.look? q =
        if q = p then some (some (content ++ old.drop content.length)) else d.tree.look? q := by
  obtain ⟨time, hnode⟩ := FileTree.look?_eq_file_iff.mp hfile
  have hwrite : d.write file content =
      { d with tree := d.tree.set p (.file (content ++ old.drop content.length)) } := by
    simp only [write, hopen, Option.join_some, hnode]
  rw [hwrite]
  exact ⟨rfl, FileTree.look?_set hp hparent _⟩

theorem of_rename {source target : String} (h : d.rename source target = .ok d') :
    d.tree.rename source target = .ok d'.tree := by
  obtain ⟨tree, hrename, h⟩ := ok_of_bind h
  obtain ⟨p, -, h⟩ := ok_of_bind h
  obtain ⟨q, -, h⟩ := ok_of_bind h
  cases h
  exact hrename

end Disk

inductive Calls (α : Type)
  | done (a : α)
  | call (c : FileCall) (next : c.Answer → Calls α)

namespace Calls

variable {α β γ : Type}

def bind : Calls α → (α → Calls β) → Calls β
  | done a, f => f a
  | call c next, f => call c fun answer => (next answer).bind f

instance : Monad Calls where
  pure := done
  bind := bind

theorem bind_done (x : Calls α) : x.bind done = x := by
  induction x with
  | done a => rfl
  | call c next ih => exact congrArg (call c) (funext ih)

theorem bind_bind (x : Calls α) (f : α → Calls β) (g : β → Calls γ) :
    (x.bind f).bind g = x.bind fun a => (f a).bind g := by
  induction x with
  | done a => rfl
  | call c next ih => exact congrArg (call c) (funext ih)

instance : LawfulMonad Calls :=
  LawfulMonad.mk' Calls bind_done (fun _ _ => rfl) bind_bind

def ask (c : FileCall) : Calls c.Answer := call c done

instance : Files Calls where
  currentDir := ask .currentDir
  accountHome := ask .accountHome
  readBytes path := ExceptT.mk (ask (.readBytes path))
  -- The file is open between the two calls.
  writeText path text := do
    let file ← ExceptT.mk (ask (.openNew path))
    ExceptT.lift (ask (.write file (Text.bytes text)))
  makeFile path := ExceptT.mk (ask (.makeFile path))
  append path text := ExceptT.mk (ask (.append path text))
  makeDir path := ExceptT.mk (ask (.makeDir path))
  rename source target := ExceptT.mk (ask (.rename source target))
  removeFile path := ExceptT.mk (ask (.removeFile path))
  modified? path := ask (.modified? path)
  isFile path := ask (.isFile path)
  isDir path := ask (.isDir path)
  fileNames path := ExceptT.mk (ask (.fileNames path))

def opens : Calls α → Bool
  | call (.openNew _) _ => true
  | _ => false

/-- The next call changes a file that was opened before, or moves it. -/
def holds : Calls α → Bool
  | call (.write _ _) _ => true
  | call (.rename _ _) _ => true
  | _ => false

def result? : Calls α → Option α
  | done a => some a
  | call _ _ => none

def alone : Calls α → Disk → α × Disk
  | done a, d => (a, d)
  | call c next, d => (next (c.run d).1).alone (c.run d).2

end Calls

namespace FileTree

variable {t : FileTree} {path : String}

theorem writeBytes_cases (t : FileTree) (path : String) :
    (∃ e, ∀ content, t.writeBytes path content = .error e) ∨
      ∃ dir name, t.place path = .ok (dir ++ [name]) ∧
        ∀ content, t.writeBytes path content = .ok (t.set (dir ++ [name]) (.file content)) := by
  rcases hlast : t.placeLast path with e | ⟨dir, name⟩ | _
  · refine .inl ⟨e, fun content => ?_⟩
    rw [writeBytes, hlast]
    rfl
  · cases hslash : Path.endsWithSlash path with
    | true =>
      refine .inl ⟨.isDirectory, fun content => ?_⟩
      rw [writeBytes, hlast, ok_bind]
      simp only [hslash, if_true]
    | false =>
      by_cases hdir : t.look? (dir ++ [name]) = some none
      · obtain ⟨time, hnode⟩ := look?_eq_dir_iff.mp hdir
        refine .inl ⟨.isDirectory, fun content => ?_⟩
        rw [writeBytes, hlast, ok_bind]
        simp only [hslash, hnode, Bool.false_eq_true, if_false]
      · refine .inr ⟨dir, name, (of_placeLast_name hlast).1, fun content => ?_⟩
        obtain ⟨u, hwrite⟩ := writeBytes_ok hlast hslash hdir content
        obtain ⟨dir', name', hplace, -, -, -, rfl⟩ := of_writeBytes hwrite
        rw [(of_placeLast_name hlast).1] at hplace
        rw [hwrite, ← Except.ok.inj hplace]
  · refine .inl ⟨.isDirectory, fun content => ?_⟩
    rw [writeBytes, hlast]
    rfl

theorem set_set (p : List String) (first second : Nat → Node) :
    ({ t.set p first with now := t.now }).set p second = t.set p second := by
  have hthere : (Assoc.lookup p (t.set p first).nodes).isNone = false := by
    rw [set, Assoc.lookup_insert, if_pos rfl]
    rfl
  rw [set, hthere]
  simp only [Bool.false_eq_true, false_and, if_false]
  simp only [set, Assoc.insert_insert]

end FileTree

namespace Calls

variable {α β γ : Type}

theorem alone_bind (x : Calls α) (f : α → Calls β) (d : Disk) :
    (x.bind f).alone d = (f (x.alone d).1).alone (x.alone d).2 := by
  induction x generalizing d with
  | done a => rfl
  | call c next ih => exact ih _ _

def Alike (x : Calls α) (y : StateM FileTree α) : Prop :=
  ∀ d, (x.alone d).1 = (y d.tree).1 ∧ (x.alone d).2.tree = (y d.tree).2

theorem Alike.done (a : α) : Alike (.done a) (pure a) := fun _ => ⟨rfl, rfl⟩

theorem Alike.bind {x : Calls α} {y : StateM FileTree α} {f : α → Calls β}
    {g : α → StateM FileTree β} (hx : Alike x y) (hf : ∀ a, Alike (f a) (g a)) :
    Alike (x.bind f) (y >>= g) := by
  intro d
  obtain ⟨hanswer, htree⟩ := hx d
  have hy : (y >>= g) d.tree = g (x.alone d).1 (x.alone d).2.tree := by
    rw [hanswer, htree]
    rfl
  rw [alone_bind, hy]
  exact hf _ _

theorem alike_ask {c : FileCall} {y : StateM FileTree c.Answer}
    (h : ∀ d, (c.run d).1 = (y d.tree).1 ∧ (c.run d).2.tree = (y d.tree).2) : Alike (ask c) y := h

theorem settle_alike {f : FileTree → Except FileError FileTree} {d : Disk} {r : Except FileError Disk}
    (h : r.map Disk.tree = f d.tree) :
    (d.settle () r).1 = (runFrom (FileTree.change f) d.tree).1 ∧
      (d.settle () r).2.tree = (runFrom (FileTree.change f) d.tree).2 := by
  rw [FileTree.runFrom_change, ← h]
  rcases r with e | d' <;> exact ⟨rfl, rfl⟩

theorem alike_makeDir (path : String) :
    Alike (Files.makeDir path : ExceptT FileError Calls Unit).run
      (Files.makeDir path : ExceptT FileError (StateM FileTree) Unit).run := by
  refine alike_ask fun d => settle_alike (f := (·.makeDir path)) ?_
  rw [Disk.change]
  rcases d.tree.makeDir path with e | tree <;> rfl

theorem alike_removeFile (path : String) :
    Alike (Files.removeFile path : ExceptT FileError Calls Unit).run
      (Files.removeFile path : ExceptT FileError (StateM FileTree) Unit).run := by
  refine alike_ask fun d => settle_alike (f := (·.removeFile path)) ?_
  rw [Disk.removeFile]
  rcases hremove : d.tree.removeFile path with e | tree
  · rfl
  · obtain ⟨p, -, hplace, -⟩ := FileTree.look?_of_removeFile hremove
    rw [ok_bind, hplace]
    rfl

theorem alike_rename (source target : String) :
    Alike (Files.rename source target : ExceptT FileError Calls Unit).run
      (Files.rename source target : ExceptT FileError (StateM FileTree) Unit).run := by
  refine alike_ask fun d => settle_alike (f := (·.rename source target)) ?_
  rw [Disk.rename]
  rcases hrename : d.tree.rename source target with e | tree
  · rfl
  · obtain ⟨p, q, -, hp, hq, -⟩ := FileTree.look?_of_rename hrename
    rw [ok_bind, hp, ok_bind, hq]
    rfl

theorem run_writeText (path text : String) :
    (Files.writeText path text : ExceptT FileError Calls Unit).run = .call (.openNew path) fun
      | .ok file => .call (.write file (Text.bytes text)) fun _ => .done (.ok ())
      | .error e => .done (.error e) := by
  refine congrArg (call (.openNew path)) (funext fun r => ?_)
  rcases r with e | file <;> rfl

theorem run_readText (path : String) :
    (Files.readText path : ExceptT FileError Calls String).run = .call (.readBytes path) fun
      | .ok b =>
        match Text.ofBytes? b with
        | some text => .done (.ok text)
        | none => .done (.error .notText)
      | .error e => .done (.error e) := by
  rw [Files.readText, ExceptT.run_bind]
  refine congrArg (call (.readBytes path)) (funext fun r => ?_)
  rcases r with e | b
  · rfl
  · dsimp only [bind]
    rcases Text.ofBytes? b with _ | text <;> rfl

theorem alike_writeText (path text : String) :
    Alike (Files.writeText path text : ExceptT FileError Calls Unit).run
      (Files.writeText path text : ExceptT FileError (StateM FileTree) Unit).run := by
  intro d
  have hwhole : (Files.writeText path text : ExceptT FileError (StateM FileTree) Unit).run d.tree =
      runFrom (FileTree.change (·.writeBytes path (Text.bytes text))) d.tree := rfl
  rw [hwhole, FileTree.runFrom_change, run_writeText, alone]
  rcases d.tree.writeBytes_cases path with ⟨e, herror⟩ | ⟨dir, name, hplace, hwrite⟩
  · have hopen : FileCall.run d (.openNew path) = (.error e, d) := by
      rw [FileCall.run, Disk.openNew, herror]
      rfl
    rw [hopen, herror]
    exact ⟨rfl, rfl⟩
  · have hopen : FileCall.run d (.openNew path) = (.ok d.opened.length,
        ⟨{ d.tree.set (dir ++ [name]) (.file []) with now := d.tree.now },
          d.opened ++ [some (dir ++ [name])]⟩) := by
      rw [FileCall.run, Disk.openNew, hwrite, ok_bind, hplace]
      rfl
    rw [hopen, hwrite]
    refine ⟨rfl, ?_⟩
    show (Disk.write _ _ _).tree = _
    have hnode : ({ d.tree.set (dir ++ [name]) (.file []) with now := d.tree.now } : FileTree).node?
        (dir ++ [name]) = some (.file [] d.tree.now) := by
      rw [FileTree.node?_of_ne_nil _ (by simp), FileTree.set, Assoc.lookup_insert, if_pos rfl]
    simp only [Disk.write, List.getElem?_concat_length, Option.join_some, hnode]
    rw [List.drop_nil, List.append_nil]
    exact FileTree.set_set _ _ _

section Failing

variable {ε δ : Type} {x : ExceptT ε Calls α} {y : ExceptT ε (StateM FileTree) α}

theorem Alike.andThen {f : α → ExceptT ε Calls β} {g : α → ExceptT ε (StateM FileTree) β}
    (hx : Alike x.run y.run) (hf : ∀ a, Alike (f a).run (g a).run) :
    Alike (x >>= f).run (y >>= g).run := by
  refine hx.bind (f := ExceptT.bindCont f) (g := ExceptT.bindCont g) fun r => ?_
  rcases r with e | a
  · exact .done _
  · exact hf a

theorem Alike.tryCatch {f : ε → ExceptT ε Calls α} {g : ε → ExceptT ε (StateM FileTree) α}
    (hx : Alike x.run y.run) (hf : ∀ e, Alike (f e).run (g e).run) :
    Alike (tryCatch x f).run (tryCatch y g).run := by
  rw [ExceptT.run_tryCatch, ExceptT.run_tryCatch]
  refine hx.bind fun r => ?_
  rcases r with e | a
  · exact hf e
  · exact .done _

theorem Alike.adapt (hx : Alike x.run y.run) (f : ε → δ) : Alike (x.adapt f).run (y.adapt f).run :=
  hx.bind fun _ => .done _

end Failing

theorem alike_ensureDir (path : String) :
    Alike (Files.ensureDir path : ExceptT FileError Calls Unit).run
      (Files.ensureDir path : ExceptT FileError (StateM FileTree) Unit).run := by
  refine (alike_makeDir path).tryCatch fun e => ?_
  refine Alike.andThen (x := ExceptT.lift (Files.isDir path)) (y := ExceptT.lift (Files.isDir path)) ?_ fun isDir => ?_
  · intro d
    exact ⟨rfl, rfl⟩
  · split <;> exact .done _

theorem alike_ensureDirsWithin (above : Nat) (path : String) :
    Alike (Files.ensureDirsWithin above path : ExceptT FileError Calls Unit).run
      (Files.ensureDirsWithin above path : ExceptT FileError (StateM FileTree) Unit).run := by
  induction above generalizing path with
  | zero => exact alike_ensureDir path
  | succ above ih =>
    rw [Files.ensureDirsWithin, Files.ensureDirsWithin]
    rcases Path.parent? path with _ | parent
    · exact .done _
    · refine (alike_ensureDir path).tryCatch fun e => ?_
      split
      · exact (ih _).andThen fun _ => alike_ensureDir path
      · exact .done _

theorem alike_ensureDirs (path : String) :
    Alike (Files.ensureDirs path : ExceptT FileError Calls Unit).run
      (Files.ensureDirs path : ExceptT FileError (StateM FileTree) Unit).run :=
  alike_ensureDirsWithin _ path

theorem alike_readText (path : String) :
    Alike (Files.readText path : ExceptT FileError Calls String).run
      (Files.readText path : ExceptT FileError (StateM FileTree) String).run := by
  refine Alike.andThen (x := Files.readBytes path) (y := Files.readBytes path)
    (fun _ => ⟨rfl, rfl⟩) fun b => ?_
  rcases Text.ofBytes? b with _ | text <;> exact .done _

def Settled (p : Calls α) : Prop := ∃ a, p = done a

/-- Directories are made and looked for, and nothing else is done, until the rest is of one kind. -/
inductive MakesDirs (Rest : Calls α → Prop) : Calls α → Prop
  | rest {p : Calls α} (h : Rest p) : MakesDirs Rest p
  | makeDir {path : String} {next : Except FileError Unit → Calls α}
      (h : ∀ answer, MakesDirs Rest (next answer)) : MakesDirs Rest (call (.makeDir path) next)
  | isDir {path : String} {next : Bool → Calls α}
      (h : ∀ answer, MakesDirs Rest (next answer)) : MakesDirs Rest (call (.isDir path) next)

theorem MakesDirs.bind {x : Calls α} {f : α → Calls β} {Rest : Calls β → Prop}
    (hx : x.MakesDirs Settled) (hf : ∀ a, (f a).MakesDirs Rest) : (x.bind f).MakesDirs Rest := by
  induction hx with
  | rest h =>
    obtain ⟨a, rfl⟩ := h
    exact hf a
  | makeDir _ ih => exact .makeDir ih
  | isDir _ ih => exact .isDir ih

theorem makesDirs_ensureDir (path : String) :
    (Files.ensureDir path : ExceptT FileError Calls Unit).run.MakesDirs Settled := by
  refine .makeDir fun r => ?_
  rcases r with e | _
  · refine .isDir fun isDir => ?_
    show (if e = .alreadyExists ∧ isDir = true then return () else throw e :
      ExceptT FileError Calls Unit).run.MakesDirs Settled
    split <;> exact .rest ⟨_, rfl⟩
  · exact .rest ⟨_, rfl⟩

theorem makesDirs_ensureDirsWithin (above : Nat) (path : String) :
    (Files.ensureDirsWithin above path : ExceptT FileError Calls Unit).run.MakesDirs Settled := by
  induction above generalizing path with
  | zero => exact makesDirs_ensureDir path
  | succ above ih =>
    rw [Files.ensureDirsWithin]
    split
    · exact .rest ⟨_, rfl⟩
    · refine (makesDirs_ensureDir path).bind fun r => ?_
      rcases r with e | _
      · show (if e = .notFound then do Files.ensureDirsWithin above _; Files.ensureDir path
          else throw e : ExceptT FileError Calls Unit).run.MakesDirs Settled
        split
        · refine (ih _).bind fun r => ?_
          rcases r with e | _
          · exact .rest ⟨_, rfl⟩
          · exact makesDirs_ensureDir path
        · exact .rest ⟨_, rfl⟩
      · exact .rest ⟨_, rfl⟩

theorem makesDirs_ensureDirs (path : String) :
    (Files.ensureDirs path : ExceptT FileError Calls Unit).run.MakesDirs Settled :=
  makesDirs_ensureDirsWithin _ path

end Calls

end TemplateTrace
