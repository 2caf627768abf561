import TemplateTrace.Proofs.Files.Calls
import TemplateTrace.Proofs.Store.Calls
import TemplateTrace.Proofs.Store.Isolation

namespace TemplateTrace

namespace DirectoryStore

variable {s : DirectoryStore} {key text : String}

def program (s : DirectoryStore) (c : StoreCall) : Calls StoreEvent :=
  (c.run s.store : ExceptT Error Calls c.Answer).run.bind fun answer => .done ⟨c, answer⟩

theorem alike_onFiles {α : Type} {x : ExceptT FileError Calls α}
    {y : ExceptT FileError (StateM FileTree) α} (h : Calls.Alike x.run y.run) :
    Calls.Alike (s.onFiles key x).run (s.onFiles key y).run := h.adapt _

theorem alike_ifFound {α : Type} {x : ExceptT FileError Calls α}
    {y : ExceptT FileError (StateM FileTree) α} (h : Calls.Alike x.run y.run) (missing : α) :
    Calls.Alike (ifFound x missing).run (ifFound y missing).run := by
  refine h.tryCatch fun e => ?_
  split <;> exact .done _

theorem alike_run (s : DirectoryStore) (c : StoreCall) :
    Calls.Alike (c.run s.store : ExceptT Error Calls c.Answer).run
      (c.run s.store : ExceptT Error (StateM FileTree) c.Answer).run := by
  cases c with
  | put key text =>
    refine alike_onFiles ((Calls.alike_ensureDirs s.dir).andThen fun _ => ?_)
    exact (Calls.alike_writeText _ _).andThen fun _ => Calls.alike_rename _ _
  | get key =>
    exact alike_onFiles (alike_ifFound ((Calls.alike_readText _).andThen fun _ => .done _) none)
  | remove key => exact alike_onFiles (alike_ifFound (Calls.alike_removeFile _) ())
  | keys =>
    refine Calls.Alike.andThen (x := ExceptT.lift (Files.isDir s.dir))
      (y := ExceptT.lift (Files.isDir s.dir)) (fun _ => ⟨rfl, rfl⟩) fun isDir => ?_
    split
    · exact (Calls.Alike.adapt (x := Files.fileNames s.dir) (y := Files.fileNames s.dir)
        (fun _ => ⟨rfl, rfl⟩) _).andThen fun _ => .done _
    · exact .done _

theorem alone_program (s : DirectoryStore) (c : StoreCall) (d : Disk) :
    ((s.program c).alone d).1 =
        ⟨c, (runFrom (c.run s.store : ExceptT Error (StateM FileTree) c.Answer) d.tree).1⟩ ∧
      ((s.program c).alone d).2.tree =
        (runFrom (c.run s.store : ExceptT Error (StateM FileTree) c.Answer) d.tree).2 := by
  obtain ⟨hanswer, htree⟩ := alike_run s c d
  rw [program, Calls.alone_bind]
  exact ⟨congrArg (StoreEvent.mk c) hanswer, htree⟩

def ended (s : DirectoryStore) (key text : String) (r : Except FileError Unit) : Calls StoreEvent :=
  .done ⟨.put key text, r.mapError (s.failure key)⟩

def moving (s : DirectoryStore) (key text : String) : Calls StoreEvent :=
  .call (.rename (s.stagingPath key) (s.entryPath key)) (s.ended key text)

def writing (s : DirectoryStore) (key text : String) (file : Nat) : Calls StoreEvent :=
  .call (.write file (Text.bytes text)) fun _ => s.moving key text

def opening (s : DirectoryStore) (key text : String) : Calls StoreEvent :=
  .call (.openNew (s.stagingPath key)) fun
    | .ok file => s.writing key text file
    | .error e => s.ended key text (.error e)

def reading (s : DirectoryStore) (key : String) : Calls StoreEvent :=
  .call (.readBytes (s.entryPath key)) fun r => .done ⟨.get key, s.answer key r⟩

theorem run_ifFound {α : Type} (x : ExceptT FileError Calls α) (missing : α) :
    (ifFound x missing).run = x.run.bind fun
      | .ok a => .done (.ok a)
      | .error e => if e = .notFound then .done (.ok missing) else .done (.error e) := by
  rw [ifFound, ExceptT.run_tryCatch]
  refine congrArg x.run.bind (funext fun r => ?_)
  rcases r with e | a
  · dsimp only
    split <;> rfl
  · rfl

theorem program_get (s : DirectoryStore) (key : String) : s.program (.get key) = s.reading key := by
  have hget : s.program (.get key) =
      ((ifFound (do return some (← Files.readText (s.entryPath key))) none :
        ExceptT FileError Calls (Option String)).run.bind fun r =>
          Calls.done (r.mapError (s.failure key))).bind fun answer => .done ⟨.get key, answer⟩ := rfl
  rw [hget, run_ifFound, ExceptT.run_bind, Calls.run_readText]
  refine congrArg (Calls.call (.readBytes (s.entryPath key))) (funext fun r => ?_)
  rcases r with e | b
  · show ((if e = .notFound then .done (.ok none) else .done (.error e) :
      Calls (Except FileError (Option String))).bind _).bind _ = _
    by_cases he : e = .notFound
    · rw [if_pos he, answer, if_pos he]
      rfl
    · rw [if_neg he, answer, if_neg he]
      rfl
  · dsimp only
    rw [answer]
    rcases Text.ofBytes? b with _ | text <;> rfl

theorem program_put (s : DirectoryStore) (key text : String) :
    s.program (.put key text) = (Files.ensureDirs s.dir : ExceptT FileError Calls Unit).run.bind fun
      | .ok _ => s.opening key text
      | .error e => s.ended key text (.error e) := by
  have hput : s.program (.put key text) =
      (((Files.ensureDirs s.dir : ExceptT FileError Calls Unit).run.bind
        (ExceptT.bindCont fun _ => (do
          Files.writeText (s.stagingPath key) text
          Files.rename (s.stagingPath key) (s.entryPath key) : ExceptT FileError Calls Unit))).bind
        fun r => Calls.done (r.mapError (s.failure key))).bind
          fun answer => .done ⟨.put key text, answer⟩ := rfl
  rw [hput, Calls.bind_bind, Calls.bind_bind]
  refine congrArg _ (funext fun r => ?_)
  rcases r with e | _
  · rfl
  · refine congrArg (Calls.call (.openNew (s.stagingPath key))) (funext fun r => ?_)
    rcases r with e | file <;> rfl

def Opens (s : DirectoryStore) (key text : String) (p : Calls StoreEvent) : Prop :=
  p = s.opening key text ∨ ∃ e, p = s.ended key text (.error e)

theorem makesDirs_program (s : DirectoryStore) (key text : String) :
    (s.program (.put key text)).MakesDirs (s.Opens key text) := by
  rw [program_put]
  refine (Calls.makesDirs_ensureDirs s.dir).bind fun r => ?_
  rcases r with e | _
  · exact .rest (.inr ⟨e, rfl⟩)
  · exact .rest (.inl rfl)

inductive Ready (s : DirectoryStore) (key text : String) : Calls StoreEvent → Prop
  | opening : Ready s key text (s.opening key text)
  | makeDir {next : Except FileError Unit → Calls StoreEvent}
      (h : Ready s key text (next (.error .alreadyExists))) :
      Ready s key text (.call (.makeDir s.dir) next)
  | isDir {next : Bool → Calls StoreEvent} (h : Ready s key text (next true)) :
      Ready s key text (.call (.isDir s.dir) next)

theorem ready_program (s : DirectoryStore) (key text : String) :
    s.Ready key text (s.program (.put key text)) := by
  obtain ⟨above, hdirs⟩ := FileTree.ensureDirs_eq Calls s.dir
  rw [program_put, hdirs, Files.ensureDirsWithin]
  rcases Path.parent? s.dir with _ | parent
  · exact .opening
  · exact .makeDir (.isDir .opening)

end DirectoryStore

end TemplateTrace
