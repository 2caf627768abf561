import TemplateTrace.Proofs.Store.Entries

namespace TemplateTrace

namespace DirectoryStore

open FileTree (maxName maxPath nextOf)

def Accepts (s : DirectoryStore) (key : String) : Prop :=
  Text.size key ≤ 121 ∧ Text.size (s.stagingPath key) ≤ maxPath

instance (s : DirectoryStore) (key : String) : Decidable (s.Accepts key) :=
  inferInstanceAs (Decidable (_ ∧ _))

/-- The directory of the store is there, at this place. -/
structure At (s : DirectoryStore) (t : FileTree) (c : List String) : Prop where
  place : t.place s.dir = .ok c
  dir : t.look? c = some none

variable {s : DirectoryStore} {key text : String} {t u : FileTree} {c : List String}

theorem At.kept (h : s.At t c) (hkept : FileTree.DirsKept t u) : s.At u c :=
  ⟨hkept.place h.place, hkept.dir c h.dir⟩

theorem At.isDir (h : s.At t c) : t.isDir s.dir = true := FileTree.isDir_iff.mpr ⟨c, h.place, h.dir⟩

theorem size_entryPath_le (s : DirectoryStore) (key : String) :
    Text.size (s.entryPath key) ≤ Text.size (s.stagingPath key) := by
  rw [stagingPath, Text.size, Text.size, Text.bytes_append, List.length_append]
  exact Nat.le_add_right _ _

theorem le_size_stagingPath (s : DirectoryStore) (key : String) :
    Text.size s.dir + Text.size (stagingName key) ≤ Text.size (s.stagingPath key) := by
  rw [stagingPath_eq]
  exact Path.le_size_join (isName_stagingName key) s.dir

theorem Accepts.nextOf_entry (h : s.Accepts key) (c : List String) :
    nextOf c (entryName key) = .ok (c ++ [entryName key]) := by
  apply FileTree.nextOf_name c (isName_entryName key)
  have hkey := h.1
  rw [size_entryName, maxName]
  omega

theorem Accepts.nextOf_staging (h : s.Accepts key) (c : List String) :
    nextOf c (stagingName key) = .ok (c ++ [stagingName key]) := by
  apply FileTree.nextOf_name c (isName_stagingName key)
  have hkey := h.1
  rw [size_stagingName, maxName]
  omega

theorem At.placeLast_entry (h : s.At t c) (hkey : s.Accepts key) :
    t.placeLast (s.entryPath key) = .ok (.name c (entryName key)) := by
  have hsize := Nat.le_trans (s.size_entryPath_le key) hkey.2
  rw [entryPath, FileTree.placeLast_join t (isName_entryName key)
    (FileTree.checkPath_of_place h.place) hsize, h.place, ok_bind, FileTree.step_dir h.dir,
    hkey.nextOf_entry]
  rfl

theorem At.place_entry (h : s.At t c) (hkey : s.Accepts key) :
    t.place (s.entryPath key) = .ok (c ++ [entryName key]) :=
  (FileTree.of_placeLast_name (h.placeLast_entry hkey)).1

theorem At.placeLast_staging (h : s.At t c) (hkey : s.Accepts key) :
    t.placeLast (s.stagingPath key) = .ok (.name c (stagingName key)) := by
  have hsize := hkey.2
  rw [stagingPath_eq] at hsize ⊢
  rw [FileTree.placeLast_join t (isName_stagingName key) (FileTree.checkPath_of_place h.place) hsize,
    h.place, ok_bind, FileTree.step_dir h.dir, hkey.nextOf_staging]
  rfl

theorem At.place_staging (h : s.At t c) (hkey : s.Accepts key) :
    t.place (s.stagingPath key) = .ok (c ++ [stagingName key]) :=
  (FileTree.of_placeLast_name (h.placeLast_staging hkey)).1

theorem endsWithSlash_entryPath (s : DirectoryStore) (key : String) :
    Path.endsWithSlash (s.entryPath key) = false :=
  Path.endsWithSlash_join (isName_entryName key) s.dir

theorem endsWithSlash_stagingPath (s : DirectoryStore) (key : String) :
    Path.endsWithSlash (s.stagingPath key) = false := by
  rw [stagingPath_eq]
  exact Path.endsWithSlash_join (isName_stagingName key) s.dir

theorem read_of_put (h : runFrom (s.put key text : ExceptT Error (StateM FileTree) Unit) t = (.ok (), u)) :
    u.readBytes (s.entryPath key) = .ok (Text.bytes text) := by
  obtain ⟨made, p, q, -, hstored⟩ := of_put h
  refine FileTree.readBytes_eq_ok_iff.mpr ⟨q, hstored.entry, ?_, s.endsWithSlash_entryPath key⟩
  rw [hstored.look, if_pos rfl]

theorem runFrom_ifFound {α : Type} (act : ExceptT FileError (StateM FileTree) α) (missing : α)
    (t : FileTree) :
    runFrom (ifFound act missing) t =
      match runFrom act t with
      | (.ok a, u) => (.ok a, u)
      | (.error e, u) => if e = .notFound then (.ok missing, u) else (.error e, u) := by
  rcases hrun : runFrom act t with ⟨e | a, u⟩
  · rw [ifFound, runFrom_tryCatch_error hrun]
    by_cases he : e = .notFound <;> simp [he]
  · rw [ifFound, runFrom_tryCatch_ok hrun]

def answer (s : DirectoryStore) (key : String) : Except FileError Bytes → Except Error (Option String)
  | .ok b =>
    match Text.ofBytes? b with
    | some text => .ok (some text)
    | none => .error (s.failure key .notText)
  | .error e => if e = .notFound then .ok none else .error (s.failure key e)

theorem answer_eq_text_iff {r : Except FileError Bytes} :
    s.answer key r = .ok (some text) ↔ r = .ok (Text.bytes text) := by
  constructor
  · intro h
    rcases r with e | b
    · rw [answer] at h
      split at h <;> cases h
    · rw [answer] at h
      rcases hb : Text.ofBytes? b with _ | found
      · rw [hb] at h
        cases h
      · rw [hb] at h
        cases h
        rw [Text.bytes_of_ofBytes? hb]
  · rintro rfl
    rw [answer, Text.ofBytes?_bytes]

theorem answer_eq_none_iff {r : Except FileError Bytes} :
    s.answer key r = .ok none ↔ r = .error .notFound := by
  constructor
  · intro h
    rcases r with e | b
    · rw [answer] at h
      split at h
      · rename_i he
        rw [he]
      · cases h
    · rw [answer] at h
      split at h <;> cases h
  · rintro rfl
    rfl

theorem runFrom_get (s : DirectoryStore) (key : String) (t : FileTree) :
    runFrom (s.get key : ExceptT Error (StateM FileTree) (Option String)) t =
      (s.answer key (t.readBytes (s.entryPath key)), t) := by
  have hread := FileTree.runFrom_readText (s.entryPath key) t
  rw [get, runFrom_onFiles, runFrom_ifFound, runFrom_map, hread]
  rcases t.readBytes (s.entryPath key) with e | b
  · by_cases he : e = .notFound
    · simp [answer, he, bind, Except.bind, Except.map, mapError_ok]
    · simp [answer, he, bind, Except.bind, Except.map, mapError_error, failure]
  · rw [ok_bind, answer]
    dsimp only
    rcases Text.ofBytes? b with _ | text
    · simp [Except.map, mapError_error]
    · rfl

theorem get_of_notFound (h : t.readBytes (s.entryPath key) = .error .notFound) :
    runFrom (s.get key : ExceptT Error (StateM FileTree) (Option String)) t = (.ok none, t) := by
  rw [runFrom_get, answer_eq_none_iff.mpr h]

theorem get_of_text (h : t.readBytes (s.entryPath key) = .ok (Text.bytes text)) :
    runFrom (s.get key : ExceptT Error (StateM FileTree) (Option String)) t = (.ok (some text), t) := by
  rw [runFrom_get, answer_eq_text_iff.mpr h]

theorem runFrom_remove (s : DirectoryStore) (key : String) (t : FileTree) :
    runFrom (s.remove key : ExceptT Error (StateM FileTree) Unit) t =
      match t.removeFile (s.entryPath key) with
      | .ok u => (.ok (), u)
      | .error e => (if e = .notFound then .ok () else .error (s.failure key e), t) := by
  have hremove : runFrom (Files.removeFile (s.entryPath key) : ExceptT FileError (StateM FileTree) Unit)
      t = _ := FileTree.runFrom_change (·.removeFile (s.entryPath key)) t
  rw [remove, runFrom_onFiles, runFrom_ifFound, hremove]
  rcases t.removeFile (s.entryPath key) with e | u
  · by_cases he : e = .notFound <;> simp [he, mapError_error, mapError_ok]
  · rfl

theorem remove_of_notFound (h : t.removeFile (s.entryPath key) = .error .notFound) :
    runFrom (s.remove key : ExceptT Error (StateM FileTree) Unit) t = (.ok (), t) := by
  rw [runFrom_remove, h]
  rfl

theorem remove_of_removed (h : t.removeFile (s.entryPath key) = .ok u) :
    runFrom (s.remove key : ExceptT Error (StateM FileTree) Unit) t = (.ok (), u) := by
  rw [runFrom_remove, h]

theorem remove_of_read {b : Bytes} (h : t.readBytes (s.entryPath key) = .ok b) :
    ∃ u, runFrom (s.remove key : ExceptT Error (StateM FileTree) Unit) t = (.ok (), u) ∧
      u.readBytes (s.entryPath key) = .error .notFound ∧ FileTree.DirsKept t u := by
  obtain ⟨p, hplace, hfile, hslash⟩ := FileTree.readBytes_eq_ok_iff.mp h
  obtain ⟨dir, hlast, rfl⟩ := FileTree.placeLast_of_place_join (isName_entryName key) hplace
  have hremove := FileTree.removeFile_ok hlast hslash hfile
  exact ⟨_, remove_of_removed hremove, FileTree.readBytes_of_removeFile hremove,
    FileTree.dirsKept_of_removeFile hremove⟩

theorem At.get_missing (h : s.At t c) (hkey : s.Accepts key)
    (hlook : t.look? (c ++ [entryName key]) = none) :
    runFrom (s.get key : ExceptT Error (StateM FileTree) (Option String)) t = (.ok none, t) := by
  apply get_of_notFound
  rw [FileTree.readBytes, FileTree.find_of_place (h.place_entry hkey),
    FileTree.look?_eq_none_iff.mp hlook]
  rfl

theorem At.get_text (h : s.At t c) (hkey : s.Accepts key)
    (hlook : t.look? (c ++ [entryName key]) = some (some (Text.bytes text))) :
    runFrom (s.get key : ExceptT Error (StateM FileTree) (Option String)) t = (.ok (some text), t) :=
  get_of_text (FileTree.readBytes_eq_ok_iff.mpr
    ⟨_, h.place_entry hkey, hlook, s.endsWithSlash_entryPath key⟩)

theorem At.remove_missing (h : s.At t c) (hkey : s.Accepts key)
    (hlook : t.look? (c ++ [entryName key]) = none) :
    runFrom (s.remove key : ExceptT Error (StateM FileTree) Unit) t = (.ok (), t) := by
  apply remove_of_notFound
  rw [FileTree.removeFile, h.placeLast_entry hkey, ok_bind]
  simp only [FileTree.look?_eq_none_iff.mp hlook]

theorem At.remove_file (h : s.At t c) (hkey : s.Accepts key) {b : Bytes}
    (hlook : t.look? (c ++ [entryName key]) = some (some b)) :
    ∃ u, runFrom (s.remove key : ExceptT Error (StateM FileTree) Unit) t = (.ok (), u) ∧
      u.currentDir = t.currentDir ∧
      ∀ r, u.look? r = if r = c ++ [entryName key] then none else t.look? r := by
  have hremove := FileTree.removeFile_ok (h.placeLast_entry hkey) (s.endsWithSlash_entryPath key) hlook
  refine ⟨t.drop (c ++ [entryName key]), remove_of_removed hremove, rfl, fun r => ?_⟩
  exact FileTree.look?_drop (by simp) (FileTree.look?_dropLast_concat h.dir) r

theorem runFrom_keys_eq (s : DirectoryStore) (t : FileTree) :
    runFrom (s.keys : ExceptT Error (StateM FileTree) (List String)) t =
      runFrom (if t.isDir s.dir = true then do
        let names ← (Files.fileNames s.dir : ExceptT FileError (StateM FileTree) (List String)).adapt
          fun e => Error.store "" s!"failed to list {s.dir}: {e.message}"
        return MapStore.sortKeys (names.filterMap keyOfName?)
      else pure []) t := rfl

theorem keys_of_missing (h : t.isDir s.dir = false) :
    runFrom (s.keys : ExceptT Error (StateM FileTree) (List String)) t = (.ok [], t) := by
  rw [runFrom_keys_eq, h]
  rfl

theorem At.keys_eq (h : s.At t c) :
    runFrom (s.keys : ExceptT Error (StateM FileTree) (List String)) t =
      (.ok (MapStore.sortKeys ((t.filesIn c).filterMap keyOfName?)), t) := by
  obtain ⟨time, hnode⟩ := FileTree.look?_eq_dir_iff.mp h.dir
  have hnames : t.fileNames s.dir = .ok (t.filesIn c) := by
    rw [FileTree.fileNames, FileTree.find_of_place h.place, hnode, ok_bind, h.place]
    rfl
  have hrun : runFrom ((Files.fileNames s.dir : ExceptT FileError (StateM FileTree) (List String)).adapt
      fun e => Error.store "" s!"failed to list {s.dir}: {e.message}") t =
      ((t.fileNames s.dir).mapError fun e => .store "" s!"failed to list {s.dir}: {e.message}", t) := rfl
  rw [hnames] at hrun
  rw [runFrom_keys_eq, if_pos h.isDir, runFrom_bind_ok hrun]
  rfl

theorem At.runFrom_put (h : s.At t c) (key text : String) :
    runFrom (s.put key text : ExceptT Error (StateM FileTree) Unit) t =
      match t.writeBytes (s.stagingPath key) (Text.bytes text) with
      | .error e => (.error (s.failure key e), t)
      | .ok w =>
        match w.rename (s.stagingPath key) (s.entryPath key) with
        | .error e => (.error (s.failure key e), w)
        | .ok u => (.ok (), u) := by
  rw [put, runFrom_onFiles, runFrom_bind_ok (FileTree.ensureDirs_of_isDir h.isDir)]
  rcases hwrite : t.writeBytes (s.stagingPath key) (Text.bytes text) with e | w
  · have hwritten : runFrom (Files.writeText (s.stagingPath key) text :
        ExceptT FileError (StateM FileTree) Unit) t = (.error e, t) :=
      FileTree.runFrom_change_error hwrite
    rw [runFrom_bind_error hwritten]
    rfl
  · have hwritten : runFrom (Files.writeText (s.stagingPath key) text :
        ExceptT FileError (StateM FileTree) Unit) t = (.ok (), w) := FileTree.runFrom_change_ok hwrite
    rw [runFrom_bind_ok hwritten]
    rcases hrename : w.rename (s.stagingPath key) (s.entryPath key) with e | u
    · have hrenamed : runFrom (Files.rename (s.stagingPath key) (s.entryPath key) :
          ExceptT FileError (StateM FileTree) Unit) w = (.error e, w) :=
        FileTree.runFrom_change_error hrename
      rw [hrenamed]
      simp only [hrename]
      rfl
    · have hrenamed : runFrom (Files.rename (s.stagingPath key) (s.entryPath key) :
          ExceptT FileError (StateM FileTree) Unit) w = (.ok (), u) := FileTree.runFrom_change_ok hrename
      rw [hrenamed]
      simp only [hrename]
      rfl

theorem At.put_cases (h : s.At t c) (key text : String) :
    (∃ e, runFrom (s.put key text : ExceptT Error (StateM FileTree) Unit) t = (.error e, t)) ∨
      ∃ w, t.writeBytes (s.stagingPath key) (Text.bytes text) = .ok w ∧
        ((∃ e, runFrom (s.put key text : ExceptT Error (StateM FileTree) Unit) t = (.error e, w)) ∨
          ∃ u, w.rename (s.stagingPath key) (s.entryPath key) = .ok u ∧
            runFrom (s.put key text : ExceptT Error (StateM FileTree) Unit) t = (.ok (), u)) := by
  rw [h.runFrom_put]
  rcases t.writeBytes (s.stagingPath key) (Text.bytes text) with e | w
  · exact .inl ⟨_, rfl⟩
  · refine .inr ⟨w, rfl, ?_⟩
    dsimp only
    rcases w.rename (s.stagingPath key) (s.entryPath key) with e | u
    · exact .inl ⟨_, rfl⟩
    · exact .inr ⟨u, rfl, rfl⟩

theorem At.put_ok (h : s.At t c) (hkey : s.Accepts key) (text : String)
    (hstaging : t.look? (c ++ [stagingName key]) ≠ some none)
    (hentry : t.look? (c ++ [entryName key]) ≠ some none) :
    ∃ u, runFrom (s.put key text : ExceptT Error (StateM FileTree) Unit) t = (.ok (), u) ∧
      u.currentDir = t.currentDir ∧
      ∀ r, u.look? r = if r = c ++ [entryName key] then some (some (Text.bytes text))
        else if r = c ++ [stagingName key] then none else t.look? r := by
  obtain ⟨w, hwrite⟩ := FileTree.writeBytes_ok (h.placeLast_staging hkey)
    (s.endsWithSlash_stagingPath key) hstaging (Text.bytes text)
  obtain ⟨p, hp, -, -, -, hlook⟩ := FileTree.look?_of_writeBytes hwrite
  cases hp.symm.trans (h.place_staging hkey)
  have hw := h.kept (FileTree.dirsKept_of_writeBytes hwrite)
  have hne : c ++ [entryName key] ≠ c ++ [stagingName key] := fun heq =>
    stagingName_ne_entryName key key (List.singleton_inj.mp (List.append_cancel_left heq)).symm
  obtain ⟨u, hrename⟩ := FileTree.rename_ok (hw.placeLast_staging hkey)
    (s.endsWithSlash_stagingPath key) (by rw [hlook, if_pos rfl]) (hw.placeLast_entry hkey)
    (by rwa [hlook, if_neg hne])
  have hrun : runFrom (s.put key text : ExceptT Error (StateM FileTree) Unit) t = (.ok (), u) := by
    rw [h.runFrom_put, hwrite]
    simp only [hrename]
  obtain ⟨made, p, q, hmade, hstored⟩ := of_put hrun
  rw [FileTree.ensureDirs_of_isDir h.isDir] at hmade
  cases hmade
  cases hstored.staging.symm.trans (h.place_staging hkey)
  cases hstored.entry.symm.trans ((h.kept hstored.dirsKept).place_entry hkey)
  exact ⟨u, hrun, hstored.currentDir, hstored.look⟩

theorem At.put_new (h : s.At t c) (hkey : s.Accepts key) (text : String)
    (hstaging : t.look? (c ++ [stagingName key]) = none)
    (hentry : t.look? (c ++ [entryName key]) = none) :
    ∃ u, runFrom (s.put key text : ExceptT Error (StateM FileTree) Unit) t = (.ok (), u) ∧
      FileTree.Extends t u := by
  obtain ⟨u, hput, hcurrent, hlook⟩ := h.put_ok hkey text (by rw [hstaging]; nofun) (by rw [hentry]; nofun)
  refine ⟨u, hput, hcurrent, fun p x hp => ?_⟩
  rw [hlook, if_neg, if_neg, hp]
  · rintro rfl
    rw [hstaging] at hp
    cases hp
  · rintro rfl
    rw [hentry] at hp
    cases hp

theorem At.placeLast_staging_error (h : s.At t c) (hkey : ¬ s.Accepts key) :
    ∃ e, t.placeLast (s.stagingPath key) = .error e := by
  rcases hlast : t.placeLast (s.stagingPath key) with e | last
  · exact ⟨e, rfl⟩
  · refine absurd ?_ hkey
    have hsize := (FileTree.checkPath_eq_ok_iff.mp (FileTree.checkPath_of_placeLast hlast)).2.2
    have hbase := FileTree.checkPath_of_place h.place
    refine ⟨?_, hsize⟩
    rw [stagingPath_eq] at hlast hsize
    rw [FileTree.placeLast_join t (isName_stagingName key) hbase hsize, h.place, ok_bind,
      FileTree.step_dir h.dir] at hlast
    obtain ⟨q, hnext, -⟩ := ok_of_bind hlast
    by_contra hlong
    have hname : maxName < Text.size (stagingName key) := by
      rw [size_stagingName, maxName]
      omega
    rw [nextOf, if_neg (isName_stagingName key).ne_dot, if_neg (isName_stagingName key).ne_dots,
      if_pos hname] at hnext
    cases hnext

theorem At.put_error (h : s.At t c) (hkey : ¬ s.Accepts key) (text : String) :
    ∃ reason, runFrom (s.put key text : ExceptT Error (StateM FileTree) Unit) t =
      (.error (.store key reason), t) := by
  obtain ⟨e, hlast⟩ := h.placeLast_staging_error hkey
  have hwrite : t.writeBytes (s.stagingPath key) (Text.bytes text) = .error e := by
    rw [FileTree.writeBytes, hlast]
    rfl
  refine ⟨s!"{e.message} ({s.dir})", ?_⟩
  rw [h.runFrom_put, hwrite]
  rfl

end DirectoryStore

end TemplateTrace
