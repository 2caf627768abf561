import TemplateTrace.Proofs.Store.Home
import TemplateTrace.Proofs.Store.Keys

namespace TemplateTrace

namespace DirectoryStore

open FileTree (checkPath nextOf)

variable {s : DirectoryStore} {key other text name : String} {t u v : FileTree} {c p : List String}

structure Reaches (s : DirectoryStore) (t : FileTree) (c : List String) : Prop where
  walk : t.walk (t.origin s.dir) (FileTree.stepsOf s.dir) = .ok c
  dir : t.look? c = some none

theorem At.reaches (h : s.At t c) : s.Reaches t c := by
  have hplace := h.place
  rw [FileTree.place_of_check t (FileTree.checkPath_of_place hplace)] at hplace
  exact ⟨hplace, h.dir⟩

namespace Reaches

theorem kept (h : s.Reaches t c) (hkept : FileTree.DirsKept t u) : s.Reaches u c :=
  ⟨by rw [hkept.origin]; exact hkept.walk h.walk, hkept.dir c h.dir⟩

theorem place_child (h : s.Reaches t c) (hname : Path.IsName name) :
    t.place (Path.join s.dir name) = (do checkPath (Path.join s.dir name); nextOf c name) := by
  rcases hcheck : checkPath (Path.join s.dir name) with e | _
  · rw [FileTree.place, hcheck]
    rfl
  · rw [FileTree.place_concat t hcheck (FileTree.stepsOf_join hname s.dir),
      FileTree.origin_join t hname s.dir, h.walk, ok_bind, FileTree.step_dir h.dir]
    rfl

theorem eq_of_place (h : s.Reaches t c) (hname : Path.IsName name)
    (hplace : t.place (Path.join s.dir name) = .ok p) : p = c ++ [name] := by
  rw [h.place_child hname] at hplace
  obtain ⟨_, -, hnext⟩ := ok_of_bind hplace
  rw [← FileTree.step_dir h.dir] at hnext
  exact FileTree.step_name hnext (not_or.mpr ⟨hname.ne_dot, hname.ne_dots⟩)

theorem of_place (hname : Path.IsName name) (hplace : t.place (Path.join s.dir name) = .ok p) :
    ∃ c, s.Reaches t c ∧ p = c ++ [name] := by
  have hcheck := FileTree.checkPath_of_place hplace
  have hwalk := hplace
  rw [FileTree.place_concat t hcheck (FileTree.stepsOf_join hname s.dir),
    FileTree.origin_join t hname s.dir] at hwalk
  obtain ⟨c, hwalk, hstep⟩ := ok_of_bind hwalk
  have hreaches : s.Reaches t c := ⟨hwalk, FileTree.look?_of_step hstep⟩
  exact ⟨c, hreaches, hreaches.eq_of_place hname hplace⟩

theorem place_stagingPath (h : s.Reaches t c) (hplace : t.place (s.stagingPath key) = .ok p) :
    p = c ++ [stagingName key] := by
  rw [stagingPath_eq] at hplace
  exact h.eq_of_place (isName_stagingName key) hplace

theorem place_entryPath (h : s.Reaches t c) (hplace : t.place (s.entryPath key) = .ok p) :
    p = c ++ [entryName key] := h.eq_of_place (isName_entryName key) hplace

theorem readBytes_eq (h : s.Reaches t c) (h' : s.Reaches u c)
    (hlook : u.look? (c ++ [entryName key]) = t.look? (c ++ [entryName key])) :
    u.readBytes (s.entryPath key) = t.readBytes (s.entryPath key) := by
  have hplace' : u.place (s.entryPath key) = t.place (s.entryPath key) := by
    rw [entryPath, h.place_child (isName_entryName key), h'.place_child (isName_entryName key)]
  rcases hplace : t.place (s.entryPath key) with e | p
  · rw [hplace] at hplace'
    rw [FileTree.readBytes_of_place_error hplace, FileTree.readBytes_of_place_error hplace']
  · rw [hplace] at hplace'
    cases h.place_entryPath hplace
    rw [FileTree.readBytes_of_place hplace, FileTree.readBytes_of_place hplace', hlook]

end Reaches

theorem At.place_stagingPath (h : s.At t c) (hplace : t.place (s.stagingPath key) = .ok p) :
    p = c ++ [stagingName key] := h.reaches.place_stagingPath hplace

theorem At.place_entryPath (h : s.At t c) (hplace : t.place (s.entryPath key) = .ok p) :
    p = c ++ [entryName key] := h.reaches.place_entryPath hplace

theorem place_ne (c : List String) (key other : String) :
    c ++ [stagingName key] ≠ c ++ [entryName other] := fun h =>
  stagingName_ne_entryName key other (List.singleton_inj.mp (List.append_cancel_left h))

theorem entry_place_ne (c : List String) (h : other ≠ key) :
    c ++ [entryName other] ≠ c ++ [entryName key] := fun heq =>
  h (entryName_injective (List.singleton_inj.mp (List.append_cancel_left heq)))

def found (s : DirectoryStore) (t : FileTree) (key : String) : Except Error (Option String) :=
  (runFrom (s.get key : ExceptT Error (StateM FileTree) (Option String)) t).1

def listed (s : DirectoryStore) (t : FileTree) : Except Error (List String) :=
  (runFrom (s.keys : ExceptT Error (StateM FileTree) (List String)) t).1

theorem found_eq_answer (s : DirectoryStore) (t : FileTree) (key : String) :
    s.found t key = s.answer key (t.readBytes (s.entryPath key)) := by
  rw [found, runFrom_get]

theorem found_of_notFound (h : t.readBytes (s.entryPath key) = .error .notFound) :
    s.found t key = .ok none := by
  rw [found_eq_answer, answer_eq_none_iff.mpr h]

theorem Reaches.found_eq (h : s.Reaches t c) (h' : s.Reaches u c)
    (hlook : u.look? (c ++ [entryName key]) = t.look? (c ++ [entryName key])) :
    s.found u key = s.found t key := by
  rw [found_eq_answer, found_eq_answer, h.readBytes_eq h' hlook]

theorem At.listed_eq (h : s.At t c) (h' : s.At u c) (key : String) (ht : t.Sound) (hu : u.Sound)
    (hlook : ∀ p, p ≠ c ++ [stagingName key] → u.look? p = t.look? p) : s.listed u = s.listed t := by
  have hnames : ∀ names : List String, (names.filter (· ≠ stagingName key)).filterMap keyOfName? =
      names.filterMap keyOfName? := by
    intro names
    rw [List.filterMap_filter]
    refine List.filterMap_congr fun name _ => ?_
    by_cases hname : name = stagingName key
    · simp [hname, keyOfName?_stagingName]
    · simp [hname]
  have hperm : ((u.filesIn c).filter (· ≠ stagingName key)).Perm
      ((t.filesIn c).filter (· ≠ stagingName key)) := by
    refine (List.perm_ext_iff_of_nodup ((FileTree.nodup_filesIn hu c).filter _)
      ((FileTree.nodup_filesIn ht c).filter _)).mpr fun name => ?_
    simp only [List.mem_filter, FileTree.mem_filesIn_iff hu, FileTree.mem_filesIn_iff ht,
      decide_eq_true_eq]
    refine and_congr_left fun hname => ?_
    rw [hlook]
    exact fun heq => hname (List.singleton_inj.mp (List.append_cancel_left heq))
  have hsorted := MapStore.sortKeys_eq_of_perm (hperm.filterMap keyOfName?)
  rw [hnames, hnames] at hsorted
  rw [listed, listed, h.keys_eq, h'.keys_eq, hsorted]

/-- The files of a key are all that has changed, apart from the time of their directory. -/
structure Confined (c : List String) (key : String) (t u : FileTree) : Prop where
  dirs : FileTree.DirsKept t u
  now : t.now ≤ u.now
  outside : ∀ p, ¬ c <+: p → u.node? p = t.node? p
  stat : ∀ p, p ≠ c ++ [entryName key] → p ≠ c ++ [stagingName key] → u.stat? p = t.stat? p

theorem Confined.refl (c : List String) (key : String) (t : FileTree) : Confined c key t t :=
  ⟨⟨rfl, fun _ h => h⟩, Nat.le_refl _, fun _ _ => rfl, fun _ _ _ => rfl⟩

theorem Confined.trans (h : Confined c key t u) (h' : Confined c key u v) : Confined c key t v where
  dirs := h.dirs.trans h'.dirs
  now := Nat.le_trans h.now h'.now
  outside p hp := (h'.outside p hp).trans (h.outside p hp)
  stat p hp hp' := (h'.stat p hp hp').trans (h.stat p hp hp')

theorem Confined.found_eq (hc : Confined c key t u) (h : s.At t c) (hother : other ≠ key) :
    s.found u other = s.found t other := by
  refine h.reaches.found_eq (h.kept hc.dirs).reaches ?_
  rw [FileTree.look?_eq_stat?, FileTree.look?_eq_stat?,
    hc.stat _ (entry_place_ne c hother) (place_ne c key other).symm]

theorem ne_of_outside (hp : ¬ c <+: p) (name : String) :
    p ≠ c ++ [name] ∧ p ≠ (c ++ [name]).dropLast := by
  rw [List.dropLast_concat]
  constructor
  · rintro rfl
    exact hp (List.prefix_append _ _)
  · rintro rfl
    exact hp List.prefix_rfl

theorem At.confined_of_write (h : s.At t c) {content : Bytes}
    (hwrite : t.writeBytes (s.stagingPath key) content = .ok u) : Confined c key t u := by
  obtain ⟨p, hplace, -, -, -, hstat⟩ := FileTree.stat?_of_writeBytes hwrite
  obtain ⟨q, hplace', hedited⟩ := FileTree.edited_of_writeBytes hwrite
  cases h.place_stagingPath hplace
  cases h.place_stagingPath hplace'
  refine ⟨hedited.dirs, Nat.le_of_lt hedited.now, fun p hp => ?_, fun p _ hp => ?_⟩
  · exact hedited.frame p (ne_of_outside hp _).1 (ne_of_outside hp _).2
  · rw [hstat, if_neg hp]

theorem At.confined_of_rename (h : s.At t c)
    (hrename : t.rename (s.stagingPath key) (s.entryPath key) = .ok u) : Confined c key t u := by
  obtain ⟨p, q, b, time, hp, hq, -, -, -, hstat⟩ := FileTree.stat?_of_rename hrename
  obtain ⟨p', q', hp', hq', hnow, hframe⟩ := FileTree.frame_of_rename hrename
  cases h.place_stagingPath hp
  cases h.place_entryPath hq
  cases h.place_stagingPath hp'
  cases h.place_entryPath hq'
  refine ⟨FileTree.dirsKept_of_rename hrename, hnow, fun p hp => ?_, fun p hp hp' => ?_⟩
  · exact hframe p (ne_of_outside hp _).1 (ne_of_outside hp _).2 (ne_of_outside hp _).1
      (ne_of_outside hp _).2
  · rw [hstat, if_neg hp, if_neg hp']

theorem At.confined_of_removeFile (h : s.At t c) (hremove : t.removeFile (s.entryPath key) = .ok u) :
    Confined c key t u := by
  obtain ⟨p, b, hplace, -, -, hstat⟩ := FileTree.stat?_of_removeFile hremove
  obtain ⟨q, hplace', hedited⟩ := FileTree.edited_of_removeFile hremove
  cases h.place_entryPath hplace
  cases h.place_entryPath hplace'
  refine ⟨hedited.dirs, Nat.le_of_lt hedited.now, fun p hp => ?_, fun p hp _ => ?_⟩
  · exact hedited.frame p (ne_of_outside hp _).1 (ne_of_outside hp _).2
  · rw [hstat, if_neg hp]

theorem At.confined_of_put (h : s.At t c) (key text : String) :
    Confined c key t (runFrom (s.put key text : ExceptT Error (StateM FileTree) Unit) t).2 := by
  obtain ⟨e, hput⟩ | ⟨w, hwrite, ⟨e, hput⟩ | ⟨u, hrename, hput⟩⟩ := h.put_cases key text
  · rw [hput]
    exact .refl c key t
  · rw [hput]
    exact h.confined_of_write hwrite
  · have hw := h.confined_of_write hwrite
    rw [hput]
    exact hw.trans ((h.kept hw.dirs).confined_of_rename hrename)

theorem At.confined_of_remove (h : s.At t c) (key : String) :
    Confined c key t (runFrom (s.remove key : ExceptT Error (StateM FileTree) Unit) t).2 := by
  rw [runFrom_remove]
  rcases hremove : t.removeFile (s.entryPath key) with e | u
  · exact .refl c key t
  · exact h.confined_of_removeFile hremove

theorem At.of_put_ok (h : s.At t c)
    (hput : runFrom (s.put key text : ExceptT Error (StateM FileTree) Unit) t = (.ok (), u)) :
    s.found u key = .ok (some text) ∧ u.find (s.stagingPath key) = .error .notFound := by
  refine ⟨by rw [found, get_of_text (read_of_put hput)], ?_⟩
  obtain ⟨made, p, q, hmade, hstored⟩ := of_put hput
  rw [FileTree.ensureDirs_of_isDir h.isDir] at hmade
  cases hmade
  have hu := h.kept hstored.dirsKept
  have hplace := hstored.dirsKept.place hstored.staging
  cases h.place_stagingPath hstored.staging
  cases hu.place_entryPath hstored.entry
  have hnone : u.look? (c ++ [stagingName key]) = none := by
    rw [hstored.look, if_neg (place_ne c key key), if_pos rfl]
  rw [FileTree.find_of_place hplace, FileTree.look?_eq_none_iff.mp hnone]

theorem At.entry_of_put_ok (h : s.At t c)
    (hput : runFrom (s.put key text : ExceptT Error (StateM FileTree) Unit) t = (.ok (), u)) :
    u.stat? (c ++ [entryName key]) = some (some (Text.bytes text, t.now)) ∧ t.now < u.now := by
  obtain ⟨e, hfails⟩ | ⟨w, hwrite, ⟨e, hfails⟩ | ⟨v, hrename, hdone⟩⟩ := h.put_cases key text
  · cases hfails.symm.trans hput
  · cases hfails.symm.trans hput
  · cases hdone.symm.trans hput
    obtain ⟨p, hp, -, -, -, hwritten⟩ := FileTree.stat?_of_writeBytes hwrite
    obtain ⟨p', hp', hedited⟩ := FileTree.edited_of_writeBytes hwrite
    have hw := h.kept hedited.dirs
    obtain ⟨q, r, b, time, hq, hr, hmoved, -, -, hstat⟩ := FileTree.stat?_of_rename hrename
    obtain ⟨q', r', -, -, hnow, -⟩ := FileTree.frame_of_rename hrename
    cases h.place_stagingPath hp
    cases hw.place_stagingPath hq
    cases hw.place_entryPath hr
    rw [hwritten, if_pos rfl] at hmoved
    rw [hstat, if_pos rfl, ← hmoved]
    exact ⟨rfl, Nat.lt_of_lt_of_le hedited.now hnow⟩

theorem At.stat?_of_put_error (h : s.At t c) {e : Error}
    (hput : runFrom (s.put key text : ExceptT Error (StateM FileTree) Unit) t = (.error e, u))
    (hp : p ≠ c ++ [stagingName key]) : u.stat? p = t.stat? p := by
  obtain ⟨e', hfails⟩ | ⟨w, hwrite, ⟨e', hfails⟩ | ⟨v, -, hdone⟩⟩ := h.put_cases key text
  · cases hfails.symm.trans hput
    rfl
  · cases hfails.symm.trans hput
    obtain ⟨q, hplace, -, -, -, hstat⟩ := FileTree.stat?_of_writeBytes hwrite
    cases h.place_stagingPath hplace
    rw [hstat, if_neg hp]
  · cases hdone.symm.trans hput

theorem At.of_put_error (h : s.At t c) (hsound : t.Sound) {e : Error}
    (hput : runFrom (s.put key text : ExceptT Error (StateM FileTree) Unit) t = (.error e, u)) :
    s.found u key = s.found t key ∧ s.listed u = s.listed t := by
  have hconfined := h.confined_of_put key text
  have hsound' := preserves_put s key text t hsound
  rw [hput] at hconfined hsound'
  have hlook : ∀ p, p ≠ c ++ [stagingName key] → u.look? p = t.look? p := by
    intro p hp
    rw [FileTree.look?_eq_stat?, FileTree.look?_eq_stat?, h.stat?_of_put_error hput hp]
  have hu := h.kept hconfined.dirs
  exact ⟨h.reaches.found_eq hu.reaches (hlook _ (place_ne c key key).symm), h.listed_eq hu key hsound hsound' hlook⟩

theorem At.entry_of_remove (h : s.At t c) (key : String) :
    (runFrom (s.remove key : ExceptT Error (StateM FileTree) Unit) t).2 = t ∨
      (runFrom (s.remove key : ExceptT Error (StateM FileTree) Unit) t).2.stat?
        (c ++ [entryName key]) = none := by
  rw [runFrom_remove]
  rcases hremove : t.removeFile (s.entryPath key) with e | u
  · exact .inl rfl
  · obtain ⟨p, b, hplace, -, -, hstat⟩ := FileTree.stat?_of_removeFile hremove
    cases h.place_entryPath hplace
    refine .inr ?_
    dsimp only
    rw [hstat, if_pos rfl]

theorem of_remove_ok
    (hremove : runFrom (s.remove key : ExceptT Error (StateM FileTree) Unit) t = (.ok (), u)) :
    s.found u key = .ok none := by
  rw [runFrom_remove] at hremove
  rcases hfile : t.removeFile (s.entryPath key) with e | v
  · rw [hfile] at hremove
    dsimp only at hremove
    split at hremove
    · rename_i he
      cases he
      cases hremove
      exact found_of_notFound (FileTree.readBytes_of_removeFile_error hfile)
    · cases hremove
  · rw [hfile] at hremove
    cases hremove
    exact found_of_notFound (FileTree.readBytes_of_removeFile hfile)

theorem of_remove_error {e : Error}
    (hremove : runFrom (s.remove key : ExceptT Error (StateM FileTree) Unit) t = (.error e, u)) :
    u = t := by
  rw [runFrom_remove] at hremove
  rcases hfile : t.removeFile (s.entryPath key) with e' | v
  · rw [hfile] at hremove
    exact (congrArg Prod.snd hremove).symm
  · rw [hfile] at hremove
    cases hremove

/-- A put either gives the key its text and leaves no staging file, or fails and changes neither the
answer about the key nor the listing; a remove either leaves nothing under the key, or fails and
changes nothing. Neither changes what is found under another key, or any file but the two of the
key, which are in the directory; and no staging file is an entry. -/
theorem changes_confined (h : s.At t c) (hsound : t.Sound) (key text : String) :
    let put := runFrom (s.put key text : ExceptT Error (StateM FileTree) Unit) t
    let removed := runFrom (s.remove key : ExceptT Error (StateM FileTree) Unit) t
    (match put.1 with
      | .ok _ => s.found put.2 key = .ok (some text) ∧
          put.2.find (s.stagingPath key) = .error .notFound
      | .error _ => s.found put.2 key = s.found t key ∧ s.listed put.2 = s.listed t) ∧
    (match removed.1 with
      | .ok _ => s.found removed.2 key = .ok none
      | .error _ => removed.2 = t) ∧
    (∀ u ∈ [put.2, removed.2], (∀ other, other ≠ key → s.found u other = s.found t other) ∧
      ∀ p, p ≠ c ++ [entryName key] → p ≠ c ++ [stagingName key] → u.stat? p = t.stat? p) ∧
    (∀ p, t.place (s.entryPath key) = .ok p → p = c ++ [entryName key]) ∧
    (∀ p, t.place (s.stagingPath key) = .ok p → p = c ++ [stagingName key]) ∧
    ∀ other, stagingName key ≠ entryName other := by
  intro put removed
  refine ⟨?_, ?_, ?_, fun p => h.place_entryPath, fun p => h.place_stagingPath,
    stagingName_ne_entryName key⟩
  · rcases hput : put with ⟨e | _, u⟩
    · exact h.of_put_error hsound hput
    · exact h.of_put_ok hput
  · rcases hremove : removed with ⟨e | _, u⟩
    · exact of_remove_error hremove
    · exact of_remove_ok hremove
  · have hboth : ∀ u ∈ [put.2, removed.2], Confined c key t u := by
      intro u hu
      rcases List.mem_pair.mp hu with rfl | rfl
      · exact h.confined_of_put key text
      · exact h.confined_of_remove key
    exact fun u hu => ⟨fun other hother => (hboth u hu).found_eq h hother, (hboth u hu).stat⟩

def blocked : FileTree where
  nodes := [(["cache"], .dir 0), (["cache", "61.map.json"], .dir 0),
    (["cache", "62.map.json"], .file (Text.bytes "two") 0), (["cache", "notes"], .file [0xff] 0)]
  currentDir := []
  now := 1

theorem changes_confined_in_blocked :
    let s : DirectoryStore := ⟨"cache"⟩
    let put := runFrom (s.put "a" "one" : ExceptT Error (StateM FileTree) Unit) blocked
    let other := runFrom (s.put "c" "one" : ExceptT Error (StateM FileTree) Unit) blocked
    let removed := runFrom (s.remove "b" : ExceptT Error (StateM FileTree) Unit) blocked
    (put.1 = .error (s.failure "a" .isDirectory) ∧ s.found put.2 "b" = .ok (some "two") ∧
      s.listed put.2 = .ok ["b"]) ∧
    (other.1 = .ok () ∧ s.found other.2 "c" = .ok (some "one") ∧ s.found other.2 "b" = .ok (some "two")) ∧
    removed.1 = .ok () ∧ s.found removed.2 "b" = .ok none ∧ s.found removed.2 "c" = .ok none := by
  intro s put other removed
  have hstore : s.At blocked ["cache"] := ⟨by decide +kernel, by decide +kernel⟩
  have hfailed : put.1 = .error (s.failure "a" .isDirectory) := by decide +kernel
  have hdone : other.1 = .ok () := by decide +kernel
  have hgone : removed.1 = .ok () := by decide +kernel
  refine ⟨?_, ?_, ?_⟩
  · obtain ⟨hput, -, hothers, -⟩ := changes_confined hstore (by decide +kernel) "a" "one"
    rw [hfailed] at hput
    have hother := (hothers put.2 (List.mem_cons_self ..)).1 "b" (by decide)
    exact ⟨hfailed, hother.trans (by decide +kernel), hput.2.trans (by decide +kernel)⟩
  · obtain ⟨hput, -, hothers, -⟩ := changes_confined hstore (by decide +kernel) "c" "one"
    rw [hdone] at hput
    have hother := (hothers other.2 (List.mem_cons_self ..)).1 "b" (by decide)
    exact ⟨hdone, hput.1, hother.trans (by decide +kernel)⟩
  · obtain ⟨-, hremove, hothers, -⟩ := changes_confined hstore (by decide +kernel) "b" "one"
    rw [hgone] at hremove
    have hother := (hothers removed.2 (List.mem_cons_of_mem _ (List.mem_cons_self ..))).1 "c" (by decide)
    exact ⟨hgone, hremove, hother.trans (by decide +kernel)⟩

end DirectoryStore

end TemplateTrace
