import TemplateTrace.Proofs.Store.Programs

/-!
What holds of a cache directory, and of each client that puts or gets under one key, while others go
on. A put that has opened the staging file relies on it until it has moved it.
-/

namespace TemplateTrace

instance : DecidableEq StoreEvent
  | ⟨c, a⟩, ⟨c', a'⟩ =>
    if h : c = c' then decidable_of_iff (h ▸ a = a') (by subst h; simp)
    else isFalse fun heq => h (congrArg StoreEvent.call heq)

def StoreEvent.stored? (key : String) : StoreEvent → Option String
  | ⟨.put k text, .ok _⟩ => if k = key then some text else none
  | _ => none

def lastStored? (key : String) (log : List StoreEvent) : Option String :=
  log.reverse.findSome? (·.stored? key)

theorem lastStored?_concat (key : String) (log : List StoreEvent) (e : StoreEvent) :
    lastStored? key (log ++ [e]) = (e.stored? key).or (lastStored? key log) := by
  rw [lastStored?, lastStored?, List.reverse_concat, List.findSome?_cons]
  rcases e.stored? key with _ | text <;> rfl

namespace DirectoryStore

variable {s : DirectoryStore} {key text : String} {calls : List StoreCall} {t u v : FileTree}
  {c : List String} {log : List StoreEvent} {answer : Except Error (Option String)}

/-- An answer after these events: the text that was stored last or, before any was, what was found
at first. A directory that is made may show that a key under which nothing was found cannot be read. -/
def Whole (s : DirectoryStore) (t : FileTree) (key : String) (calls : List StoreCall)
    (log : List StoreEvent) (answer : Except Error (Option String)) : Prop :=
  match lastStored? key log with
  | some text => answer = .ok (some text) ∧ .put key text ∈ calls
  | none =>
    answer = s.found t key ∨
      t.isDir s.dir = false ∧ s.found t key = .ok none ∧ ∃ e, answer = .error e

theorem found_eq_text_iff :
    s.found t key = .ok (some text) ↔ t.readBytes (s.entryPath key) = .ok (Text.bytes text) := by
  rw [found_eq_answer, answer_eq_text_iff]

theorem found_of_grown (h : FileTree.Grown t u)
    (hidden : s.found t key = .ok none →
      t.look? (FileTree.destination t.currentDir (s.entryPath key)) = none) :
    s.found u key = s.found t key ∨ s.found t key = .ok none ∧ ∃ e, s.found u key = .error e := by
  rw [found_eq_answer, answer_eq_none_iff] at hidden
  rw [found_eq_answer, found_eq_answer, answer_eq_none_iff]
  rcases h.readBytes hidden with heq | ⟨hmissing, e, he⟩
  · exact .inl (by rw [heq])
  · by_cases hnone : e = .notFound
    · rw [hmissing, he, hnone]
      exact .inl rfl
    · refine .inr ⟨hmissing, s.failure key e, ?_⟩
      rw [he, answer, if_neg hnone]

theorem Reaches.place_ne_notFound (h : s.Reaches t c) :
    t.place (s.entryPath key) ≠ .error .notFound := by
  have hname := isName_entryName key
  have hempty : s.entryPath key ≠ "" := by
    intro heq
    have hsuffix := Path.suffix_join s.dir (entryName key)
    rw [← entryPath, heq] at hsuffix
    exact Path.toList_ne_nil hname.nonempty (List.suffix_nil.mp hsuffix)
  have hcheck : FileTree.checkPath (s.entryPath key) ≠ .error .notFound := by
    rw [FileTree.checkPath, if_neg hempty]
    intro h
    split at h
    · cases h
    · split at h <;> cases h
  have hnext : FileTree.nextOf c (entryName key) ≠ .error .notFound := by
    rw [FileTree.nextOf, if_neg hname.ne_dot, if_neg hname.ne_dots]
    intro h
    split at h <;> cases h
  intro hplace
  rw [entryPath, h.place_child hname] at hplace
  rcases hpath : FileTree.checkPath (Path.join s.dir (entryName key)) with e | _
  · rw [hpath] at hplace
    cases hplace
    exact hcheck hpath
  · rw [hpath] at hplace
    exact hnext hplace

theorem Reaches.hidden (h : s.Reaches t c) (hnone : s.found t key = .ok none) :
    t.look? (FileTree.destination t.currentDir (s.entryPath key)) = none := by
  rw [found_eq_answer, answer_eq_none_iff] at hnone
  rcases hplace : t.place (s.entryPath key) with e | p
  · rw [FileTree.readBytes_of_place_error hplace] at hnone
    cases hnone
    exact absurd hplace h.place_ne_notFound
  · rw [← FileTree.eq_destination_of_place hplace]
    rw [FileTree.readBytes_of_place hplace] at hnone
    rcases hlook : t.look? p with _ | _ | b
    · rfl
    · rw [hlook] at hnone
      cases hnone
    · rw [hlook] at hnone
      dsimp only at hnone
      split at hnone <;> cases hnone

theorem Reaches.of_stagingPath {p : List String} (hplace : t.place (s.stagingPath key) = .ok p) :
    ∃ c, s.Reaches t c ∧ p = c ++ [stagingName key] := by
  rw [stagingPath_eq] at hplace
  exact Reaches.of_place (isName_stagingName key) hplace

/-- What holds of the tree and the answers after any calls. -/
structure Kept (s : DirectoryStore) (t : FileTree) (key : String) (calls : List StoreCall)
    (u : FileTree) (log : List StoreEvent) : Prop where
  dirs : FileTree.DirsKept t u
  found : s.Whole t key calls log (s.found u key)
  answers : ∀ before answer after, log = before ++ ⟨.get key, answer⟩ :: after →
    s.Whole t key calls before answer
  /-- Either no staging file has been opened, or the directory is there. -/
  reached : FileTree.Grown t u ∧ lastStored? key log = none ∨ ∃ c, s.Reaches u c

theorem Whole.concat {e : StoreEvent} (h : s.Whole t key calls log answer)
    (he : e.stored? key = none) : s.Whole t key calls (log ++ [e]) answer := by
  rw [Whole, lastStored?_concat, he]
  exact h

namespace Kept

theorem start (s : DirectoryStore) (t : FileTree) (key : String) (calls : List StoreCall) :
    s.Kept t key calls t [] where
  dirs := ⟨rfl, fun _ h => h⟩
  found := .inl rfl
  answers before answer after h := by simp at h
  reached := .inl ⟨.refl t, rfl⟩

theorem answers_concat (h : s.Kept t key calls u log) {e : StoreEvent}
    (hget : ∀ answer, e = ⟨.get key, answer⟩ → answer = s.found u key) :
    ∀ before answer after, log ++ [e] = before ++ ⟨.get key, answer⟩ :: after →
      s.Whole t key calls before answer := by
  intro before answer after heq
  rcases List.eq_nil_or_concat after with rfl | ⟨later, last, rfl⟩
  · obtain ⟨rfl, hlast⟩ := List.append_inj' heq rfl
    cases hget answer (List.singleton_inj.mp hlast)
    exact h.found
  · rw [List.concat_eq_append, ← List.cons_append, ← List.append_assoc] at heq
    exact h.answers before answer later (List.append_inj' heq rfl).1

theorem concat (h : s.Kept t key calls u log) {e : StoreEvent} (he : e.stored? key = none)
    (hget : ∀ answer, e = ⟨.get key, answer⟩ → answer = s.found u key) :
    s.Kept t key calls u (log ++ [e]) where
  dirs := h.dirs
  found := h.found.concat he
  answers := h.answers_concat hget
  reached := by
    rw [lastStored?_concat, he]
    exact h.reached

theorem failed (h : s.Kept t key calls u log) (text : String) (e : Error) :
    s.Kept t key calls u (log ++ [⟨.put key text, .error e⟩]) := by
  refine h.concat rfl fun answer heq => ?_
  cases heq

theorem grown (h : s.Kept t key calls u log) (hdir : t.isDir s.dir = false)
    (hidden : s.found t key = .ok none →
      t.look? (FileTree.destination t.currentDir (s.entryPath key)) = none)
    (hgrown : FileTree.Grown u v) : s.Kept t key calls v log where
  dirs := h.dirs.trans hgrown.kept.dirsKept
  found := by
    have hfound := h.found
    rw [Whole] at hfound ⊢
    rcases hlast : lastStored? key log with _ | text
    · rw [hlast] at hfound
      rcases h.reached with ⟨hsofar, -⟩ | ⟨c, hreaches⟩
      · exact (found_of_grown (hsofar.trans hgrown) hidden).imp_right fun hnew => ⟨hdir, hnew⟩
      · rcases found_of_grown hgrown hreaches.hidden with heq | ⟨hnone, e, he⟩
        · rw [heq]
          exact hfound
        · rw [hnone] at hfound
          refine .inr ⟨hdir, ?_, e, he⟩
          rcases hfound with hfirst | ⟨-, -, e', he'⟩
          · exact hfirst.symm
          · cases he'
    · rw [hlast] at hfound
      obtain ⟨htext, hcall⟩ := hfound
      exact ⟨found_eq_text_iff.mpr (hgrown.kept.readBytes (found_eq_text_iff.mp htext)), hcall⟩
  answers := h.answers
  reached := h.reached.imp (fun ⟨hsofar, hnone⟩ => ⟨hsofar.trans hgrown, hnone⟩)
    fun ⟨c, hreaches⟩ => ⟨c, hreaches.kept hgrown.kept.dirsKept⟩

theorem staged (h : s.Kept t key calls u log) (hreaches : s.Reaches u c)
    (hdirs : FileTree.DirsKept u v)
    (hlook : v.look? (c ++ [entryName key]) = u.look? (c ++ [entryName key])) :
    s.Kept t key calls v log where
  dirs := h.dirs.trans hdirs
  found := by
    rw [hreaches.found_eq (hreaches.kept hdirs) hlook]
    exact h.found
  answers := h.answers
  reached := .inr ⟨c, hreaches.kept hdirs⟩

theorem stored (h : s.Kept t key calls u log) (hreaches : s.Reaches u c)
    (hdirs : FileTree.DirsKept u v) (hcall : .put key text ∈ calls)
    (hread : v.readBytes (s.entryPath key) = .ok (Text.bytes text)) :
    s.Kept t key calls v (log ++ [⟨.put key text, .ok ()⟩]) where
  dirs := h.dirs.trans hdirs
  found := by
    have hstored : (⟨.put key text, .ok ()⟩ : StoreEvent).stored? key = some text := if_pos rfl
    rw [Whole, lastStored?_concat, hstored]
    exact ⟨found_eq_text_iff.mpr hread, hcall⟩
  answers := by
    refine h.answers_concat fun answer heq => ?_
    cases heq
  reached := .inr ⟨c, hreaches.kept hdirs⟩

end Kept

/-- A client and what it relies on, if it goes on at all. -/
inductive Stage (s : DirectoryStore) (key : String) (calls : List StoreCall) (home : Prop)
    (d : Disk) (live : Prop) : Calls StoreEvent → Prop
  | reading : Stage s key calls home d live (s.reading key)
  | making {text : String} {p : Calls StoreEvent} (hcall : .put key text ∈ calls)
      (hmakes : p.MakesDirs (s.Opens key text)) (hready : home → s.Ready key text p) :
      Stage s key calls home d live p
  | writing {text : String} {file : Nat} (hcall : .put key text ∈ calls)
      (hopened : live → ∃ p, d.opened[file]? = some (some p) ∧
        d.tree.place (s.stagingPath key) = .ok p ∧ d.tree.look? p = some (some [])) :
      Stage s key calls home d live (s.writing key text file)
  | moving {text : String} (hcall : .put key text ∈ calls)
      (hwritten : live → d.tree.readBytes (s.stagingPath key) = .ok (Text.bytes text)) :
      Stage s key calls home d live (s.moving key text)
  | done (e : StoreEvent) : Stage s key calls home d live (.done e)

variable {home live live' : Prop} {d d' : Disk} {p q : Calls StoreEvent}

theorem Stage.mono (h : Stage s key calls home d live p) (hlive : live' → live)
    (hkept : live' → p.holds = true → d'.opened = d.opened ∧ FileTree.Extends d.tree d'.tree) :
    Stage s key calls home d' live' p := by
  cases h with
  | reading => exact .reading
  | making hcall hmakes hready => exact .making hcall hmakes hready
  | writing hcall hopened =>
    refine .writing hcall fun h => ?_
    obtain ⟨hsame, hextends⟩ := hkept h rfl
    obtain ⟨p, hopen, hplace, hlook⟩ := hopened (hlive h)
    exact ⟨p, hsame ▸ hopen, hextends.dirsKept.place hplace, hextends.look p _ hlook⟩
  | moving hcall hwritten =>
    refine .moving hcall fun h => ?_
    exact (hkept h rfl).2.readBytes (hwritten (hlive h))
  | done e => exact .done e

theorem holds_of_makesDirs (h : p.MakesDirs (s.Opens key text)) : p.holds = false := by
  rcases h with ⟨rfl | ⟨e, rfl⟩⟩ | _ | _ <;> rfl

theorem Kept.ended (h : s.Kept t key calls u log) (hp : p.MakesDirs (s.Opens key text)) :
    s.Kept t key calls u (log ++ p.result?.toList) := by
  have hrunning : s.Kept t key calls u (log ++ []) := by rwa [List.append_nil]
  rcases hp with ⟨rfl | ⟨e, rfl⟩⟩ | _ | _
  · exact hrunning
  · exact h.failed text _
  · exact hrunning
  · exact hrunning

end DirectoryStore

end TemplateTrace
