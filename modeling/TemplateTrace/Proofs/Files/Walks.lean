import TemplateTrace.Proofs.Files.Paths
import TemplateTrace.Proofs.Runs

namespace TemplateTrace

def Node.content? : Node → Option Bytes
  | file content _ => some content
  | dir _ => none

namespace FileTree

variable {t u : FileTree} {p q : List String} {path name : String}

/-- What is at a place, apart from its time: a directory, or a file with its content. -/
def look? (t : FileTree) (p : List String) : Option (Option Bytes) := (t.node? p).map Node.content?

@[simp] theorem look?_root (t : FileTree) : t.look? [] = some none := rfl

theorem look?_eq_none_iff : t.look? p = none ↔ t.node? p = none := Option.map_eq_none_iff

theorem look?_eq_dir_iff : t.look? p = some none ↔ ∃ time, t.node? p = some (.dir time) := by
  rw [look?]
  rcases t.node? p with _ | ⟨content, time⟩ | time <;> simp [Node.content?]

theorem look?_eq_file_iff {b : Bytes} :
    t.look? p = some (some b) ↔ ∃ time, t.node? p = some (.file b time) := by
  rw [look?]
  rcases t.node? p with _ | ⟨content, time⟩ | time <;> simp [Node.content?]

def nextOf (p : List String) (name : String) : Except FileError (List String) :=
  if name = "." then .ok p
  else if name = ".." then .ok p.dropLast
  else if maxName < Text.size name then .error .nameTooLong
  else .ok (p ++ [name])

theorem step_eq (t : FileTree) (p : List String) (name : String) :
    t.step p name = match t.look? p with
      | none => .error .notFound
      | some none => nextOf p name
      | some (some _) => .error .notDirectory := by
  rw [step, look?]
  rcases t.node? p with _ | ⟨content, time⟩ | time <;> rfl

theorem step_dir (h : t.look? p = some none) (name : String) : t.step p name = nextOf p name := by
  rw [step_eq, h]

theorem step_none (h : t.look? p = none) (name : String) : t.step p name = .error .notFound := by
  rw [step_eq, h]

theorem nextOf_name (p : List String) (hname : Path.IsName name) (hsize : Text.size name ≤ maxName) :
    nextOf p name = .ok (p ++ [name]) := by
  rw [nextOf, if_neg hname.ne_dot, if_neg hname.ne_dots, if_neg (Nat.not_lt.mpr hsize)]

theorem size_le_of_nextOf (hname : Path.IsName name) (h : nextOf p name = .ok q) :
    Text.size name ≤ maxName := by
  rw [nextOf, if_neg hname.ne_dot, if_neg hname.ne_dots] at h
  split at h
  · cases h
  · omega

theorem look?_of_step (h : t.step p name = .ok q) : t.look? p = some none := by
  rw [step_eq] at h
  split at h
  · cases h
  · assumption
  · cases h

theorem walk_append (t : FileTree) (p : List String) (names more : List String) :
    t.walk p (names ++ more) = (do t.walk (← t.walk p names) more) := by
  induction names generalizing p with
  | nil => rfl
  | cons name rest ih =>
    rw [List.cons_append, walk, walk]
    rcases t.step p name with e | next
    · rfl
    · exact ih next

/-- Every directory is one after the change, and the current directory is the same. -/
structure DirsKept (t u : FileTree) : Prop where
  currentDir : u.currentDir = t.currentDir
  dir : ∀ p, t.look? p = some none → u.look? p = some none

theorem DirsKept.trans {v : FileTree} (h : DirsKept t u) (h' : DirsKept u v) : DirsKept t v :=
  ⟨h'.currentDir.trans h.currentDir, fun p hp => h'.dir p (h.dir p hp)⟩

namespace DirsKept

theorem step (h : DirsKept t u) (hstep : t.step p name = .ok q) : u.step p name = .ok q := by
  have hdir := look?_of_step hstep
  rwa [step_dir (h.dir p hdir), ← step_dir hdir]

theorem walk (h : DirsKept t u) {names : List String} (hwalk : t.walk p names = .ok q) :
    u.walk p names = .ok q := by
  induction names generalizing p with
  | nil => exact hwalk
  | cons name rest ih =>
    rw [FileTree.walk] at hwalk ⊢
    rcases hstep : t.step p name with e | next
    · rw [hstep] at hwalk
      cases hwalk
    · rw [hstep] at hwalk
      rw [h.step hstep]
      exact ih hwalk

theorem origin (h : DirsKept t u) (path : String) : u.origin path = t.origin path := by
  rw [FileTree.origin, FileTree.origin, h.currentDir]

theorem place (h : DirsKept t u) (hplace : t.place path = .ok p) : u.place path = .ok p := by
  rw [FileTree.place] at hplace ⊢
  rcases hcheck : checkPath path with e | _
  · rw [hcheck] at hplace
    cases hplace
  · rw [hcheck] at hplace
    rw [h.origin]
    exact h.walk hplace

end DirsKept

theorem place_of_check (t : FileTree) (h : checkPath path = .ok ()) :
    t.place path = t.walk (t.origin path) (stepsOf path) := by
  rw [place, h]
  rfl

theorem checkPath_of_place (h : t.place path = .ok p) : checkPath path = .ok () := by
  rw [place] at h
  rcases hcheck : checkPath path with e | _
  · rw [hcheck] at h
    cases h
  · rfl

theorem placeLast_nil (t : FileTree) (hcheck : checkPath path = .ok ()) (hsteps : stepsOf path = []) :
    t.placeLast path = .ok .special := by
  rw [placeLast, hcheck, hsteps]
  rfl

theorem placeLast_concat (t : FileTree) {before : List String} {last : String}
    (hcheck : checkPath path = .ok ()) (hsteps : stepsOf path = before ++ [last]) :
    t.placeLast path = (do
      let dir ← t.walk (t.origin path) before
      let _ ← t.step dir last
      return if last = "." ∨ last = ".." then .special else .name dir last) := by
  rw [placeLast, hcheck, hsteps]
  simp only [List.reverse_append, List.reverse_singleton, List.singleton_append, List.reverse_reverse]
  rcases t.walk (t.origin path) before with e | dir
  · rfl
  · by_cases hlast : last = "." ∨ last = ".."
    · simp only [if_pos hlast]
      rfl
    · simp only [if_neg hlast]
      rfl

theorem place_concat (t : FileTree) {before : List String} {last : String}
    (hcheck : checkPath path = .ok ()) (hsteps : stepsOf path = before ++ [last]) :
    t.place path = (do t.step (← t.walk (t.origin path) before) last) := by
  rw [place_of_check t hcheck, hsteps, walk_append]
  rcases t.walk (t.origin path) before with e | dir
  · rfl
  · show (do t.walk (← t.step dir last) []) = t.step dir last
    rcases t.step dir last with e | q <;> rfl

theorem checkPath_of_placeLast {l : Last} (h : t.placeLast path = .ok l) :
    checkPath path = .ok () := by
  rw [placeLast] at h
  obtain ⟨_, hcheck, -⟩ := ok_of_bind h
  exact hcheck

theorem step_name {last : String} (h : t.step p last = .ok q) (hlast : ¬ (last = "." ∨ last = "..")) :
    q = p ++ [last] := by
  rw [step_dir (look?_of_step h), nextOf] at h
  rw [not_or] at hlast
  rw [if_neg hlast.1, if_neg hlast.2] at h
  split at h
  · cases h
  · cases h
    rfl

theorem stepsOf_cases (path : String) : stepsOf path = [] ∨ ∃ before last, stepsOf path = before ++ [last] := by
  rcases List.eq_nil_or_concat (stepsOf path) with hsteps | ⟨before, last, hsteps⟩
  · exact .inl hsteps
  · exact .inr ⟨before, last, by rw [hsteps, List.concat_eq_append]⟩

theorem placeLast_of_place (h : t.place path = .ok p) :
    t.placeLast path = .ok .special ∨
      ∃ dir name, t.placeLast path = .ok (.name dir name) ∧ p = dir ++ [name] := by
  have hcheck := checkPath_of_place h
  rcases stepsOf_cases path with hsteps | ⟨before, last, hsteps⟩
  · exact .inl (placeLast_nil t hcheck hsteps)
  · rw [place_concat t hcheck hsteps] at h
    obtain ⟨dir, hwalk, hstep⟩ := ok_of_bind h
    have hlast : t.placeLast path = .ok (if last = "." ∨ last = ".." then .special else .name dir last) := by
      rw [placeLast_concat t hcheck hsteps, hwalk, ok_bind, hstep]
      rfl
    rw [hlast]
    by_cases hdots : last = "." ∨ last = ".."
    · exact .inl (by rw [if_pos hdots])
    · exact .inr ⟨dir, last, by rw [if_neg hdots], step_name hstep hdots⟩

theorem of_placeLast_name {dir : List String} (h : t.placeLast path = .ok (.name dir name)) :
    t.place path = .ok (dir ++ [name]) ∧ t.look? dir = some none := by
  have hcheck := checkPath_of_placeLast h
  rcases stepsOf_cases path with hsteps | ⟨before, last, hsteps⟩
  · rw [placeLast_nil t hcheck hsteps] at h
    cases h
  · rw [placeLast_concat t hcheck hsteps] at h
    obtain ⟨d, hwalk, h⟩ := ok_of_bind h
    obtain ⟨q, hstep, h⟩ := ok_of_bind h
    by_cases hlast : last = "." ∨ last = ".."
    · rw [if_pos hlast] at h
      cases h
    · rw [if_neg hlast] at h
      cases h
      rw [place_concat t hcheck hsteps, hwalk, ← step_name hstep hlast]
      exact ⟨hstep, look?_of_step hstep⟩

theorem place_of_placeLast_error {e : FileError} (h : t.placeLast path = .error e) :
    t.place path = .error e := by
  rcases hcheck : checkPath path with e' | _
  · rw [placeLast, hcheck] at h
    cases h
    rw [place, hcheck]
    rfl
  · rcases stepsOf_cases path with hsteps | ⟨before, last, hsteps⟩
    · rw [placeLast_nil t hcheck hsteps] at h
      cases h
    · rw [placeLast_concat t hcheck hsteps] at h
      rw [place_concat t hcheck hsteps]
      rcases hwalk : t.walk (t.origin path) before with e' | dir
      · rw [hwalk] at h
        cases h
        rfl
      · rw [hwalk, ok_bind] at h
        rw [ok_bind]
        rcases hstep : t.step dir last with e' | q
        · rw [hstep] at h
          cases h
          rfl
        · rw [hstep] at h
          cases h

section Join

variable {base : String}

theorem placeLast_join (t : FileTree) (hname : Path.IsName name) (hbase : checkPath base = .ok ())
    (hsize : Text.size (Path.join base name) ≤ maxPath) :
    t.placeLast (Path.join base name) = (do
      let dir ← t.place base
      let _ ← t.step dir name
      return .name dir name) := by
  have hdots : ¬ (name = "." ∨ name = "..") := not_or.mpr ⟨hname.ne_dot, hname.ne_dots⟩
  rw [placeLast_concat t (checkPath_join hname hbase hsize) (stepsOf_join hname base),
    origin_join t hname base, place_of_check t hbase]
  simp only [if_neg hdots]

theorem place_join (t : FileTree) (hname : Path.IsName name) (hbase : checkPath base = .ok ())
    (hsize : Text.size (Path.join base name) ≤ maxPath) :
    t.place (Path.join base name) = (do t.step (← t.place base) name) := by
  rw [place_concat t (checkPath_join hname hbase hsize) (stepsOf_join hname base),
    origin_join t hname base, place_of_check t hbase]

theorem placeLast_of_place_join (hname : Path.IsName name) (h : t.place (Path.join base name) = .ok p) :
    ∃ dir, t.placeLast (Path.join base name) = .ok (.name dir name) ∧ p = dir ++ [name] := by
  have hcheck := checkPath_of_place h
  have hdots : ¬ (name = "." ∨ name = "..") := not_or.mpr ⟨hname.ne_dot, hname.ne_dots⟩
  have hsteps := stepsOf_join hname base
  rw [place_concat t hcheck hsteps] at h
  obtain ⟨dir, hwalk, hstep⟩ := ok_of_bind h
  refine ⟨dir, ?_, step_name hstep hdots⟩
  rw [placeLast_concat t hcheck hsteps, hwalk, ok_bind, hstep, if_neg hdots]
  rfl

end Join

section Trailing

variable {base : String} {n : Nat}

def trailing (base : String) : Nat → String
  | 0 => base
  | n + 1 => trailing base n ++ "/"

theorem trailing_ne_empty (hbase : base ≠ "") (n : Nat) : trailing base n ≠ "" := by
  cases n with
  | zero => exact hbase
  | succ n =>
    rw [trailing, ne_eq, ← String.toList_eq_nil_iff, String.toList_append]
    simp

theorem size_trailing (base : String) (n : Nat) : Text.size (trailing base n) = Text.size base + n := by
  induction n with
  | zero => rfl
  | succ n ih =>
    have hslash : (Text.bytes "/").length = 1 := rfl
    rw [Text.size] at ih
    rw [trailing, Text.size, Text.bytes_append, List.length_append, ih, hslash, Nat.add_assoc]

theorem stepsOf_trailing (base : String) (n : Nat) : stepsOf (trailing base n) = stepsOf base := by
  induction n with
  | zero => rfl
  | succ n ih => rw [trailing, stepsOf_slash, ih]

theorem parent?_trailing (hbase : base ≠ "") (n : Nat) :
    Path.parent? (trailing base n) = Path.parent? base := by
  induction n with
  | zero => rfl
  | succ n ih => rw [trailing, Path.parent?_slash (trailing_ne_empty hbase n), ih]

theorem isAbsolute_trailing (hbase : base ≠ "") (n : Nat) :
    Path.isAbsolute (trailing base n) = Path.isAbsolute base := by
  induction n with
  | zero => rfl
  | succ n ih => rw [trailing, Path.isAbsolute_append (trailing_ne_empty hbase n), ih]

theorem checkPath_trailing (hcheck : checkPath base = .ok ()) (hsize : Text.size base + n ≤ maxPath) :
    checkPath (trailing base n) = .ok () := by
  obtain ⟨hnul, hempty, -⟩ := checkPath_eq_ok_iff.mp hcheck
  refine checkPath_eq_ok_iff.mpr ⟨?_, trailing_ne_empty hempty n, by rwa [size_trailing]⟩
  clear hsize
  induction n with
  | zero => exact hnul
  | succ n ih =>
    rw [trailing, String.toList_append, List.mem_append, not_or]
    exact ⟨ih, by decide⟩

theorem place_trailing (t : FileTree) (hcheck : checkPath base = .ok ())
    (hsize : Text.size base + n ≤ maxPath) : t.place (trailing base n) = t.place base := by
  have hempty := (checkPath_eq_ok_iff.mp hcheck).2.1
  rw [place, place, checkPath_trailing hcheck hsize, hcheck, origin, origin,
    isAbsolute_trailing hempty, stepsOf_trailing]

theorem placeLast_trailing (t : FileTree) (hcheck : checkPath base = .ok ())
    (hsize : Text.size base + n ≤ maxPath) : t.placeLast (trailing base n) = t.placeLast base := by
  have hempty := (checkPath_eq_ok_iff.mp hcheck).2.1
  rw [placeLast, placeLast, checkPath_trailing hcheck hsize, hcheck, origin, origin,
    isAbsolute_trailing hempty, stepsOf_trailing]

end Trailing

end FileTree

end TemplateTrace
