import TemplateTrace.Proofs.Mentions

namespace TemplateTrace

theorem FileTree.any_modified?_iff {t : FileTree} {time : Nat} {file : String} :
    ((t.modified? file).any fun changed => decide (changed ≤ time)) = true ↔
      ∃ x, t.find file = .ok x ∧ x.modified ≤ time := by
  rw [modified?]
  cases t.find file with
  | error e => simp
  | ok x => simp

namespace DirectoryStore

variable {s : DirectoryStore} {key text : String} {t u : FileTree} {time : Nat}

theorem runFrom_unchangedSince (time : Nat) (file : String) (t : FileTree) :
    runFrom (liftM (unchangedSince time file : StateM FileTree Bool) :
        ExceptT Error (StateM FileTree) Bool) t =
      (.ok ((t.modified? file).any fun changed => decide (changed ≤ time)), t) := by
  have hmodified : (Files.modified? file : StateM FileTree (Option Nat)) t = (t.modified? file, t) := rfl
  apply runFrom_lift
  rw [unchangedSince, bind_of_eq hmodified]
  rcases t.modified? file with _ | changed <;> rfl

theorem runFrom_allM_unchangedSince (time : Nat) (files : List String) (t : FileTree) :
    runFrom (files.allM fun file => (unchangedSince time file : StateM FileTree Bool) :
        ExceptT Error (StateM FileTree) Bool) t =
      (.ok (files.all fun file => (t.modified? file).any fun changed => decide (changed ≤ time)), t) := by
  induction files with
  | nil => rfl
  | cons file rest ih =>
    rw [List.allM, runFrom_bind_ok (runFrom_unchangedSince time file t), List.all_cons]
    cases (t.modified? file).any fun changed => decide (changed ≤ time) with
    | false => rfl
    | true => exact ih

def verdict (t : FileTree) (time : Nat) (text : String) : Bool :=
  match SourceMap.deserialize (Text.bytes text) with
  | .error _ => false
  | .ok map => map.paths.all fun file => (t.modified? file).any fun changed => decide (changed ≤ time)

theorem runFrom_isFresh (s : DirectoryStore) (key : String) (t : FileTree) :
    runFrom (s.isFresh key : ExceptT Error (StateM FileTree) Bool) t =
      (match t.modified? (s.entryPath key) with
        | none => .ok false
        | some time => (s.answer key (t.readBytes (s.entryPath key))).map fun text? =>
          text?.any (verdict t time), t) := by
  have hmodified : runFrom (liftM (Files.modified? (s.entryPath key) : StateM FileTree (Option Nat)) :
      ExceptT Error (StateM FileTree) (Option Nat)) t = (.ok (t.modified? (s.entryPath key)), t) :=
    runFrom_lift rfl
  rw [isFresh, runFrom_bind_ok hmodified]
  cases t.modified? (s.entryPath key) with
  | none => rfl
  | some time =>
    have hget := runFrom_get s key t
    dsimp only
    cases hanswer : s.answer key (t.readBytes (s.entryPath key)) with
    | error e =>
      rw [hanswer] at hget
      rw [runFrom_bind_error hget]
      rfl
    | ok text? =>
      rw [hanswer] at hget
      rw [runFrom_bind_ok hget]
      cases text? with
      | none => rfl
      | some text =>
        simp only [Except.map, Option.any_some, verdict]
        cases SourceMap.deserialize (Text.bytes text) with
        | error e => rfl
        | ok map => exact runFrom_allM_unchangedSince time map.paths t

theorem of_verdict (h : verdict t time text = true) :
    ∃ map, SourceMap.deserialize (Text.bytes text) = .ok map ∧
      ∀ file ∈ map.paths, ∃ changed, t.modified? file = some changed ∧ changed ≤ time := by
  rw [verdict] at h
  split at h
  · cases h
  · rename_i map hmap
    refine ⟨map, hmap, fun file hfile => ?_⟩
    have hany := List.all_eq_true.mp h file hfile
    obtain ⟨changed, hchanged, hle⟩ := (Option.any_eq_true _ _).mp hany
    exact ⟨changed, hchanged, of_decide_eq_true hle⟩

theorem of_isFresh
    (h : runFrom (s.isFresh key : ExceptT Error (StateM FileTree) Bool) t = (.ok true, u)) :
    ∃ time text map, t.modified? (s.entryPath key) = some time ∧
      t.readBytes (s.entryPath key) = .ok (Text.bytes text) ∧
      SourceMap.deserialize (Text.bytes text) = .ok map ∧
      ∀ file ∈ map.paths, ∃ changed, t.modified? file = some changed ∧ changed ≤ time := by
  rw [runFrom_isFresh] at h
  cases htime : t.modified? (s.entryPath key) with
  | none =>
    rw [htime] at h
    cases h
  | some time =>
    rw [htime] at h
    cases hanswer : s.answer key (t.readBytes (s.entryPath key)) with
    | error e =>
      rw [hanswer] at h
      cases h
    | ok text? =>
      rw [hanswer] at h
      have hany : text?.any (verdict t time) = true := Except.ok.inj (Prod.mk.inj h).1
      obtain ⟨text, rfl, hverdict⟩ := (Option.any_eq_true _ _).mp hany
      obtain ⟨map, hmap, hfiles⟩ := of_verdict hverdict
      exact ⟨time, text, map, rfl, answer_eq_text_iff.mp hanswer, hmap, hfiles⟩

theorem verdict_iff_frames {map : SourceMap} (h : SourceMap.deserialize (Text.bytes text) = .ok map) :
    verdict t time text = true ↔
      ∀ n, ∀ f ∈ map.stack n, ∃ x, t.find f.file = .ok x ∧ x.modified ≤ time := by
  rw [verdict, h]
  simp only [List.all_eq_true, FileTree.any_modified?_iff]
  have hlists := map.lists_paths
  constructor
  · intro hfiles n f hf
    exact hfiles f.file (hlists.of_stack n f hf)
  · intro hframes file hfile
    obtain ⟨n, -, f, hf, rfl⟩ := hlists.of_file file hfile
    exact hframes n f hf

/-- An entry that can be read is fresh just where the file of every frame of every line is there and
was not modified after it; an entry that is not there or cannot be read is not fresh. No file is
changed by the check. -/
theorem isFresh_iff_frames (s : DirectoryStore) (key : String) (t : FileTree) :
    let checked := runFrom (s.isFresh key : ExceptT Error (StateM FileTree) Bool) t
    checked.2 = t ∧
      (∀ e, t.find (s.entryPath key) = .error e → checked.1 = .ok false) ∧
      ∀ text time, t.find (s.entryPath key) = .ok (.file (Text.bytes text) time) →
        (∀ e, SourceMap.deserialize (Text.bytes text) = .error e → checked.1 = .ok false) ∧
        ∀ map, SourceMap.deserialize (Text.bytes text) = .ok map →
          ∃ fresh, checked.1 = .ok fresh ∧
            (fresh = true ↔ ∀ n, ∀ f ∈ map.stack n, ∃ x, t.find f.file = .ok x ∧ x.modified ≤ time) := by
  intro checked
  have hchecked : checked = _ := runFrom_isFresh s key t
  refine ⟨by rw [hchecked], fun e hfind => ?_, fun text time hfind => ?_⟩
  · rw [hchecked, FileTree.modified?, hfind]
  · have hread : t.readBytes (s.entryPath key) = .ok (Text.bytes text) := FileTree.readBytes_of_find hfind rfl
    have hverdict : checked.1 = .ok (verdict t time text) := by
      rw [hchecked, FileTree.modified?, hfind, answer_eq_text_iff.mpr hread]
      rfl
    constructor
    · intro e hmap
      rw [hverdict, verdict, hmap]
    · intro map hmap
      exact ⟨_, hverdict, verdict_iff_frames hmap⟩

def twoFiles : SourceMap where
  files := ["/views/page", "/views/base"]
  lines := ⟨[(1, ⟨⟨0, 1⟩, [⟨1, 2⟩]⟩)], by decide⟩

def dated (base : Nat) : FileTree where
  nodes := [(["cache"], .dir 0), (["cache", "61.map.json"], .file (Text.bytes twoFiles.serialize) 5),
    (["views"], .dir 0), (["views", "page"], .file [] 5), (["views", "base"], .file [] base)]
  currentDir := []
  now := 9

theorem isFresh_iff_frames_dated :
    let s : DirectoryStore := ⟨"cache"⟩
    SourceMap.deserialize (Text.bytes twoFiles.serialize) = .ok twoFiles ∧
      (runFrom (s.isFresh "a" : ExceptT Error (StateM FileTree) Bool) (dated 5)).1 = .ok true ∧
      (runFrom (s.isFresh "a" : ExceptT Error (StateM FileTree) Bool) (dated 6)).1 = .ok false := by
  intro s
  have hread : SourceMap.deserialize (Text.bytes twoFiles.serialize) = .ok twoFiles := by decide +kernel
  have hentry (base : Nat) (hbase : base = 5 ∨ base = 6) :
      (dated base).find (s.entryPath "a") = .ok (.file (Text.bytes twoFiles.serialize) 5) := by
    rcases hbase with rfl | rfl <;>
      exact FileTree.find_eq_file_iff.mpr ⟨["cache", "61.map.json"], by decide +kernel, rfl, by decide +kernel⟩
  refine ⟨hread, ?_, ?_⟩
  · obtain ⟨-, -, hchecked⟩ := isFresh_iff_frames s "a" (dated 5)
    obtain ⟨fresh, hfresh, hiff⟩ := (hchecked _ 5 (hentry 5 (.inl rfl))).2 twoFiles hread
    have hframes : ∀ n, ∀ f ∈ twoFiles.stack n, ∃ x, (dated 5).find f.file = .ok x ∧ x.modified ≤ 5 := by
      intro n f hf
      obtain ⟨k, hk, hf⟩ := SourceMap.exists_recorded hf
      have hone : k = 1 := by simpa [SourceMap.recordedLines, twoFiles] using hk
      have hfile : f.file = "/views/page" ∨ f.file = "/views/base" := by
        have hstack : ∀ f ∈ twoFiles.stack 1, f.file = "/views/page" ∨ f.file = "/views/base" := by decide
        exact hstack f (hone ▸ hf)
      rcases hfile with heq | heq <;> rw [heq] <;>
        exact ⟨.file [] 5, by decide +kernel, Nat.le_refl 5⟩
    rw [hfresh, hiff.mpr hframes]
  · obtain ⟨-, -, hchecked⟩ := isFresh_iff_frames s "a" (dated 6)
    obtain ⟨fresh, hfresh, hiff⟩ := (hchecked _ 5 (hentry 6 (.inr rfl))).2 twoFiles hread
    have hnewer : (dated 6).find "/views/base" = .ok (.file [] 6) := by decide +kernel
    have hstale : fresh = false := by
      rw [← Bool.not_eq_true, hiff]
      intro hframes
      obtain ⟨x, hfind, hle⟩ := hframes 8 ⟨"/views/base", 2⟩ (by decide)
      cases hnewer.symm.trans hfind
      exact absurd hle (by decide)
    rw [hfresh, hstale]

end DirectoryStore

end TemplateTrace
