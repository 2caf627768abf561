import TemplateTrace.Proofs.Loads
import TemplateTrace.Proofs.Runs

namespace TemplateTrace

namespace SourceMap

variable {ε σ : Type}

structure Call (ε : Type) where
  path : String
  answer : Except ε Source

def recorded (load : String → ExceptT ε (StateM σ) Source) (path : String) :
    ExceptT ε (StateM (σ × List (Call ε))) Source :=
  ExceptT.mk fun (s, made) =>
    let (answer, t) := runFrom (load path) s
    (answer, t, made ++ [⟨path, answer⟩])

def callsOf (load : String → ExceptT ε (StateM σ) Source) (content : String)
    (table : Table Location) (s : σ) : List (Call ε) :=
  (runFrom (calculate (recorded load) content table) (s, [])).2.2

def callsFrom (load : String → ExceptT ε (StateM σ) Source) : List String → σ → List (Call ε)
  | [], _ => []
  | path :: rest, s =>
    match runFrom (load path) s with
    | (.ok source, t) => ⟨path, .ok source⟩ :: callsFrom load rest t
    | (.error e, _) => [⟨path, .error e⟩]

def answersOf : List (Call ε) → Except ε (Assoc String Source)
  | [] => .ok []
  | ⟨path, .ok source⟩ :: rest => (answersOf rest).map ((path, source) :: ·)
  | ⟨_, .error e⟩ :: _ => .error e

theorem answersOf_isOk {calls : List (Call ε)} (h : ∀ c ∈ calls, c.answer.isOk) :
    (answersOf calls).isOk := by
  induction calls with
  | nil => rfl
  | cons c rest ih =>
    obtain ⟨path, _ | source⟩ := c
    · simp [Except.isOk, Except.toBool] at h
    · have hrest := ih fun d hd => h d (List.mem_cons_of_mem _ hd)
      rw [answersOf]
      cases ha : answersOf rest with
      | error e => rw [ha] at hrest; exact hrest
      | ok answers => rfl

theorem answersOf_append_error {answered : List (Call ε)} (h : ∀ c ∈ answered, c.answer.isOk)
    (path : String) (e : ε) : answersOf (answered ++ [⟨path, .error e⟩]) = .error e := by
  induction answered with
  | nil => rfl
  | cons c rest ih =>
    obtain ⟨other, _ | source⟩ := c
    · simp [Except.isOk, Except.toBool] at h
    · rw [List.cons_append, answersOf, ih fun d hd => h d (List.mem_cons_of_mem _ hd)]
      rfl

variable (load : String → ExceptT ε (StateM σ) Source)

theorem runFrom_recorded (path : String) (s : σ) (made : List (Call ε)) :
    runFrom (recorded load path) (s, made) =
      ((runFrom (load path) s).1, (runFrom (load path) s).2,
        made ++ [⟨path, (runFrom (load path) s).1⟩]) := rfl

theorem runFrom_loadAll_recorded (paths : List String) (s : σ) (made : List (Call ε)) :
    runFrom (loadAll (recorded load) paths) (s, made) =
      ((runFrom (loadAll load paths) s).1, (runFrom (loadAll load paths) s).2,
        made ++ callsFrom load paths s) := by
  induction paths generalizing s made with
  | nil => simp [loadAll, callsFrom]
  | cons path rest ih =>
    rw [loadAll_cons, loadAll_cons, callsFrom]
    have hrec := runFrom_recorded load path s made
    rcases h : runFrom (load path) s with ⟨e | source, t⟩
    · rw [h] at hrec
      rw [runFrom_bind_error h, runFrom_bind_error hrec]
    · rw [h] at hrec
      rw [runFrom_bind_ok h, runFrom_bind_ok hrec, runFrom_map, runFrom_map, ih]
      simp

theorem runFrom_loadAll (paths : List String) (s : σ) :
    (runFrom (loadAll load paths) s).1 = answersOf (callsFrom load paths s) := by
  induction paths generalizing s with
  | nil => rfl
  | cons path rest ih =>
    rw [loadAll_cons, callsFrom]
    rcases h : runFrom (load path) s with ⟨e | source, t⟩
    · rw [runFrom_bind_error h]
      rfl
    · rw [runFrom_bind_ok h, runFrom_map, ih]
      rfl

theorem callsFrom_cases (paths : List String) (s : σ) :
    ((∀ c ∈ callsFrom load paths s, c.answer.isOk) ∧
        (callsFrom load paths s).map Call.path = paths) ∨
      ∃ answered path e, callsFrom load paths s = answered ++ [⟨path, .error e⟩] ∧
        (∀ c ∈ answered, c.answer.isOk) ∧ (callsFrom load paths s).map Call.path <+: paths := by
  induction paths generalizing s with
  | nil => exact .inl ⟨by simp [callsFrom], rfl⟩
  | cons path rest ih =>
    rw [callsFrom]
    rcases runFrom (load path) s with ⟨e | source, t⟩
    · exact .inr ⟨[], path, e, rfl, by simp, by simp⟩
    · rcases ih t with ⟨hok, hpaths⟩ | ⟨answered, other, e, hcalls, hok, hprefix⟩
      · exact .inl ⟨by simpa [Except.isOk, Except.toBool] using hok, by simp [hpaths]⟩
      · refine .inr ⟨⟨path, .ok source⟩ :: answered, other, e, by simp [hcalls], ?_, ?_⟩
        · simpa [Except.isOk, Except.toBool] using hok
        · simpa using hprefix

theorem callsOf_eq (content : String) (table : Table Location) (s : σ) :
    callsOf load content table s =
      callsFrom load (loadOrder (Text.bytes content) table) s := by
  rw [callsOf, calculate_eq, runFrom_map, runFrom_loadAll_recorded, List.nil_append]

theorem runFrom_calculate (content : String) (table : Table Location) (s : σ) :
    (runFrom (calculate load content table) s).1 =
      (answersOf (callsOf load content table s)).map (assemble (Text.bytes content) table) := by
  rw [calculate_eq, runFrom_map, runFrom_loadAll, callsOf_eq]

theorem mem_loadOrder_iff_site {content : Bytes} {table : Table Location} {path : String} :
    path ∈ loadOrder content table ↔ ∃ site ∈ sites content table, site.path = path := by
  simp [loadOrder, firstSeen_eq, mem_newIn_iff]

theorem mem_loadOrder_iff {content : Bytes} {table : Table Location} {path : String} :
    path ∈ loadOrder content table ↔
      ∃ e ∈ table.entries, Wins content table.entries e ∧ ∃ site ∈ e.2.links, site.path = path := by
  simp only [mem_loadOrder_iff_site, sites, List.mem_flatMap, mem_winning_iff]
  constructor
  · rintro ⟨site, ⟨e, ⟨he, hwins⟩, hsite⟩, rfl⟩
    exact ⟨e, he, hwins, site, hsite, rfl⟩
  · rintro ⟨e, he, hwins, site, hsite, rfl⟩
    exact ⟨site, ⟨e, ⟨he, hwins⟩, hsite⟩, rfl⟩

/-- The calls of a build are those for the paths of the winning chains in order of first mention,
up to the first that fails, whose error is the build's; and the build depends on its loader
through these calls only. Keeping the calls changes neither the result nor the loader's state. -/
theorem calculate_calls (content : String) (table : Table Location) (s : σ) :
    let order := loadOrder (Text.bytes content) table
    let calls := callsOf load content table s
    let result := (runFrom (calculate load content table) s).1
    runFrom (calculate (recorded load) content table) (s, []) =
        (result, (runFrom (calculate load content table) s).2, calls) ∧
      (((∀ c ∈ calls, c.answer.isOk) ∧ calls.map Call.path = order ∧ result.isOk) ∨
        ∃ answered path e, calls = answered ++ [⟨path, .error e⟩] ∧
          (∀ c ∈ answered, c.answer.isOk) ∧ calls.map Call.path <+: order ∧ result = .error e) ∧
      order.Nodup ∧
      (∀ path ∈ order, ∃ e ∈ table.entries, Wins (Text.bytes content) table.entries e ∧
        ∃ site ∈ e.2.links, site.path = path) ∧
      ∀ {τ : Type} (other : String → ExceptT ε (StateM τ) Source) (t : τ),
        callsOf other content table t = calls →
          (runFrom (calculate other content table) t).1 = result := by
  intro order calls result
  have hcalls : calls = callsFrom load order s := callsOf_eq load content table s
  have hresult : result = (answersOf calls).map (assemble (Text.bytes content) table) :=
    runFrom_calculate load content table s
  refine ⟨?_, ?_, ?_, fun path hpath => mem_loadOrder_iff.mp hpath, ?_⟩
  · have hkept := runFrom_loadAll_recorded load order s []
    rw [List.nil_append, ← hcalls] at hkept
    simp only [result, calculate_eq, runFrom_map]
    rw [hkept]
  · rw [hresult, hcalls]
    rcases callsFrom_cases load order s with ⟨hok, hpaths⟩ | ⟨answered, path, e, h, hok, hprefix⟩
    · refine .inl ⟨hok, hpaths, ?_⟩
      have hanswers := answersOf_isOk hok
      cases ha : answersOf (callsFrom load order s) with
      | error e => rw [ha] at hanswers; exact hanswers
      | ok answers => rfl
    · refine .inr ⟨answered, path, e, h, hok, hprefix, ?_⟩
      rw [h, answersOf_append_error hok]
      rfl
  · rw [show order = _ from firstSeen_eq _]
    exact nodup_newIn _ _
  · intro τ other t hsame
    rw [runFrom_calculate other, hsame, hresult]

end SourceMap

end TemplateTrace
