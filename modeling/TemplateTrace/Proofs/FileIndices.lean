import TemplateTrace.Proofs.Stacks
import TemplateTrace.SourceMap.Wire

namespace TemplateTrace.SourceMap

def frame? (m : SourceMap) (l : Link) : Option Frame := m.files[l.file]?.map (⟨·, l.line⟩)

def stack? (m : SourceMap) (line : Nat) : Option (List Frame) :=
  match m.lines.floor? line with
  | none => some []
  | some (_, chain) => chain.links.mapM m.frame?

def paths? (m : SourceMap) : Option (List String) :=
  (m.links.mapM fun l => m.files[l.file]?).map firstSeen

theorem getElem?_of_lt {m : SourceMap} {i : Nat} (h : i < m.files.length) :
    m.files[i]? = some (m.fileName i) := by
  rw [fileName_of_lt h, List.getElem?_eq_getElem h]

theorem mapM_of_forall_some {α β : Type} {l : List α} {f : α → Option β} {g : α → β}
    (h : ∀ a ∈ l, f a = some (g a)) : l.mapM f = some (l.map g) := by
  induction l with
  | nil => rfl
  | cons a rest ih =>
    have hrest := ih fun b hb => h b (List.mem_cons_of_mem _ hb)
    rw [List.mapM_cons, h a List.mem_cons_self, hrest]
    rfl

theorem mem_links_of_floor? {m : SourceMap} {n : Nat} {e : Nat × Chain Link}
    (h : m.lines.floor? n = some e) {l : Link} (hl : l ∈ e.2.links) : l ∈ m.links := by
  obtain ⟨hmem, -, -⟩ := Table.mem_of_floor? h
  exact List.mem_flatMap.mpr ⟨e.2, List.mem_map_of_mem hmem, hl⟩

theorem Closed.stack?_eq {m : SourceMap} (h : m.Closed) (n : Nat) :
    m.stack? n = some (m.stack n) := by
  rw [stack?, stack]
  cases hf : m.lines.floor? n with
  | none => rfl
  | some e =>
    apply mapM_of_forall_some
    intro l hl
    rw [frame?, getElem?_of_lt (h l (mem_links_of_floor? hf hl))]
    rfl

theorem Closed.paths?_eq {m : SourceMap} (h : m.Closed) : m.paths? = some m.paths := by
  rw [paths?, mapM_of_forall_some fun l hl => getElem?_of_lt (h l hl)]
  rfl

theorem closed_of_deserialize {b : Bytes} {m : SourceMap} (h : deserialize b = .ok m) :
    m.Closed := by
  rw [deserialize] at h
  split at h
  · cases h
  · split at h
    · cases h
    · split at h
      · cases h
      · rename_i hnone
        cases h
        exact (dangling?_eq_none_iff _).mp hnone

variable {ε σ : Type} {load : String → ExceptT ε (StateM σ) Source}

theorem sourceOf_files {path : String} {p q : Progress} {source : Source} {s t : σ}
    (h : runFrom ((sourceOf load path).run p) s = (.ok (source, q), t)) : q.files = p.files := by
  cases hl : Assoc.lookup path p.sources with
  | some found =>
    rw [sourceOf_known hl] at h
    cases h
    rfl
  | none =>
    rw [sourceOf_unknown hl] at h
    obtain ⟨found, u, -, h⟩ := runFrom_bind_eq_ok h
    cases h
    rfl

theorem resolveSite_step {site : Site} {p q : Progress} {l : Link} {s t : σ}
    (h : runFrom ((resolveSite load site).run p) s = (.ok (l, q), t)) :
    p.files <+: q.files ∧ l.file < q.files.length := by
  rw [resolveSite_run] at h
  obtain ⟨⟨source, r⟩, u, hs, h⟩ := runFrom_bind_eq_ok h
  cases h
  rw [← sourceOf_files hs]
  exact ⟨Progress.prefix_intern r _, Progress.intern_lt r _⟩

theorem resolveSites_run {l : List Site} {p q : Progress} {links : List Link} {s t : σ}
    (h : runFrom ((l.mapM (resolveSite load)).run p) s = (.ok (links, q), t)) :
    p.files <+: q.files ∧ ∀ l ∈ links, l.file < q.files.length := by
  induction l generalizing p links s with
  | nil =>
    cases h
    exact ⟨List.prefix_rfl, by simp⟩
  | cons site rest ih =>
    rw [List.mapM_cons, StateT.run_bind] at h
    obtain ⟨⟨link, r⟩, u, hsite, h⟩ := runFrom_bind_eq_ok h
    rw [StateT.run_bind] at h
    obtain ⟨⟨others, r'⟩, v, hrest, h⟩ := runFrom_bind_eq_ok h
    cases h
    obtain ⟨hfirst, hlink⟩ := resolveSite_step hsite
    obtain ⟨hmore, hothers⟩ := ih hrest
    refine ⟨hfirst.trans hmore, ?_⟩
    simp only [List.mem_cons, forall_eq_or_imp]
    exact ⟨Nat.lt_of_lt_of_le hlink hmore.length_le, hothers⟩

def stage {m : Type → Type} [Monad m] (load : String → ExceptT ε m Source) (content : String)
    (table : Table Location) (k : Nat) : ExceptT ε m (List Link × Progress) :=
  (((sites (Text.bytes content) table).take k).mapM (resolveSite load)).run {}

theorem links_assemble (content : Bytes) (table : Table Location) (answers : Assoc String Source) :
    (assemble content table answers).links =
      (sites content table).map (Progress.extend {} answers).link := by
  rw [links, Table.values, assemble_entries, sites, List.map_map, List.map_flatMap,
    List.flatMap_map]
  rfl

theorem calculate_stage {m : Type → Type} [Monad m] [LawfulMonad m]
    (load : String → ExceptT ε m Source) (content : String) (table : Table Location) (k : Nat) :
    (do let map ← calculate load content table; return (map.links, map.files)) = (do
      let (links, p) ← stage load content table k
      let (more, q) ←
        (((sites (Text.bytes content) table).drop k).mapM (resolveSite load)).run p
      return (links ++ more, q.files)) := by
  have hall := (Resolves.mapM (Resolves.site load) (sites (Text.bytes content) table)).run_eq {}
    Progress.named_empty
  have hsplit : (sites (Text.bytes content) table).mapM (resolveSite load) = (do
      let links ← ((sites (Text.bytes content) table).take k).mapM (resolveSite load)
      let more ← ((sites (Text.bytes content) table).drop k).mapM (resolveSite load)
      return links ++ more) := by
    rw [← List.mapM_append, List.take_append_drop]
  rw [List.flatMap_singleton', hsplit] at hall
  have hall' := congrArg (fun act => act >>= fun (links, q) => pure (links, q.files)) hall
  simp only [StateT.run_bind, StateT.run_pure, bind_assoc, pure_bind] at hall'
  simp only [calculate_eq, bind_assoc, pure_bind, links_assemble, stage]
  rw [hall', loadOrder, firstSeen_eq]
  rfl

theorem closed_of_calculate {content : String} {table : Table Location} {map : SourceMap} {s t : σ}
    (h : runFrom (calculate load content table) s = (.ok map, t)) : map.Closed := by
  obtain ⟨answers, -, hkeys, rfl⟩ := calculate_ok h
  intro l hl
  rw [links_assemble] at hl
  obtain ⟨site, hsite, rfl⟩ := List.mem_map.mp hl
  obtain ⟨e, he, hsite⟩ := List.mem_flatMap.mp hsite
  exact Progress.link_file_lt (Progress.named_extend Progress.named_empty answers)
    (mem_paths_of_winning hkeys he hsite)

def InBounds (m : SourceMap) : Prop :=
  m.Closed ∧ (∀ n, m.stack? n = some (m.stack n)) ∧ m.paths? = some m.paths

theorem Closed.inBounds {m : SourceMap} (h : m.Closed) : m.InBounds :=
  ⟨h, h.stack?_eq, h.paths?_eq⟩

/-- The maps that come from a build or from a text are in bounds; so are the links of a build
after each of its stages, also where the build fails later. -/
theorem maps_inBounds :
    (∀ {ε σ : Type} (load : String → ExceptT ε (StateM σ) Source) (content : String)
        (table : Table Location) (s t : σ) (map : SourceMap),
      runFrom (calculate load content table) s = (.ok map, t) → map.InBounds) ∧
    (∀ (b : Bytes) (map : SourceMap), deserialize b = .ok map → map.InBounds) ∧
    (∀ {ε σ : Type} (load : String → ExceptT ε (StateM σ) Source) (content : String)
        (table : Table Location) (k : Nat) (s t : σ) (links : List Link) (p : Progress),
      runFrom (stage load content table k) s = (.ok (links, p), t) →
        ∀ l ∈ links, l.file < p.files.length) ∧
    ∀ {ε : Type} {m : Type → Type} [Monad m] [LawfulMonad m] (load : String → ExceptT ε m Source)
        (content : String) (table : Table Location) (k : Nat),
      (do let map ← calculate load content table; return (map.links, map.files)) = (do
        let (links, p) ← stage load content table k
        let (more, q) ←
          (((sites (Text.bytes content) table).drop k).mapM (resolveSite load)).run p
        return (links ++ more, q.files)) := by
  refine ⟨?_, ?_, ?_, calculate_stage⟩
  · intro ε σ load content table s t map h
    exact (closed_of_calculate h).inBounds
  · intro b map h
    exact (closed_of_deserialize h).inBounds
  · intro ε σ load content table k s t links p h
    exact (resolveSites_run h).2

end TemplateTrace.SourceMap
