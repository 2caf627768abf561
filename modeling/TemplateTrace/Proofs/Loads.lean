import TemplateTrace.Proofs.Progress
import TemplateTrace.Proofs.Winners

/-!
Building a map is loading and then assembling: the templates of the winning sites are loaded in
the order of their first mention, and the map is a function of their sources. Main statement:
`calculate_eq`, an equation between programs in any monad.
-/

namespace TemplateTrace

namespace Chain

variable {α β : Type}

def map (f : α → β) (c : Chain α) : Chain β := ⟨f c.innermost, c.enclosing.map f⟩

@[simp] theorem links_map (f : α → β) (c : Chain α) : (c.map f).links = c.links.map f := rfl

end Chain

namespace SourceMap

variable {m : Type → Type} [Monad m] {ε : Type}

def loadAll (load : String → ExceptT ε m Source) (paths : List String) :
    ExceptT ε m (Assoc String Source) :=
  paths.mapM fun path => do return (path, ← load path)

def sites (content : Bytes) (table : Table Location) : List Site :=
  (winning content table.entries).flatMap fun e => e.2.links

def loadOrder (content : Bytes) (table : Table Location) : List String :=
  firstSeen ((sites content table).map Site.path)

def assemble (content : Bytes) (table : Table Location) (answers : Assoc String Source) :
    SourceMap :=
  let p := Progress.extend {} answers
  ⟨p.files, (winners content table).map (Chain.map p.link)⟩

variable [LawfulMonad m] {load : String → ExceptT ε m Source}

theorem loadAll_cons (path : String) (rest : List String) :
    loadAll load (path :: rest) = (do
      let source ← load path
      let answers ← loadAll load rest
      return (path, source) :: answers) := by
  simp [loadAll]

theorem loadAll_append (paths more : List String) :
    loadAll load (paths ++ more) = (do
      let answers ← loadAll load paths
      let others ← loadAll load more
      return answers ++ others) := by
  simp [loadAll]

theorem loadAll_bind_congr {β : Type} {paths : List String}
    {f g : Assoc String Source → ExceptT ε m β}
    (h : ∀ answers, Assoc.keys answers = paths → f answers = g answers) :
    loadAll load paths >>= f = loadAll load paths >>= g := by
  induction paths generalizing f g with
  | nil => simpa [loadAll] using h [] rfl
  | cons path rest ih =>
    simp only [loadAll_cons, bind_assoc, pure_bind]
    refine bind_congr fun source => ih fun answers hanswers => ?_
    exact h _ (by rw [Assoc.keys, List.map_cons, ← Assoc.keys, hanswers])

theorem sourceOf_known {p : Progress} {path : String} {source : Source}
    (h : Assoc.lookup path p.sources = some source) :
    (sourceOf load path).run p = pure (source, p) := by
  simp [sourceOf, h]

theorem sourceOf_unknown {p : Progress} {path : String}
    (h : Assoc.lookup path p.sources = none) :
    (sourceOf load path).run p = (do
      let source ← load path
      return (source, { p with sources := Assoc.insert path source p.sources })) := by
  simp [sourceOf, h]

theorem resolveSite_run (p : Progress) (site : Site) :
    (resolveSite load site).run p = (do
      let (source, q) ← (sourceOf load site.path).run p
      let (file, q) := q.intern source.filename
      return (⟨file, source.lineAt site.offset⟩, q)) := by
  simp [resolveSite]

/-- An action that resolves the given sites: it loads what is missing for them, and its value
depends on their links only. -/
structure Resolves {β : Type} (load : String → ExceptT ε m Source)
    (act : StateT Progress (ExceptT ε m) β) (sites : List Site) (value : (Site → Link) → β) :
    Prop where
  run_eq : ∀ p : Progress, p.Named → act.run p = (do
    let answers ← loadAll load (newIn p.paths (sites.map Site.path))
    return (value (p.extend answers).link, p.extend answers))
  congr : ∀ f g : Site → Link, (∀ s ∈ sites, f s = g s) → value f = value g

namespace Resolves

variable {α β γ : Type}

theorem pure (b : β) : Resolves load (pure b) [] fun _ => b where
  run_eq p _ := by simp [newIn, loadAll, Progress.extend]
  congr _ _ _ := rfl

theorem bind {x : StateT Progress (ExceptT ε m) β} {k : β → StateT Progress (ExceptT ε m) γ}
    {s t : List Site} {u : (Site → Link) → β} {v : β → (Site → Link) → γ}
    (hx : Resolves load x s u) (hk : ∀ b, Resolves load (k b) t (v b)) :
    Resolves load (x >>= k) (s ++ t) fun f => v (u f) f where
  run_eq p hp := by
    rw [List.map_append, newIn_append, loadAll_append, StateT.run_bind, hx.run_eq p hp]
    simp only [bind_assoc, pure_bind]
    apply loadAll_bind_congr
    intro answers hanswers
    have hfresh := Progress.fresh_of_newIn hanswers
    have hnamed := Progress.named_extend hp answers
    rw [(hk _).run_eq _ hnamed, Progress.paths_extend hfresh, hanswers]
    apply loadAll_bind_congr
    intro more hmore
    have hfresh' : (p.extend answers).Fresh more :=
      Progress.fresh_of_newIn (by rw [hmore, Progress.paths_extend hfresh, hanswers])
    -- The value of the first part stays as it is while the second part learns more.
    have hu : u (p.extend answers).link = u ((p.extend answers).extend more).link := by
      apply hx.congr
      intro site hsite
      refine (Progress.link_extend hnamed hfresh' ?_).symm
      rw [Progress.paths_extend hfresh, hanswers, List.mem_append, mem_newIn_iff]
      by_cases hknown : site.path ∈ p.paths
      · exact .inl hknown
      · exact .inr ⟨List.mem_map_of_mem hsite, hknown⟩
    rw [Progress.extend_append, hu]
  congr f g h := by
    have hu := hx.congr f g fun s hs => h s (List.mem_append_left _ hs)
    simp only [hu]
    exact (hk _).congr f g fun s hs => h s (List.mem_append_right _ hs)

variable (load) in
theorem site (site : Site) : Resolves load (resolveSite load site) [site] fun f => f site where
  run_eq p hp := by
    rw [resolveSite_run, List.map_singleton]
    by_cases h : site.path ∈ p.paths
    · have hfile := Progress.mem_files_of_mem_paths hp h
      rw [sourceOf_known (Progress.lookup_of_mem_paths h)]
      simp [newIn, h, loadAll, Progress.intern_known hfile, Progress.extend, Progress.link]
    · rw [sourceOf_unknown ((Assoc.lookup_eq_none_iff _ _).mpr h)]
      rw [newIn, if_neg h, newIn, loadAll_cons]
      simp only [loadAll, List.mapM_nil, bind_assoc, pure_bind]
      apply bind_congr
      intro source
      rw [Progress.intern_learn, Progress.extend, List.foldl_cons, List.foldl_nil, Progress.link,
        Progress.source_learn, if_pos rfl]
  congr f g h := h site (List.mem_singleton_self site)

theorem mapM {act : α → StateT Progress (ExceptT ε m) β} {sites : α → List Site}
    {value : α → (Site → Link) → β} (h : ∀ a, Resolves load (act a) (sites a) (value a))
    (l : List α) :
    Resolves load (l.mapM act) (l.flatMap sites) fun f => l.map fun a => value a f := by
  induction l with
  | nil => exact Resolves.pure []
  | cons a rest ih =>
    rw [List.mapM_cons]
    simpa using (h a).bind fun b => ih.bind fun bs => Resolves.pure (b :: bs)

theorem foldlM {act : β → α → StateT Progress (ExceptT ε m) β} {sites : α → List Site}
    {value : β → α → (Site → Link) → β}
    (h : ∀ b a, Resolves load (act b a) (sites a) (value b a)) (l : List α) (b : β) :
    Resolves load (l.foldlM act b) (l.flatMap sites) fun f =>
      l.foldl (fun b a => value b a f) b := by
  induction l generalizing b with
  | nil => exact Resolves.pure b
  | cons a rest ih =>
    rw [List.foldlM_cons]
    exact (h b a).bind fun c => ih c

variable (load) in
theorem chain (c : Location) :
    Resolves load (c.mapM (resolveSite load)) c.links fun f => c.map f := by
  have h := (site load c.innermost).bind fun a =>
    (mapM (site load) c.enclosing).bind fun bs => Resolves.pure (Chain.mk a bs)
  simp only [List.flatMap_singleton', List.append_nil] at h
  exact h

variable (load) in
theorem table (t : Table Location) :
    Resolves load (t.mapM (Chain.mapM (resolveSite load))) (t.values.flatMap Chain.links)
      fun f => t.map (Chain.map f) := by
  have hstep (s : Table (Chain Link)) (e : Nat × Location) :
      Resolves load (do return s.insert e.1 (← e.2.mapM (resolveSite load))) e.2.links
        fun f => s.insert e.1 (e.2.map f) := by
    simpa only [List.append_nil] using
      (chain load e.2).bind fun c => Resolves.pure (s.insert e.1 c)
  have h := foldlM hstep t.entries Table.empty
  rw [Table.values, List.flatMap_map]
  simp only [Table.foldl_insert_eq_map] at h
  exact h

end Resolves

theorem calculate_eq (load : String → ExceptT ε m Source) (content : String)
    (table : Table Location) :
    calculate load content table = (do
      let answers ← loadAll load (loadOrder (Text.bytes content) table)
      return assemble (Text.bytes content) table answers) := by
  have hsites : (winners (Text.bytes content) table).values.flatMap Chain.links =
      sites (Text.bytes content) table := by
    rw [winners_values, List.flatMap_map, sites]
  have hrun := (Resolves.table load (winners (Text.bytes content) table)).run_eq {}
    Progress.named_empty
  rw [hsites] at hrun
  simp only [calculate, hrun, bind_assoc, pure_bind, loadOrder, firstSeen_eq]
  rfl

end SourceMap

end TemplateTrace
