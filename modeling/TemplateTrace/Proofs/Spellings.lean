import TemplateTrace.Proofs.FileTable
import TemplateTrace.Proofs.Templates

/-!
Spellings of logical paths. While the loader keeps its answers, what the builder remembers of a path
is what loading it again would give, so that a build depends on the answers for its sites only. The
answers for two paths that lead to one file differ in nothing but the path that an error names.
-/

namespace TemplateTrace

theorem Chain.map_eq {α β γ : Type} {c : Chain α} {d : Chain β} {f : α → γ} {g : β → γ}
    (h : List.Forall₂ (fun a b => f a = g b) c.links d.links) : c.map f = d.map g := by
  cases h with
  | cons hinner houter =>
    refine Chain.ext hinner ?_
    rwa [← List.forall₂_eq_eq_eq, Chain.map, Chain.map, List.forall₂_map_left_iff, List.forall₂_map_right_iff]

namespace SourceMap

section Matching

variable {R : Site → Site → Prop} {content : Bytes} {l l' : List (Nat × Location)}
  {table other : Table Location}

def Matching (R : Site → Site → Prop) : List (Nat × Location) → List (Nat × Location) → Prop :=
  List.Forall₂ fun e d => e.1 = d.1 ∧ List.Forall₂ R e.2.links d.2.links

theorem Matching.imp {S : Site → Site → Prop} (h : Matching R l l') (hsites : ∀ a b, R a b → S a b) :
    Matching S l l' :=
  List.Forall₂.imp (fun _ _ hed => ⟨hed.1, hed.2.imp hsites⟩) h

theorem Matching.offsets (h : Matching R l l') : l.map Prod.fst = l'.map Prod.fst := by
  rw [← List.forall₂_eq_eq_eq, List.forall₂_map_left_iff, List.forall₂_map_right_iff]
  exact List.Forall₂.imp (fun _ _ hed => hed.1) h

theorem wins_iff {e : Nat × Location} : Wins content l e ↔
    ∀ k ∈ l.map Prod.fst, k < e.1 → Text.lineAt content k ≠ Text.lineAt content e.1 := by
  rw [List.forall_mem_map]
  rfl

theorem Matching.winning (h : Matching R l l') (content : Bytes) :
    Matching R (winning content l) (winning content l') := by
  refine List.rel_filter (fun e d hed => ?_) h
  change decide (Wins content l e) = true ↔ decide (Wins content l' d) = true
  rw [decide_eq_true_iff, decide_eq_true_iff, wins_iff, wins_iff, h.offsets, hed.1]

structure Place where
  offset : Nat
  depth : Nat
  site : Site

def Place.Matches (R : Site → Site → Prop) (p q : Place) : Prop :=
  p.offset = q.offset ∧ p.depth = q.depth ∧ R p.site q.site

def placesAt (e : Nat × Location) : List Place :=
  e.2.links.mapIdx fun depth site => ⟨e.1, depth, site⟩

def places (content : Bytes) (table : Table Location) : List Place :=
  (winning content table.entries).flatMap placesAt

theorem map_site_places (content : Bytes) (table : Table Location) :
    (places content table).map Place.site = sites content table := by
  rw [places, List.map_flatMap, sites]
  refine List.flatMap_congr fun e _ => ?_
  exact List.ext_getElem (by simp [placesAt]) fun i _ _ => by simp [placesAt]

theorem matches_placesAt {e d : Nat × Location} (hoffset : e.1 = d.1)
    (h : List.Forall₂ R e.2.links d.2.links) :
    List.Forall₂ (Place.Matches R) (placesAt e) (placesAt d) := by
  refine List.forall₂_iff_get.mpr ⟨by simp [placesAt, h.length_eq], fun i hi hi' => ?_⟩
  simp only [placesAt, List.get_eq_getElem, List.getElem_mapIdx]
  rw [placesAt, List.length_mapIdx] at hi hi'
  exact ⟨hoffset, rfl, h.get hi hi'⟩

theorem Matching.places (h : Matching R table.entries other.entries) (content : Bytes) :
    List.Forall₂ (Place.Matches R) (places content table) (places content other) :=
  List.rel_flatMap (h.winning content) fun _ _ hed => matches_placesAt hed.1 hed.2

theorem Matching.sites (h : Matching R (SourceMap.winning content table.entries)
      (SourceMap.winning content other.entries)) :
    List.Forall₂ R (sites content table) (sites content other) :=
  List.rel_flatMap h fun _ _ hed => hed.2

theorem ofSources_congr {source source' : String → Source}
    (h : Matching (fun a b => a.offset = b.offset ∧ source a.path = source' b.path)
      (winning content table.entries) (winning content other.entries)) :
    ofSources content table source = ofSources content other source' := by
  have hfiles : fileTable content table source = fileTable content other source' := by
    rw [fileTable, fileTable]
    congr 1
    rw [← List.forall₂_eq_eq_eq, List.forall₂_map_left_iff, List.forall₂_map_right_iff]
    exact h.sites.imp fun a b hab => congrArg Source.filename hab.2
  apply SourceMap.ext
  · exact hfiles
  · apply Table.ext
    rw [ofSources_entries, ofSources_entries, hfiles, ← List.forall₂_eq_eq_eq, List.forall₂_map_left_iff,
      List.forall₂_map_right_iff]
    refine List.Forall₂.imp (fun e d hed => ?_) h
    rw [hed.1]
    refine congrArg (Prod.mk _) (Chain.map_eq (hed.2.imp fun a b hab => ?_))
    rw [linkTo, linkTo, hab.1, hab.2]

end Matching

section Steady

variable {ε σ : Type} {load : String → ExceptT ε (StateM σ) Source} {answer : String → Except ε Source}
  {s : σ} {p : Progress} {path content : String} {source : Source} {site : Site} {e : ε}
  {table : Table Location}

/-- From this state the loader answers each path in one way, however often it is asked. -/
def Steady (load : String → ExceptT ε (StateM σ) Source) (s : σ) (answer : String → Except ε Source) :
    Prop :=
  ∀ path, runFrom (load path) s = (answer path, s)

def Remembers (answer : String → Except ε Source) (p : Progress) : Prop :=
  ∀ path source, Assoc.lookup path p.sources = some source → answer path = .ok source

theorem remembers_empty (answer : String → Except ε Source) : Remembers answer {} := nofun

theorem sources_intern (p : Progress) (name : String) : (p.intern name).2.sources = p.sources := by
  rw [Progress.intern]
  split <;> rfl

theorem Remembers.insert (hp : Remembers answer p) (h : answer path = .ok source) :
    Remembers answer { p with sources := Assoc.insert path source p.sources } := by
  intro other found hfound
  rw [Assoc.lookup_insert] at hfound
  split at hfound
  · rename_i hother
    cases hfound
    rw [hother, h]
  · exact hp other found hfound

theorem sourceOf_answered (hload : Steady load s answer) (hp : Remembers answer p)
    (h : answer path = .ok source) :
    ∃ q, runFrom ((sourceOf load path).run p) s = (.ok (source, q), s) ∧ Remembers answer q := by
  cases hlookup : Assoc.lookup path p.sources with
  | some found =>
    -- What is remembered is not loaded again, but it is what would be loaded.
    cases (hp path found hlookup).symm.trans h
    refine ⟨p, ?_, hp⟩
    rw [sourceOf_known hlookup]
    rfl
  | none =>
    have hanswer : runFrom (load path) s = (.ok source, s) := by rw [hload path, h]
    refine ⟨_, ?_, hp.insert h⟩
    rw [sourceOf_unknown hlookup, runFrom_bind_ok hanswer]
    rfl

theorem sourceOf_refused (hload : Steady load s answer) (hp : Remembers answer p)
    (h : answer path = .error e) : runFrom ((sourceOf load path).run p) s = (.error e, s) := by
  have hanswer : runFrom (load path) s = (.error e, s) := by rw [hload path, h]
  cases hlookup : Assoc.lookup path p.sources with
  | some found => cases (hp path found hlookup).symm.trans h
  | none =>
    rw [sourceOf_unknown hlookup]
    exact runFrom_bind_error hanswer

theorem resolveSite_answered (hload : Steady load s answer) (hp : Remembers answer p)
    (h : answer site.path = .ok source) :
    ∃ l q, runFrom ((resolveSite load site).run p) s = (.ok (l, q), s) ∧ Remembers answer q := by
  obtain ⟨q, hsource, hq⟩ := sourceOf_answered hload hp h
  refine ⟨⟨(q.intern source.filename).1, source.lineAt site.offset⟩, (q.intern source.filename).2, ?_, ?_⟩
  · rw [resolveSite_run, runFrom_bind_ok hsource]
    rfl
  · rwa [Remembers, sources_intern]

theorem resolveSite_refused (hload : Steady load s answer) (hp : Remembers answer p)
    (h : answer site.path = .error e) :
    runFrom ((resolveSite load site).run p) s = (.error e, s) := by
  rw [resolveSite_run]
  exact runFrom_bind_error (sourceOf_refused hload hp h)

theorem resolveSites_answered (hload : Steady load s answer) {sites : List Site}
    (h : ∀ site ∈ sites, ∃ source, answer site.path = .ok source) (hp : Remembers answer p) :
    ∃ links q, runFrom ((sites.mapM (resolveSite load)).run p) s = (.ok (links, q), s) ∧
      Remembers answer q := by
  induction sites generalizing p with
  | nil => exact ⟨[], p, rfl, hp⟩
  | cons site rest ih =>
    rw [List.forall_mem_cons] at h
    obtain ⟨⟨source, hsource⟩, hmore⟩ := h
    obtain ⟨l, q, hsite, hq⟩ := resolveSite_answered hload hp hsource
    obtain ⟨links, r, hrest, hr⟩ := ih hmore hq
    refine ⟨l :: links, r, ?_, hr⟩
    rw [List.mapM_cons, StateT.run_bind, runFrom_bind_ok hsite, StateT.run_bind, runFrom_bind_ok hrest]
    rfl

/-- The build stops at a link: those before it are resolved, and the one there is not. -/
structure StopsAt (load : String → ExceptT ε (StateM σ) Source) (content : String)
    (table : Table Location) (s : σ) (k : Nat) (place : Place) (e : ε) : Prop where
  place : (places (Text.bytes content) table)[k]? = some place
  before : ∃ links p, runFrom (stage load content table k) s = (.ok (links, p), s)
  link : runFrom (stage load content table (k + 1)) s = (.error e, s)
  build : runFrom (calculate load content table) s = (.error e, s)

theorem calculate_of_stage_error {k : Nat} {t : σ}
    (h : runFrom (stage load content table k) s = (.error e, t)) :
    runFrom (calculate load content table) s = (.error e, t) := by
  have hrun := congrArg (runFrom · s) (calculate_stage load content table k)
  simp only [runFrom_bind_error h, runFrom_map] at hrun
  rcases hcalculate : runFrom (calculate load content table) s with ⟨d | map, u⟩
  · rw [hcalculate] at hrun
    cases hrun
    rfl
  · rw [hcalculate] at hrun
    cases hrun

theorem stopsAt_of_answers (hload : Steady load s answer) {before after : List Place} {place : Place}
    (hplaces : places (Text.bytes content) table = before ++ place :: after)
    (hbefore : ∀ q ∈ before, ∃ source, answer q.site.path = .ok source)
    (h : answer place.site.path = .error e) : StopsAt load content table s before.length place e := by
  have hsites : sites (Text.bytes content) table =
      before.map Place.site ++ [place.site] ++ after.map Place.site := by
    rw [← map_site_places, hplaces, List.append_cons, List.map_append, List.map_append]
    rfl
  obtain ⟨links, p, hrun, hp⟩ := resolveSites_answered hload (List.forall_mem_map.mpr hbefore)
    (remembers_empty answer)
  have hlink : runFrom (stage load content table (before.length + 1)) s = (.error e, s) := by
    rw [stage, hsites, List.take_left' (by simp), List.mapM_append, StateT.run_bind, runFrom_bind_ok hrun,
      List.mapM_cons, bind_assoc, StateT.run_bind]
    exact runFrom_bind_error (resolveSite_refused hload hp h)
  refine ⟨by simp [hplaces], ⟨links, p, ?_⟩, hlink, calculate_of_stage_error hlink⟩
  rw [stage, hsites, List.append_assoc, List.take_left' (by simp)]
  exact hrun

theorem loadAll_steady {source : String → Source} (hload : Steady load s answer) {paths : List String}
    (h : ∀ path ∈ paths, answer path = .ok (source path)) :
    runFrom (loadAll load paths) s = (.ok (paths.map fun path => (path, source path)), s) := by
  induction paths with
  | nil => rfl
  | cons path rest ih =>
    rw [List.forall_mem_cons] at h
    have hfirst : runFrom (load path) s = (.ok (source path), s) := by rw [hload path, h.1]
    rw [loadAll_cons, runFrom_bind_ok hfirst, runFrom_bind_ok (ih h.2)]
    rfl

theorem calculate_answered {source : String → Source} (hload : Steady load s answer)
    (h : ∀ site ∈ sites (Text.bytes content) table, answer site.path = .ok (source site.path)) :
    runFrom (calculate load content table) s = (.ok (ofSources (Text.bytes content) table source), s) := by
  have horder : ∀ path ∈ loadOrder (Text.bytes content) table, answer path = .ok (source path) := by
    intro path hpath
    obtain ⟨site, hsite, rfl⟩ := mem_loadOrder_iff_site.mp hpath
    exact h site hsite
  have hkeys : Assoc.keys ((loadOrder (Text.bytes content) table).map fun path => (path, source path)) =
      loadOrder (Text.bytes content) table := by
    rw [Assoc.keys, List.map_map]
    exact List.map_id _
  rw [calculate_eq, runFrom_bind_ok (loadAll_steady hload horder), runFrom_pure, assemble_eq hkeys]
  congr 2
  refine ofSources_congr (List.forall₂_same.mpr fun e he => ⟨rfl, List.forall₂_same.mpr fun site hsite => ?_⟩)
  have hpath := mem_loadOrder_iff_site.mpr ⟨site, List.mem_flatMap.mpr ⟨e, he, hsite⟩, rfl⟩
  exact ⟨rfl, source_of_answer hkeys (List.mem_map_of_mem hpath)⟩

end Steady

def Alike (answer : String → Except Failure Source) (a b : Site) : Prop :=
  a.offset = b.offset ∧
    ((∃ source, answer a.path = .ok source ∧ answer b.path = .ok source) ∨
      ∃ reason, answer a.path = .error (.error (.templateLoad a.path reason)) ∧
        answer b.path = .error (.error (.templateLoad b.path reason)))

theorem forall₂_or_first {α β : Type} {P Q : α → β → Prop} {l : List α} {l' : List β}
    (h : List.Forall₂ (fun a b => P a b ∨ Q a b) l l') :
    List.Forall₂ P l l' ∨ ∃ before before' a b after after', l = before ++ a :: after ∧
      l' = before' ++ b :: after' ∧ List.Forall₂ P before before' ∧ Q a b := by
  induction h with
  | nil => exact .inl .nil
  | @cons a b rest rest' hab _ ih =>
    rcases hab with hab | hab
    · rcases ih with hall | ⟨before, before', c, d, after, after', rfl, rfl, hbefore, hcd⟩
      · exact .inl (.cons hab hall)
      · exact .inr ⟨a :: before, b :: before', c, d, after, after', rfl, rfl, .cons hab hbefore, hcd⟩
    · exact .inr ⟨[], [], a, b, rest, rest', rfl, rfl, .nil, hab⟩

theorem forall_of_forall₂ {α β : Type} {P : α → Prop} {Q : β → Prop} {l : List α} {l' : List β}
    (h : List.Forall₂ (fun a b => P a ∧ Q b) l l') : (∀ a ∈ l, P a) ∧ ∀ b ∈ l', Q b := by
  induction h with
  | nil => exact ⟨nofun, nofun⟩
  | cons hab _ ih => exact ⟨List.forall_mem_cons.mpr ⟨hab.1, ih.1⟩, List.forall_mem_cons.mpr ⟨hab.2, ih.2⟩⟩

variable {σ : Type} {load : String → ExceptT Failure (StateM σ) Source}
  {answer : String → Except Failure Source} {s : σ} {table other : Table Location} {content : String}

def sourceOfAnswer (answer : String → Except Failure Source) (path : String) : Source :=
  (answer path).toOption.getD ⟨"", ""⟩

theorem calculate_of_places (hload : Steady load s answer)
    (h : ∀ place ∈ places (Text.bytes content) table, ∃ source, answer place.site.path = .ok source) :
    runFrom (calculate load content table) s =
      (.ok (ofSources (Text.bytes content) table (sourceOfAnswer answer)), s) := by
  refine calculate_answered hload fun site hsite => ?_
  rw [← map_site_places] at hsite
  obtain ⟨place, hplace, rfl⟩ := List.mem_map.mp hsite
  obtain ⟨source, hsource⟩ := h place hplace
  rw [sourceOfAnswer, hsource]
  rfl

theorem Alike.source_eq {a b : Site} (h : Alike answer a b) :
    sourceOfAnswer answer a.path = sourceOfAnswer answer b.path := by
  rw [sourceOfAnswer, sourceOfAnswer]
  rcases h.2 with ⟨source, ha, hb⟩ | ⟨reason, ha, hb⟩
  · rw [ha, hb]
  · rw [ha, hb]
    rfl

theorem calculate_alike (hload : Steady load s answer)
    (h : Matching (Alike answer) table.entries other.entries) (content : String) :
    (∃ map, runFrom (calculate load content table) s = (.ok map, s) ∧
        runFrom (calculate load content other) s = (.ok map, s)) ∨
      ∃ k place place' reason, place.offset = place'.offset ∧ place.depth = place'.depth ∧
        StopsAt load content table s k place (.error (.templateLoad place.site.path reason)) ∧
        StopsAt load content other s k place' (.error (.templateLoad place'.site.path reason)) := by
  have hplaces : List.Forall₂ (fun p q =>
      ((∃ source, answer p.site.path = .ok source) ∧ ∃ source, answer q.site.path = .ok source) ∨
        p.offset = q.offset ∧ p.depth = q.depth ∧
          ∃ reason, answer p.site.path = .error (.error (.templateLoad p.site.path reason)) ∧
            answer q.site.path = .error (.error (.templateLoad q.site.path reason)))
      (places (Text.bytes content) table) (places (Text.bytes content) other) := by
    refine (h.places (Text.bytes content)).imp ?_
    rintro p q ⟨hoffset, hdepth, -, ⟨source, hp, hq⟩ | hrefused⟩
    · exact .inl ⟨⟨source, hp⟩, source, hq⟩
    · exact .inr ⟨hoffset, hdepth, hrefused⟩
  rcases forall₂_or_first hplaces with
    hall | ⟨before, before', place, place', after, after', hsplit, hsplit', hbefore, hoffset, hdepth,
      reason, hp, hq⟩
  · obtain ⟨htable, hother⟩ := forall_of_forall₂ hall
    refine .inl ⟨_, calculate_of_places hload htable, ?_⟩
    -- One function from paths to sources serves both tables, whatever it gives for other paths.
    have hsame := (h.winning (Text.bytes content)).imp fun a b hab =>
      (⟨hab.1, hab.source_eq⟩ : a.offset = b.offset ∧ _)
    rw [calculate_of_places hload hother, ofSources_congr hsame]
  · obtain ⟨hanswered, hanswered'⟩ := forall_of_forall₂ hbefore
    refine .inr ⟨before.length, place, place', reason, hoffset, hdepth,
      stopsAt_of_answers hload hsplit hanswered hp, ?_⟩
    rw [hbefore.length_eq]
    exact stopsAt_of_answers hload hsplit' hanswered' hq

end SourceMap

namespace DirectoryLoader

variable {l : DirectoryLoader} {path other file : String} {t : FileTree} {e : Failure}

def answer (l : DirectoryLoader) (t : FileTree) (path : String) : Except Failure Source :=
  (runFrom (l.load path : ExceptT Failure (StateM FileTree) Source) t).1

theorem steady_load (l : DirectoryLoader) (t : FileTree) : SourceMap.Steady l.load t (l.answer t) := by
  intro path
  obtain ⟨source, hload, -⟩ | ⟨e, hload⟩ := l.load_cases path t
  · rw [answer, hload]
  · rw [answer, hload]

theorem answer_of_refused (h : l.resolve path = .error e) : l.answer t path = .error e := by
  rw [answer, load_refused h]

theorem answer_of_file (h : l.resolve path = .ok file) :
    l.answer t path = (template t file).mapError fun reason => .error (.templateLoad path reason) := by
  rw [answer, load_resolved h]

/-- The paths are one, or lead to one file. -/
def SameFile (l : DirectoryLoader) (path other : String) : Prop :=
  path = other ∨ ∃ file, l.resolve path = .ok file ∧ l.resolve other = .ok file

def Respelled (l : DirectoryLoader) (table other : Table Location) : Prop :=
  SourceMap.Matching (fun a b => a.offset = b.offset ∧ l.SameFile a.path b.path) table.entries other.entries

theorem answer_cases (hextension : ∀ extension ∈ l.extension, '/' ∉ extension.toList) (path : String) :
    (∃ source, l.answer t path = .ok source) ∨
      ∃ reason, l.answer t path = .error (.error (.templateLoad path reason)) := by
  rcases hresolve : l.resolve path with e | file
  · obtain ⟨reason, rfl⟩ := refusal_of_resolve hextension hresolve
    exact .inr ⟨reason, answer_of_refused hresolve⟩
  · rw [answer_of_file hresolve]
    rcases template t file with reason | source
    · exact .inr ⟨reason, rfl⟩
    · exact .inl ⟨source, rfl⟩

theorem alike_of_sameFile (hextension : ∀ extension ∈ l.extension, '/' ∉ extension.toList) {a b : Site}
    (hoffset : a.offset = b.offset) (h : l.SameFile a.path b.path) : SourceMap.Alike (l.answer t) a b := by
  refine ⟨hoffset, ?_⟩
  rcases h with hpath | ⟨file, ha, hb⟩
  · rw [← hpath]
    rcases answer_cases hextension a.path with ⟨source, hsource⟩ | ⟨reason, hreason⟩
    · exact .inl ⟨source, hsource, hsource⟩
    · exact .inr ⟨reason, hreason, hreason⟩
  · rw [answer_of_file ha, answer_of_file hb]
    rcases template t file with reason | source
    · exact .inr ⟨reason, rfl, rfl⟩
    · exact .inl ⟨source, rfl, rfl⟩

/-- Tables that differ in the spelling of logical paths lead to one map, or fail at links of the same
place and for the same reason. -/
theorem calculate_respelled (hextension : ∀ extension ∈ l.extension, '/' ∉ extension.toList)
    {table other : Table Location} (h : l.Respelled table other) (content : String) (t : FileTree) :
    (∃ map, runFrom (SourceMap.calculate (m := StateM FileTree) l.load content table) t = (.ok map, t) ∧
        runFrom (SourceMap.calculate (m := StateM FileTree) l.load content other) t = (.ok map, t)) ∨
      ∃ k place place' reason, place.offset = place'.offset ∧ place.depth = place'.depth ∧
        SourceMap.StopsAt l.load content table t k place (.error (.templateLoad place.site.path reason)) ∧
        SourceMap.StopsAt l.load content other t k place' (.error (.templateLoad place'.site.path reason)) :=
  SourceMap.calculate_alike (l.steady_load t) (h.imp fun _ _ hab => alike_of_sameFile hextension hab.1 hab.2)
    content

def views : FileTree where
  nodes :=
    [(["views"], .dir 0), (["views", "page.tpl"], .file (Text.bytes "extends base\nhello\n") 0),
      (["views", "base.tpl"], .file (Text.bytes "<html>\n<body>\n") 0)]
  currentDir := []
  now := 1

def viewLoader : DirectoryLoader := ⟨"/views", some "tpl"⟩

def twoLinks (first second : String) : Table Location :=
  ⟨[(0, ⟨⟨first, 13⟩, [⟨second, 7⟩]⟩)], List.pairwise_singleton _ _⟩

theorem respelled_twoLinks {first first' second second' : String} (h : viewLoader.SameFile first first')
    (h' : viewLoader.SameFile second second') :
    viewLoader.Respelled (twoLinks first second) (twoLinks first' second') :=
  .cons ⟨rfl, .cons ⟨rfl, h⟩ (.cons ⟨rfl, h'⟩ .nil)⟩ .nil

theorem calculate_respelled_views :
    (∃ map, map.files = ["/views/page.tpl", "/views/base.tpl"] ∧
        runFrom (SourceMap.calculate (m := StateM FileTree) viewLoader.load "one\n"
          (twoLinks "page" "base.tpl")) views = (.ok map, views) ∧
        runFrom (SourceMap.calculate (m := StateM FileTree) viewLoader.load "one\n"
          (twoLinks ".//page/" "base")) views = (.ok map, views)) ∧
      ∃ k place place' reason, place.depth = place'.depth ∧
        SourceMap.StopsAt viewLoader.load "one\n" (twoLinks "page" "none.tpl") views k place
          (.error (.templateLoad place.site.path reason)) ∧
        SourceMap.StopsAt viewLoader.load "one\n" (twoLinks ".//page/" "none") views k place'
          (.error (.templateLoad place'.site.path reason)) := by
  have hextension : ∀ extension ∈ viewLoader.extension, '/' ∉ extension.toList := by decide +kernel
  have hpage : viewLoader.SameFile "page" ".//page/" :=
    .inr ⟨"/views/page.tpl", by decide +kernel, resolve_of_names rfl (by decide +kernel) (by decide +kernel)⟩
  have hbase : viewLoader.SameFile "base.tpl" "base" :=
    .inr ⟨"/views/base.tpl", by decide +kernel, by decide +kernel⟩
  have hnone : viewLoader.SameFile "none.tpl" "none" :=
    .inr ⟨"/views/none.tpl", by decide +kernel, by decide +kernel⟩
  have hfiles : (runFrom (SourceMap.calculate (m := StateM FileTree) viewLoader.load "one\n"
      (twoLinks "page" "base.tpl")) views).1.toOption.map SourceMap.files =
        some ["/views/page.tpl", "/views/base.tpl"] := by decide +kernel
  have hmissing : (runFrom (SourceMap.calculate (m := StateM FileTree) viewLoader.load "one\n"
      (twoLinks "page" "none.tpl")) views).1.toOption = none := by decide +kernel
  constructor
  · rcases calculate_respelled hextension (respelled_twoLinks hpage hbase) "one\n" views with
      ⟨map, hrun, hrun'⟩ | ⟨k, place, place', reason, -, -, hstops, -⟩
    · rw [hrun] at hfiles
      exact ⟨map, Option.some.inj hfiles, hrun, hrun'⟩
    · rw [hstops.build] at hfiles
      cases hfiles
  · rcases calculate_respelled hextension (respelled_twoLinks hpage hnone) "one\n" views with
      ⟨map, hrun, -⟩ | ⟨k, place, place', reason, -, hdepth, hstops, hstops'⟩
    · rw [hrun] at hmissing
      cases hmissing
    · exact ⟨k, place, place', reason, hdepth, hstops, hstops'⟩

end DirectoryLoader

end TemplateTrace
