import TemplateTrace.Loader.Memory
import TemplateTrace.Proofs.LoadSequence

namespace TemplateTrace.SourceMap

variable {ε σ : Type} {load : String → ExceptT ε (StateM σ) Source}

theorem stack_of_floor?_none {map : SourceMap} {n : Nat} (h : map.lines.floor? n = none) :
    map.stack n = [] := by
  rw [stack, h]

theorem stack_of_floor?_some {map : SourceMap} {n : Nat} {e : Nat × Chain Link}
    (h : map.lines.floor? n = some e) : map.stack n = e.2.links.map map.frame := by
  rw [stack, h]

theorem answersOf_eq_ok {calls : List (Call ε)} {answers : Assoc String Source}
    (h : answersOf calls = .ok answers) : calls = answers.map fun e => ⟨e.1, .ok e.2⟩ := by
  induction calls generalizing answers with
  | nil =>
    cases h
    rfl
  | cons c rest ih =>
    obtain ⟨path, e | source⟩ := c
    · cases h
    · rw [answersOf] at h
      cases hrest : answersOf rest with
      | error e =>
        rw [hrest] at h
        cases h
      | ok others =>
        rw [hrest] at h
        cases h
        rw [ih hrest]
        rfl

theorem calculate_ok {content : String} {table : Table Location} {map : SourceMap} {s t : σ}
    (h : runFrom (calculate load content table) s = (.ok map, t)) :
    ∃ answers, callsOf load content table s = answers.map (fun e => ⟨e.1, .ok e.2⟩) ∧
      Assoc.keys answers = loadOrder (Text.bytes content) table ∧
      map = assemble (Text.bytes content) table answers := by
  have hresult := runFrom_calculate load content table s
  rw [h] at hresult
  cases hanswers : answersOf (callsOf load content table s) with
  | error e =>
    rw [hanswers] at hresult
    cases hresult
  | ok answers =>
    rw [hanswers] at hresult
    cases hresult
    have hcalls := answersOf_eq_ok hanswers
    refine ⟨answers, hcalls, ?_, rfl⟩
    rw [callsOf_eq] at hcalls hanswers
    rcases callsFrom_cases load (loadOrder (Text.bytes content) table) s with
      ⟨-, hpaths⟩ | ⟨answered, path, e, hfail, hok, -⟩
    · rw [← hpaths, hcalls, Assoc.keys, List.map_map]
      rfl
    · rw [hfail, answersOf_append_error hok] at hanswers
      cases hanswers

theorem fresh_empty {answers : Assoc String Source} {content : Bytes} {table : Table Location}
    (h : Assoc.keys answers = loadOrder content table) : Progress.Fresh {} answers :=
  Progress.fresh_of_newIn (h.trans (firstSeen_eq _))

theorem mem_paths_of_winning {answers : Assoc String Source} {content : Bytes}
    {table : Table Location} (h : Assoc.keys answers = loadOrder content table)
    {e : Nat × Location} (he : e ∈ winning content table.entries) {site : Site}
    (hsite : site ∈ e.2.links) : site.path ∈ (Progress.extend {} answers).paths := by
  rw [Progress.paths_extend (fresh_empty h), h]
  apply List.mem_append_right
  rw [mem_loadOrder_iff]
  obtain ⟨hmem, hwins⟩ := mem_winning_iff.mp he
  exact ⟨e, hmem, hwins, site, hsite, rfl⟩

theorem frame_link {p : Progress} (hp : p.Named) {site : Site} (h : site.path ∈ p.paths)
    (lines : Table (Chain Link)) :
    (SourceMap.mk p.files lines).frame (p.link site) =
      ⟨(p.source site.path).filename, (p.source site.path).lineAt site.offset⟩ := by
  rw [frame, fileName, Progress.link]
  simp only
  rw [List.getElem?_idxOf (Progress.mem_files_of_mem_paths hp h), Option.getD_some]

theorem assemble_entries (content : Bytes) (table : Table Location)
    (answers : Assoc String Source) :
    (assemble content table answers).lines.entries = (winning content table.entries).map fun e =>
      (Text.lineAt content e.1, e.2.map (Progress.extend {} answers).link) := by
  simp [assemble, Table.map, winners_entries]

/-- The location behind a line: of those that fall on the nearest line at or before it, the one
with the smallest offset. -/
structure Behind (content : Bytes) (table : Table Location) (n : Nat) (e : Nat × Location) :
    Prop where
  mem : e ∈ table.entries
  le : Text.lineAt content e.1 ≤ n
  nearest : ∀ d ∈ table.entries, Text.lineAt content d.1 ≤ n →
    Text.lineAt content d.1 ≤ Text.lineAt content e.1
  first : ∀ d ∈ table.entries, Text.lineAt content d.1 = Text.lineAt content e.1 → e.1 ≤ d.1

theorem Behind.wins {content : Bytes} {table : Table Location} {n : Nat} {e : Nat × Location}
    (h : Behind content table n e) : Wins content table.entries e := by
  intro d hd hlt hline
  have := h.first d hd hline
  omega

theorem lines_assemble_iff (content : Bytes) (table : Table Location)
    (answers : Assoc String Source) (n : Nat) :
    (∃ c, (n, c) ∈ (assemble content table answers).lines.entries) ↔
      ∃ e ∈ table.entries, Text.lineAt content e.1 = n := by
  rw [assemble_entries]
  constructor
  · rintro ⟨c, hc⟩
    obtain ⟨w, hw, he⟩ := List.mem_map.mp hc
    cases he
    exact ⟨w, (mem_winning_iff.mp hw).1, rfl⟩
  · rintro ⟨e, he, rfl⟩
    obtain ⟨w, hw, hline⟩ := exists_winning content he
    exact ⟨_, List.mem_map.mpr ⟨w, hw, by rw [hline]⟩⟩

theorem stack_assemble {content : Bytes} {table : Table Location} {answers : Assoc String Source}
    (h : Assoc.keys answers = loadOrder content table) (n : Nat) :
    let p := Progress.extend {} answers
    ((∀ e ∈ table.entries, n < Text.lineAt content e.1) ∧
        (assemble content table answers).stack n = []) ∨
      ∃ e, Behind content table n e ∧ (assemble content table answers).stack n =
        e.2.links.map fun site =>
          ⟨(p.source site.path).filename, (p.source site.path).lineAt site.offset⟩ := by
  intro p
  have hlines := lines_assemble_iff content table answers
  cases hfloor : (assemble content table answers).lines.floor? n with
  | none =>
    refine .inl ⟨fun e he => ?_, stack_of_floor?_none hfloor⟩
    obtain ⟨c, hc⟩ := (hlines _).mpr ⟨e, he, rfl⟩
    exact (Table.floor?_eq_none_iff _ n).mp hfloor _ hc
  | some d =>
    obtain ⟨hmem, hle, hmax⟩ := Table.mem_of_floor? hfloor
    rw [assemble_entries] at hmem
    obtain ⟨w, hw, rfl⟩ := List.mem_map.mp hmem
    obtain ⟨hwmem, hwins⟩ := mem_winning_iff.mp hw
    refine .inr ⟨w, ⟨hwmem, hle, fun d hd hdn => ?_, fun d hd hline => ?_⟩, ?_⟩
    · obtain ⟨c, hc⟩ := (hlines _).mpr ⟨d, hd, rfl⟩
      exact hmax _ hc hdn
    · by_contra hlt
      exact hwins d hd (Nat.lt_of_not_le hlt) hline
    · rw [stack_of_floor?_some hfloor, Chain.links_map, List.map_map]
      apply List.map_congr_left
      intro site hsite
      exact frame_link (Progress.named_extend Progress.named_empty answers)
        (mem_paths_of_winning h hw hsite) _

/-- The stacks of a map that has been built, given what its loader has answered. -/
theorem stack_calculate (source : String → Source) {content : String} {table : Table Location}
    {map : SourceMap} {s t : σ}
    (hload : ∀ call ∈ callsOf load content table s, call.answer = .ok (source call.path))
    (h : runFrom (calculate load content table) s = (.ok map, t)) :
    (∀ n, (∃ c, (n, c) ∈ map.lines.entries) ↔
        ∃ e ∈ table.entries, Text.lineAt (Text.bytes content) e.1 = n) ∧
      ∀ n, ((∀ e ∈ table.entries, n < Text.lineAt (Text.bytes content) e.1) ∧ map.stack n = []) ∨
        ∃ e, Behind (Text.bytes content) table n e ∧ map.stack n = e.2.links.map fun site =>
          ⟨(source site.path).filename, (source site.path).lineAt site.offset⟩ := by
  obtain ⟨answers, hcalls, hkeys, rfl⟩ := calculate_ok h
  have hsource : ∀ path ∈ loadOrder (Text.bytes content) table,
      (Progress.extend {} answers).source path = source path := by
    intro path hpath
    have hp : path ∈ (Progress.extend {} answers).paths := by
      rw [Progress.paths_extend (fresh_empty hkeys), hkeys]
      exact List.mem_append_right _ hpath
    have hmem := Assoc.mem_of_lookup (Progress.lookup_of_mem_paths hp)
    rw [Progress.sources_extend (fresh_empty hkeys)] at hmem
    have hcall := hload _ (hcalls ▸ List.mem_map_of_mem hmem)
    exact Except.ok.inj hcall
  refine ⟨lines_assemble_iff _ _ _, fun n => ?_⟩
  rcases stack_assemble hkeys n with hnone | ⟨e, hbehind, hstack⟩
  · exact .inl hnone
  · refine .inr ⟨e, hbehind, ?_⟩
    rw [hstack]
    apply List.map_congr_left
    intro site hsite
    have hpath : site.path ∈ loadOrder (Text.bytes content) table :=
      mem_loadOrder_iff.mpr ⟨e, hbehind.mem, hbehind.wins, site, hsite, rfl⟩
    rw [hsource _ hpath]

def pages : MemoryLoader where
  templates :=
    [("child", ⟨"/views/child.tpl", "extends base\nhello\n"⟩),
      ("base", ⟨"/views/base.tpl", "<html>\n<body>\n"⟩),
      ("layout", ⟨"/views/base.tpl", "<html>\n<body>\n"⟩)]

def pageTable : Table Location where
  entries :=
    [(0, ⟨⟨"child", 13⟩, [⟨"base", 7⟩]⟩), (3, ⟨⟨"missing", 0⟩, []⟩), (8, ⟨⟨"layout", 0⟩, []⟩)]
  ascending := by decide

theorem stack_calculate_pages :
    ∃ map t, runFrom (calculate MemoryLoader.load "one\ntwo\nthree\n" pageTable) pages =
        (.ok map, t) ∧
      map.stack 2 = [⟨"/views/child.tpl", 2⟩, ⟨"/views/base.tpl", 2⟩] := by
  obtain ⟨map, t, h⟩ : ∃ map t, runFrom
      (calculate MemoryLoader.load "one\ntwo\nthree\n" pageTable) pages = (.ok map, t) :=
    ⟨_, _, rfl⟩
  have hstack := (stack_calculate (fun path => (pages.templates.lookup path).getD ⟨"", ""⟩)
    (by decide) h).2 2
  refine ⟨map, t, h, ?_⟩
  rcases hstack with ⟨hnone, -⟩ | ⟨e, he, hstack⟩
  · exact absurd (hnone (0, _) List.mem_cons_self) (by decide)
  · rw [hstack]
    have hmem := he.mem
    simp only [pageTable, List.mem_cons, List.not_mem_nil, or_false] at hmem
    rcases hmem with rfl | rfl | rfl
    · decide
    · exact absurd (he.first (0, _) List.mem_cons_self (by decide)) (by decide)
    · exact absurd he.le (by decide)

end TemplateTrace.SourceMap
