import TemplateTrace.Proofs.RoundTrip
import TemplateTrace.Proofs.Service.Calls

namespace TemplateTrace

namespace SourceMap

open Json (maxCount32)
open Text (bytes)

variable {version : Option Nat} {m : SourceMap} {l : Link} {c : Chain Link}

def FirstDangling (m : SourceMap) (l : Link) : Prop :=
  ∃ earlier line c later inner outer,
    m.lines.entries = earlier ++ (line, c) :: later ∧ c.links = inner ++ l :: outer ∧
      (∀ e ∈ earlier, ∀ k ∈ e.2.links, k.file < m.files.length) ∧
      (∀ k ∈ inner, k.file < m.files.length) ∧ m.files.length ≤ l.file

theorem links_append {earlier later : List (Nat × Chain Link)} {line : Nat}
    (h : m.lines.entries = earlier ++ (line, c) :: later) :
    m.links = earlier.flatMap (·.2.links) ++ (c.links ++ later.flatMap (·.2.links)) := by
  rw [links, Table.values, List.flatMap_map, h, List.flatMap_append, List.flatMap_cons]

theorem FirstDangling.dangling? (h : m.FirstDangling l) : m.dangling? = some l := by
  obtain ⟨earlier, line, c, later, inner, outer, hentries, hlinks, hearlier, hinner, hfile⟩ := h
  rw [SourceMap.dangling?, List.find?_eq_some_iff_append, links_append hentries, hlinks]
  refine ⟨decide_eq_true hfile, earlier.flatMap (·.2.links) ++ inner,
    outer ++ later.flatMap (·.2.links), by simp, fun k hk => ?_⟩
  have hbelow : k.file < m.files.length := by
    rcases List.mem_append.mp hk with hk | hk
    · obtain ⟨e, he, hk⟩ := List.mem_flatMap.mp hk
      exact hearlier e he k hk
    · exact hinner k hk
  simpa using hbelow

theorem exists_firstDangling (h : ¬ m.Closed) : ∃ l, m.FirstDangling l := by
  -- The first line with such a link, and then the first such link in its chain.
  let dangles (l : Link) : Bool := m.files.length ≤ l.file
  have hlt {k : Link} (hk : dangles k = false) : k.file < m.files.length := by simpa [dangles] using hk
  obtain ⟨⟨line, c⟩, hline⟩ : ∃ e, m.lines.entries.find? (·.2.links.any dangles) = some e := by
    rw [← Option.isSome_iff_exists, List.find?_isSome]
    simp only [Closed, links, Table.values, List.mem_flatMap, List.mem_map, not_forall, Nat.not_lt] at h
    obtain ⟨k, ⟨_, ⟨e, he, rfl⟩, hk⟩, hfile⟩ := h
    exact ⟨e, he, List.any_eq_true.mpr ⟨k, hk, decide_eq_true hfile⟩⟩
  obtain ⟨hany, earlier, later, hentries, hearlier⟩ := List.find?_eq_some_iff_append.mp hline
  obtain ⟨l, hl⟩ : ∃ l, c.links.find? dangles = some l := by
    rw [← Option.isSome_iff_exists, List.find?_isSome]
    exact List.any_eq_true.mp hany
  obtain ⟨hfile, inner, outer, hlinks, hinner⟩ := List.find?_eq_some_iff_append.mp hl
  refine ⟨l, earlier, line, c, later, inner, outer, hentries, hlinks, fun e he k hk => ?_,
    fun k hk => ?_, of_decide_eq_true hfile⟩
  · have hnone := hearlier e he
    rw [Bool.not_eq_true', List.any_eq_false] at hnone
    exact hlt (Bool.eq_false_iff.mpr (hnone k hk))
  · exact hlt (by simpa using hinner k hk)

theorem deserialize_of_version {b : Bytes} {found : Nat} (h : decode b = .ok (found, m))
    (hfound : found ≠ formatVersion) :
    deserialize b = .error (.unsupportedVersion found formatVersion) := by
  rw [deserialize, h]
  exact if_pos hfound

theorem deserialize_of_current {b : Bytes} (h : decode b = .ok (formatVersion, m)) :
    deserialize b = match m.dangling? with
      | some l => .error (.danglingIndex l.file m.files.length)
      | none => .ok m := by
  rw [deserialize, h]
  exact if_neg (not_not_intro rfl)

/-- A text with another version is rejected for that, whatever its links are; otherwise for its first
link that names no file, if there is one, and if there is none it is read as the map. All errors of
reading a text are such that a service removes the text before it reports them. -/
theorem deserialize_wire (hversion : ∀ v ∈ version, v ≤ maxCount32) (hfits : m.Fits)
    (hdepth : ∀ c ∈ m.lines.values, c.depth ≤ 125) :
    let read := deserialize (bytes (wire version m).compact)
    (∀ v ∈ version, v ≠ 1 → read = .error (.unsupportedVersion v 1)) ∧
      ((∀ v ∈ version, v = 1) →
        (∀ l, m.FirstDangling l → read = .error (.danglingIndex l.file m.files.length)) ∧
        (m.Closed → read = .ok m) ∧ (m.Closed ∨ ∃ l, m.FirstDangling l)) ∧
      (∀ b e, deserialize b = .error e → (Error.map e).isDecode = true) ∧
      ∀ {σ : Type} (s : TraceService (StateM σ)) (key text : String) (e : MapError) (a b : σ),
        runFrom (s.store.get key) a = (.ok (some text), b) → deserialize (bytes text) = .error e →
          (∀ c, runFrom (s.store.remove key) b = (.ok (), c) →
            runFrom (s.load key) a = (.error (.error (.map e)), c)) ∧
          ∀ failed c, runFrom (s.store.remove key) b = (.error failed, c) →
            runFrom (s.load key) a = (.error (.error failed), c) := by
  intro read
  have hdecode := decode_wire hversion hfits fun e he => hdepth e.2 (List.mem_map_of_mem he)
  refine ⟨?_, ?_, fun b e => isDecode_of_deserialize, ?_⟩
  · rintro v hv hne
    cases hv
    exact deserialize_of_version hdecode hne
  · intro hone
    have hcurrent : version.getD formatVersion = formatVersion := by
      cases version with
      | none => rfl
      | some v => exact hone v rfl
    rw [hcurrent] at hdecode
    refine ⟨fun l hl => ?_, fun hclosed => ?_, ?_⟩
    · exact (deserialize_of_current hdecode).trans (by rw [hl.dangling?])
    · exact (deserialize_of_current hdecode).trans (by rw [(dangling?_eq_none_iff m).mpr hclosed])
    · by_cases hclosed : m.Closed
      · exact .inl hclosed
      · exact .inr (exists_firstDangling hclosed)
  · intro σ s key text e a b hget hread
    exact ⟨fun c hremove => TraceService.load_unreadable hget hread hremove,
      fun failed c hremove => TraceService.load_unremoved hget hread hremove⟩

def frayed : SourceMap where
  files := ["/views/a", "/views/b"]
  lines := ⟨[(3, ⟨⟨0, 1⟩, [⟨1, 2⟩]⟩), (9, ⟨⟨1, 4⟩, [⟨7, 1⟩, ⟨5, 2⟩]⟩)], by decide⟩

theorem deserialize_wire_frayed :
    deserialize (bytes (wire (some 7) frayed).compact) = .error (.unsupportedVersion 7 1) ∧
      deserialize (bytes (wire none frayed).compact) = .error (.danglingIndex 7 2) := by
  have hfits : frayed.Fits := by decide +kernel
  have hdepth : ∀ c ∈ frayed.lines.values, c.depth ≤ 125 := by decide +kernel
  have hfirst : frayed.FirstDangling ⟨7, 1⟩ :=
    ⟨[(3, ⟨⟨0, 1⟩, [⟨1, 2⟩]⟩)], 9, _, [], [⟨1, 4⟩], [⟨5, 2⟩], rfl, rfl, by decide, by decide, by decide⟩
  constructor
  · exact (deserialize_wire (by decide) hfits hdepth).1 7 rfl (by decide)
  · exact ((deserialize_wire (by decide) hfits hdepth).2.1 (by decide)).1 _ hfirst

end SourceMap

end TemplateTrace
