import TemplateTrace.Proofs.FileIndices
import TemplateTrace.Proofs.Json.Results
import TemplateTrace.Proofs.RoundTrip

namespace TemplateTrace

open Json (maxCount)
open Json.Reader (Gives)
open Text (bytes)

namespace Link

/-- A chain that can be read where so many containers may still be opened. -/
structure Admitted (depth : Nat) (c : Chain Link) : Prop where
  short : c.depth ≤ depth
  fits : ∀ l ∈ c.links, l.Fits

theorem admitted_within {depth : Nat} {l : Link} {parent : Option (Chain Link)} (hl : l.Fits)
    (hparent : ∀ p ∈ parent, Admitted depth p) : Admitted (depth + 1) (.within l parent) := by
  cases parent with
  | none =>
    constructor
    · simp [Chain.depth, Chain.links_within]
    · simpa [Chain.links_within] using hl
  | some p =>
    obtain ⟨hshort, hfits⟩ := hparent p rfl
    rw [Chain.depth] at hshort
    constructor
    · simpa [Chain.depth, Chain.links_within] using hshort
    · simp only [Chain.links_within, Option.map_some, Option.getD_some, List.forall_mem_cons]
      exact ⟨hl, hfits⟩

structure Draft.Admitted (depth : Nat) (d : Draft) : Prop where
  file : ∀ n ∈ d.file, n ≤ maxCount
  line : ∀ n ∈ d.line, n ≤ maxCount
  parent : ∀ p ∈ d.parent.getD none, Link.Admitted depth p

theorem gives_chain (depth : Nat) : Gives (Admitted depth) (readChain depth) := by
  induction depth with
  | zero => exact Json.Reader.Record.gives_tooDeep _
  | succ depth ih =>
    have hblank : Draft.Admitted depth (record (readChain depth)).blank := ⟨nofun, nofun, nofun⟩
    refine Json.Reader.Record.gives_read hblank ?_ ?_ _
    · intro f hf d hd
      simp only [record, List.mem_cons, List.not_mem_nil, or_false] at hf
      rcases hf with rfl | rfl | rfl
      · refine (Json.Reader.gives_whole .count maxCount).bind fun n hn => .pure ?_
        exact ⟨by simpa using hn, hd.line, hd.parent⟩
      · refine (Json.Reader.gives_whole .count maxCount).bind fun n hn => .pure ?_
        exact ⟨hd.file, by simpa using hn, hd.parent⟩
      · refine (Json.Reader.gives_optional ih).bind fun parent hparent => .pure ?_
        exact ⟨hd.file, hd.line, hparent⟩
    · intro d c hd hfinish
      simp only [record] at hfinish
      split at hfinish
      · cases hfinish
      · cases hfinish
      · rename_i file line hfile hline
        cases hfinish
        exact admitted_within ⟨hd.file file hfile, hd.line line hline⟩ hd.parent

end Link

namespace SourceMap

variable {b : Bytes} {m : SourceMap} {version : Nat}

def Draft.Admitted (d : Draft) : Prop :=
  ∀ lines ∈ d.lines, ∀ e ∈ lines.entries, e.1 ≤ maxCount ∧ Link.Admitted maxLinks e.2

theorem admitted_of_decode (h : decode b = .ok (version, m)) :
    ∀ e ∈ m.lines.entries, e.1 ≤ maxCount ∧ Link.Admitted maxLinks e.2 := by
  have hblank : Draft.Admitted (record (Json.maxDepth - 1)).blank := nofun
  have hread : Gives (fun r : Nat × SourceMap => ∀ e ∈ r.2.lines.entries,
      e.1 ≤ maxCount ∧ Link.Admitted maxLinks e.2)
      (Json.Reader.Record.read "Decoded" (some (record (Json.maxDepth - 1)))) := by
    refine Json.Reader.Record.gives_read hblank ?_ ?_ _
    · intro f hf d hd
      simp only [record, List.mem_cons, List.not_mem_nil, or_false] at hf
      rcases hf with rfl | rfl | rfl
      · exact .after fun _ => .pure hd
      · exact .after fun _ => .pure hd
      -- The map and its lines have opened two of the containers.
      · refine (Json.Reader.gives_table (Link.gives_chain maxLinks)).bind fun lines hlines => .pure ?_
        intro found hfound
        cases hfound
        exact hlines
    · intro d r hd hfinish
      simp only [record] at hfinish
      split at hfinish
      · cases hfinish
      · cases hfinish
      · rename_i lines _ hlines
        cases hfinish
        exact hd lines hlines
  exact Json.of_parse hread h

theorem decode_of_deserialize (h : deserialize b = .ok m) : ∃ version, decode b = .ok (version, m) := by
  rw [deserialize] at h
  split at h
  · cases h
  · split at h
    · cases h
    · split at h
      · cases h
      · cases h
        exact ⟨_, by assumption⟩

theorem fits_of_deserialize (h : deserialize b = .ok m) : m.Fits := by
  obtain ⟨version, hdecode⟩ := decode_of_deserialize h
  have hadmitted := admitted_of_decode hdecode
  constructor
  · intro e he
    exact (hadmitted e he).1
  · intro l hl
    obtain ⟨c, hc, hl⟩ := List.mem_flatMap.mp hl
    obtain ⟨e, he, rfl⟩ := List.mem_map.mp hc
    exact (hadmitted e he).2.fits l hl

theorem depth_of_deserialize (h : deserialize b = .ok m) : ∀ c ∈ m.lines.values, c.depth ≤ maxLinks := by
  obtain ⟨version, hdecode⟩ := decode_of_deserialize h
  intro c hc
  obtain ⟨e, he, rfl⟩ := List.mem_map.mp hc
  exact (admitted_of_decode hdecode e he).2.short

def rewrite (b : Bytes) : Except MapError Bytes := (deserialize b).map fun m => bytes m.serialize

theorem rewrite_of_read (h : deserialize b = .ok m) : rewrite b = .ok (bytes m.serialize) := by
  rw [rewrite, h]
  rfl

/-- A map that has been read is read again from what it is written as, and that text is the one it is
written as again. -/
theorem read_rewritten (h : deserialize b = .ok m) :
    deserialize (bytes m.serialize) = .ok m ∧
      rewrite b = .ok (bytes m.serialize) ∧ rewrite (bytes m.serialize) = .ok (bytes m.serialize) ∧
      m.Closed ∧ ∀ c ∈ m.lines.values, c.depth ≤ 125 := by
  have hclosed := closed_of_deserialize h
  have hdepth := depth_of_deserialize h
  have hread : deserialize (bytes m.serialize) = .ok m := by
    apply read_written hclosed (fits_of_deserialize h)
    intro e he
    exact hdepth e.2 (List.mem_map_of_mem he)
  exact ⟨hread, rewrite_of_read h, rewrite_of_read hread, hclosed, hdepth⟩

def loose : String :=
  " \x7b \"lines\": \x7b\"7\": [0, 3, null], \"2\": \x7b\"line\": 1, \"path\": 0\x7d,\n" ++
    "  \"7\": [1, 4, \x7b\"note\": [1.5], \"line\": 5, \"path\": 0\x7d]\x7d, \"paths\": [\"/a\", \"/\\u0062\"]\x7d\n"

def tidy : SourceMap where
  files := ["/a", "/b"]
  lines := ⟨[(2, ⟨⟨0, 1⟩, []⟩), (7, ⟨⟨1, 4⟩, [⟨0, 5⟩]⟩)], by decide⟩

theorem read_rewritten_loose :
    deserialize (bytes loose) = .ok tidy ∧ deserialize (bytes tidy.serialize) = .ok tidy ∧
      rewrite (bytes loose) = .ok (bytes tidy.serialize) ∧ bytes loose ≠ bytes tidy.serialize := by
  have hread : deserialize (bytes loose) = .ok tidy := by decide +kernel
  obtain ⟨hagain, hrewrite, -⟩ := read_rewritten hread
  exact ⟨hread, hagain, hrewrite, by decide +kernel⟩

end SourceMap

end TemplateTrace
