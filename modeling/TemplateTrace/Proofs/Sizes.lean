import Mathlib.Data.List.Flatten
import TemplateTrace.Proofs.FileIndices
import TemplateTrace.Proofs.RoundTrip

namespace TemplateTrace

open Json (maxCount)

def Text.Fits (s : String) : Prop := Text.size s < maxCount

instance (s : String) : Decidable (Text.Fits s) := inferInstanceAs (Decidable (_ < _))

theorem Text.lastLine_le {b : Bytes} (h : b.length < maxCount) : Text.lastLine b ≤ maxCount := by
  have := List.count_le_length (a := Text.lineFeed) (l := b)
  rw [Text.lastLine]
  omega

namespace SourceMap

def TableFits (table : Table Location) : Prop :=
  (table.values.flatMap Chain.links).length ≤ maxCount

instance (table : Table Location) : Decidable (TableFits table) :=
  inferInstanceAs (Decidable (_ ≤ _))

theorem length_newIn_le (known names : List String) : (newIn known names).length ≤ names.length := by
  induction names generalizing known with
  | nil => exact Nat.le_refl 0
  | cons name rest ih =>
    rw [newIn]
    split
    · exact Nat.le_succ_of_le (ih known)
    · exact Nat.succ_le_succ (ih _)

theorem length_sites_le (content : Bytes) (table : Table Location) :
    (sites content table).length ≤ (table.values.flatMap Chain.links).length := by
  have hsub : (winning content table.entries).Sublist table.entries := List.filter_sublist
  rw [sites, Table.values, List.flatMap_map]
  exact (hsub.flatMap fun e => e.2.links).length_le

theorem length_loadOrder_le (content : Bytes) (table : Table Location) :
    (loadOrder content table).length ≤ (table.values.flatMap Chain.links).length := by
  have hnew := length_newIn_le [] ((sites content table).map Site.path)
  rw [List.length_map] at hnew
  rw [loadOrder, firstSeen_eq]
  exact Nat.le_trans hnew (length_sites_le content table)

theorem Progress.length_files_extend_le (p : Progress) (answers : Assoc String Source) :
    (p.extend answers).files.length ≤ p.files.length + answers.length := by
  have hnew := length_newIn_le p.files (answers.map fun e => e.2.filename)
  rw [List.length_map] at hnew
  rw [files_extend, List.length_append]
  exact Nat.add_le_add_left hnew _

theorem fits_assemble {content : Bytes} {table : Table Location} {answers : Assoc String Source}
    (hkeys : Assoc.keys answers = loadOrder content table) (hcontent : content.length < maxCount)
    (htable : TableFits table) (hsources : ∀ e ∈ answers, Text.Fits e.2.content) :
    (assemble content table answers).Fits := by
  have hfiles : (Progress.extend {} answers).files.length ≤ maxCount := by
    have hextend := Progress.length_files_extend_le {} answers
    have horder := length_loadOrder_le content table
    rw [← hkeys, Assoc.keys, List.length_map] at horder
    simp only [List.length_nil, Nat.zero_add] at hextend
    exact Nat.le_trans hextend (Nat.le_trans horder htable)
  constructor
  · intro e he
    rw [assemble_entries] at he
    obtain ⟨w, -, rfl⟩ := List.mem_map.mp he
    exact Nat.le_trans (Text.lineAt_le_lastLine _ _) (Text.lastLine_le hcontent)
  · intro l hl
    rw [links_assemble] at hl
    obtain ⟨site, hsite, rfl⟩ := List.mem_map.mp hl
    obtain ⟨e, he, hsite⟩ := List.mem_flatMap.mp hsite
    have hpath := mem_paths_of_winning hkeys he hsite
    have hnamed := Progress.named_extend Progress.named_empty answers
    have hsource := Assoc.mem_of_lookup (Progress.lookup_of_mem_paths hpath)
    rw [Progress.sources_extend (fresh_empty hkeys)] at hsource
    refine ⟨Nat.le_trans (Nat.le_of_lt (Progress.link_file_lt hnamed hpath)) hfiles, ?_⟩
    exact Nat.le_trans (Source.lineAt_le_lastLine _ _) (Text.lastLine_le (hsources _ hsource))

variable {ε σ : Type} {load : String → ExceptT ε (StateM σ) Source} {content : String}
  {table : Table Location} {map : SourceMap} {s t : σ}

theorem fits_of_calculate (h : runFrom (calculate load content table) s = (.ok map, t))
    (hcontent : Text.Fits content) (htable : TableFits table)
    (hsources : ∀ call ∈ callsOf load content table s, ∀ source, call.answer = .ok source →
      Text.Fits source.content) : map.Fits := by
  obtain ⟨answers, hcalls, hkeys, rfl⟩ := calculate_ok h
  refine fits_assemble hkeys hcontent htable fun e he => ?_
  exact hsources ⟨e.1, .ok e.2⟩ (hcalls ▸ List.mem_map_of_mem he) e.2 rfl

theorem depths_of_calculate (h : runFrom (calculate load content table) s = (.ok map, t)) :
    map.lines.values.map Chain.depth =
      (winning (Text.bytes content) table.entries).map fun e => e.2.depth := by
  obtain ⟨answers, -, -, rfl⟩ := calculate_ok h
  rw [Table.values, assemble_entries, List.map_map, List.map_map]
  apply List.map_congr_left
  intro e _
  simp [Chain.depth]

theorem read_built (h : runFrom (calculate load content table) s = (.ok map, t))
    (hfits : map.Fits)
    (hdepth : ∀ e ∈ winning (Text.bytes content) table.entries, e.2.depth ≤ maxLinks) :
    deserialize (Text.bytes map.serialize) = .ok map := by
  apply read_written (closed_of_calculate h) hfits
  intro e he
  have hmem : e.2.depth ∈ map.lines.values.map Chain.depth :=
    List.mem_map_of_mem (List.mem_map_of_mem he)
  rw [depths_of_calculate h] at hmem
  obtain ⟨w, hw, heq⟩ := List.mem_map.mp hmem
  exact heq ▸ hdepth w hw

theorem read_built_tooDeep (h : runFrom (calculate load content table) s = (.ok map, t))
    (hfits : map.Fits)
    (hdepth : ∃ e ∈ winning (Text.bytes content) table.entries, maxLinks < e.2.depth) :
    ∃ e : Json.Error, e.cause = .tooDeep ∧
      deserialize (Text.bytes map.serialize) = .error (.malformed e.message) := by
  obtain ⟨w, hw, hlt⟩ := hdepth
  have hmem : w.2.depth ∈ map.lines.values.map Chain.depth := by
    rw [depths_of_calculate h]
    exact List.mem_map_of_mem hw
  obtain ⟨c, hc, heq⟩ := List.mem_map.mp hmem
  obtain ⟨e, he, rfl⟩ := List.mem_map.mp hc
  exact read_written_tooDeep hfits ⟨e, he, heq ▸ hlt⟩

theorem runFrom_loadAll_keeps {Inv : σ → Prop}
    (hload : ∀ path s, Inv s → Inv (runFrom (load path) s).2) (paths : List String) {s : σ}
    (hs : Inv s) : Inv (runFrom (loadAll load paths) s).2 := by
  induction paths generalizing s with
  | nil => exact hs
  | cons path rest ih =>
    have hnext := hload path s hs
    rw [loadAll_cons]
    rcases h : runFrom (load path) s with ⟨e | source, u⟩
    · rw [h] at hnext
      rw [runFrom_bind_error h]
      exact hnext
    · rw [h] at hnext
      rw [runFrom_bind_ok h, runFrom_map]
      exact ih hnext

theorem runFrom_calculate_keeps {Inv : σ → Prop}
    (hload : ∀ path s, Inv s → Inv (runFrom (load path) s).2) (content : String)
    (table : Table Location) {s : σ} (hs : Inv s) :
    Inv (runFrom (calculate load content table) s).2 := by
  rw [calculate_eq, runFrom_map]
  exact runFrom_loadAll_keeps hload _ hs

theorem answers_callsFrom {Inv : σ → Prop} {Good : Source → Prop}
    (hload : ∀ path s, Inv s → Inv (runFrom (load path) s).2)
    (hgood : ∀ path s source, Inv s → (runFrom (load path) s).1 = .ok source → Good source)
    (paths : List String) {s : σ} (hs : Inv s) :
    ∀ call ∈ callsFrom load paths s, ∀ source, call.answer = .ok source → Good source := by
  induction paths generalizing s with
  | nil => simp [callsFrom]
  | cons path rest ih =>
    have hnext := hload path s hs
    have hfound := hgood path s
    rw [callsFrom]
    rcases h : runFrom (load path) s with ⟨e | source, u⟩
    · simp
    · rw [h] at hnext hfound
      simp only [List.mem_cons, forall_eq_or_imp]
      refine ⟨fun found heq => ?_, ih hnext⟩
      exact hfound found hs heq

theorem fits_of_keeps {Inv : σ → Prop} (h : runFrom (calculate load content table) s = (.ok map, t))
    (hload : ∀ path s, Inv s → Inv (runFrom (load path) s).2)
    (hgood : ∀ path s source, Inv s → (runFrom (load path) s).1 = .ok source → Text.Fits source.content)
    (hs : Inv s) (hcontent : Text.Fits content) (htable : TableFits table) : map.Fits := by
  have hanswers := answers_callsFrom hload hgood (loadOrder (Text.bytes content) table) hs
  apply fits_of_calculate h hcontent htable
  rwa [callsOf_eq]

end SourceMap

end TemplateTrace
