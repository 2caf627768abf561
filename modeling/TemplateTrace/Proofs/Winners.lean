import Mathlib.Data.List.Induction
import TemplateTrace.Proofs.Tables
import TemplateTrace.SourceMap.Build

namespace TemplateTrace.SourceMap

/-- No smaller offset of the list falls on the same line. -/
def Wins (content : Bytes) (l : List (Nat × Location)) (e : Nat × Location) : Prop :=
  ∀ d ∈ l, d.1 < e.1 → Text.lineAt content d.1 ≠ Text.lineAt content e.1

instance (content : Bytes) (l : List (Nat × Location)) : DecidablePred (Wins content l) :=
  fun e => inferInstanceAs (Decidable (∀ d ∈ l, d.1 < e.1 → _))

def winning (content : Bytes) (l : List (Nat × Location)) : List (Nat × Location) :=
  l.filter (Wins content l)

theorem mem_winning_iff {content : Bytes} {l : List (Nat × Location)} {e : Nat × Location} :
    e ∈ winning content l ↔ e ∈ l ∧ Wins content l e := by
  simp [winning]

theorem exists_winning (content : Bytes) {l : List (Nat × Location)} {e : Nat × Location}
    (he : e ∈ l) :
    ∃ w ∈ winning content l, Text.lineAt content w.1 = Text.lineAt content e.1 := by
  induction hn : e.1 using Nat.strongRecOn generalizing e with
  | ind n ih =>
    subst hn
    by_cases hw : Wins content l e
    · exact ⟨e, mem_winning_iff.mpr ⟨he, hw⟩, rfl⟩
    · simp only [Wins, not_forall, not_not] at hw
      obtain ⟨d, hd, hlt, hline⟩ := hw
      obtain ⟨w, hw, hwd⟩ := ih d.1 hlt hd rfl
      exact ⟨w, hw, hwd.trans hline⟩

theorem wins_append_of_mem {content : Bytes} {l : List (Nat × Location)} {e d : Nat × Location}
    (hlast : ∀ d ∈ l, d.1 < e.1) (hd : d ∈ l) :
    Wins content (l ++ [e]) d ↔ Wins content l d := by
  constructor
  · intro h c hc
    exact h c (List.mem_append_left _ hc)
  · intro h c hc hlt
    rcases List.mem_append.mp hc with hc | hc
    · exact h c hc hlt
    · rw [List.mem_singleton.mp hc] at hlt
      have := hlast d hd
      omega

theorem wins_append_last {content : Bytes} {l : List (Nat × Location)} {e : Nat × Location}
    (hlast : ∀ d ∈ l, d.1 < e.1) :
    Wins content (l ++ [e]) e ↔
      ∀ d ∈ l, Text.lineAt content d.1 ≠ Text.lineAt content e.1 := by
  constructor
  · intro h d hd
    exact h d (List.mem_append_left _ hd) (hlast d hd)
  · intro h d hd hlt
    rcases List.mem_append.mp hd with hd | hd
    · exact h d hd
    · rw [List.mem_singleton.mp hd] at hlt
      omega

theorem winning_append {content : Bytes} {l : List (Nat × Location)} {e : Nat × Location}
    (hlast : ∀ d ∈ l, d.1 < e.1) :
    winning content (l ++ [e]) = winning content l ++
      if ∀ d ∈ l, Text.lineAt content d.1 ≠ Text.lineAt content e.1 then [e] else [] := by
  have hold : l.filter (Wins content (l ++ [e])) = l.filter (Wins content l) := by
    apply List.filter_congr
    intro d hd
    simp only [wins_append_of_mem hlast hd]
  rw [winning, List.filter_append, hold, winning, List.filter_singleton]
  simp only [wins_append_last hlast]
  rw [cond_eq_ite]
  simp only [decide_eq_true_eq]

theorem foldl_insertNew_entries (content : Bytes) (l : List (Nat × Location))
    (hl : l.Pairwise (·.1 < ·.1)) :
    (l.foldl (fun t e => t.insertNew (Text.lineAt content e.1) e.2) Table.empty).entries =
      (winning content l).map fun e => (Text.lineAt content e.1, e.2) := by
  induction l using List.reverseRecOn with
  | nil => rfl
  | append_singleton l e ih =>
    have hlast : ∀ d ∈ l, d.1 < e.1 := fun d hd =>
      (List.pairwise_append.mp hl).2.2 d hd e (List.mem_singleton_self e)
    have hi := ih (List.pairwise_append.mp hl).1
    rw [List.foldl_append, List.foldl_cons, List.foldl_nil, winning_append hlast]
    split
    · rename_i hnew
      rw [Table.insertNew_last, hi]
      · simp
      · intro d hd
        rw [hi] at hd
        obtain ⟨w, hw, rfl⟩ := List.mem_map.mp hd
        have hmem := (mem_winning_iff.mp hw).1
        have hle := Text.lineAt_mono content (Nat.le_of_lt (hlast w hmem))
        exact Nat.lt_of_le_of_ne hle (hnew w hmem)
    · rename_i hold
      rw [List.append_nil, ← hi]
      congr 1
      apply Table.insertNew_of_mem
      simp only [not_forall, not_not] at hold
      obtain ⟨d, hd, hline⟩ := hold
      obtain ⟨w, hw, hwd⟩ := exists_winning content hd
      rw [hi]
      exact ⟨_, List.mem_map.mpr ⟨w, hw, rfl⟩, hwd.trans hline⟩

theorem winners_entries (content : Bytes) (table : Table Location) :
    (winners content table).entries =
      (winning content table.entries).map fun e => (Text.lineAt content e.1, e.2) :=
  foldl_insertNew_entries content table.entries table.ascending

theorem winners_values (content : Bytes) (table : Table Location) :
    (winners content table).values = (winning content table.entries).map Prod.snd := by
  simp [Table.values, winners_entries]

end TemplateTrace.SourceMap
