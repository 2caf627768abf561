import Mathlib.Data.List.Nodup
import TemplateTrace.Table

namespace TemplateTrace.Table

variable {α β : Type}

def map (f : α → β) (t : Table α) : Table β where
  entries := t.entries.map fun e => (e.1, f e.2)
  ascending := List.pairwise_map.mpr t.ascending

theorem map_id (t : Table α) : t.map id = t := by
  apply Table.ext
  simp [map]

theorem insertEntry_last {k : Nat} {a : α} {l : List (Nat × α)} (h : ∀ e ∈ l, e.1 < k) :
    insertEntry k a l = l ++ [(k, a)] := by
  induction l with
  | nil => rfl
  | cons d rest ih =>
    have hd : d.1 < k := h d (by simp)
    have hr := ih (fun e he => h e (List.mem_cons_of_mem _ he))
    simp only [insertEntry, hr]
    rw [if_neg (by omega), if_neg (by omega)]
    rfl

theorem insert_last {t : Table α} {k : Nat} (a : α) (h : ∀ e ∈ t.entries, e.1 < k) :
    (t.insert k a).entries = t.entries ++ [(k, a)] := insertEntry_last h

theorem contains_eq_true_iff (t : Table α) (k : Nat) :
    t.contains k = true ↔ ∃ e ∈ t.entries, e.1 = k := by
  simp [contains]

theorem insertNew_of_mem {t : Table α} {k : Nat} (a : α) (h : ∃ e ∈ t.entries, e.1 = k) :
    t.insertNew k a = t := by
  rw [insertNew, if_pos ((contains_eq_true_iff t k).mpr h)]

theorem insertNew_last {t : Table α} {k : Nat} (a : α) (h : ∀ e ∈ t.entries, e.1 < k) :
    (t.insertNew k a).entries = t.entries ++ [(k, a)] := by
  have hk : ¬ t.contains k = true := by
    rw [contains_eq_true_iff]
    rintro ⟨e, he, rfl⟩
    exact Nat.lt_irrefl _ (h e he)
  rw [insertNew, if_neg hk, insert_last a h]

theorem foldl_insert_entries {γ : Type} (g : γ → β) (l : List (Nat × γ)) (s : Table β)
    (hl : l.Pairwise (·.1 < ·.1)) (hs : ∀ d ∈ s.entries, ∀ e ∈ l, d.1 < e.1) :
    (l.foldl (fun t e => t.insert e.1 (g e.2)) s).entries =
      s.entries ++ l.map fun e => (e.1, g e.2) := by
  induction l generalizing s with
  | nil => simp
  | cons e rest ih =>
    obtain ⟨he, hrest⟩ := List.pairwise_cons.mp hl
    have hi := insert_last (g e.2) (fun d hd => hs d hd e (by simp))
    rw [List.foldl_cons, ih _ hrest, hi]
    · simp
    · intro d hd c hc
      rw [hi, List.mem_append, List.mem_singleton] at hd
      rcases hd with hd | rfl
      · exact hs d hd c (List.mem_cons_of_mem _ hc)
      · exact he c hc

theorem foldl_insert_eq_map (g : α → β) (t : Table α) :
    t.entries.foldl (fun s e => s.insert e.1 (g e.2)) empty = t.map g := by
  apply Table.ext
  rw [foldl_insert_entries g t.entries empty t.ascending (by simp [empty])]
  rfl

theorem takeWhile_eq_filter {l : List (Nat × α)} (h : l.Pairwise (·.1 < ·.1)) (k : Nat) :
    l.takeWhile (·.1 ≤ k) = l.filter (·.1 ≤ k) := by
  induction l with
  | nil => rfl
  | cons d rest ih =>
    obtain ⟨hd, hrest⟩ := List.pairwise_cons.mp h
    by_cases hk : d.1 ≤ k
    · simp [hk, ih hrest]
    · have hr : ∀ e ∈ rest, ¬ e.1 ≤ k := fun e he => by have := hd e he; omega
      simpa [hk] using hr

theorem floor?_eq_none_iff (t : Table α) (k : Nat) :
    t.floor? k = none ↔ ∀ e ∈ t.entries, k < e.1 := by
  rw [floor?, takeWhile_eq_filter t.ascending]
  simp

theorem mem_of_floor? {t : Table α} {k : Nat} {e : Nat × α} (h : t.floor? k = some e) :
    e ∈ t.entries ∧ e.1 ≤ k ∧ ∀ d ∈ t.entries, d.1 ≤ k → d.1 ≤ e.1 := by
  rw [floor?, takeWhile_eq_filter t.ascending] at h
  obtain ⟨before, hsplit⟩ := List.getLast?_eq_some_iff.mp h
  have hasc : (before ++ [e]).Pairwise (·.1 < ·.1) := hsplit ▸ t.ascending.filter _
  have hmem (d : Nat × α) : d ∈ before ++ [e] ↔ d ∈ t.entries ∧ d.1 ≤ k := by
    rw [← hsplit, List.mem_filter, decide_eq_true_eq]
  obtain ⟨he, hk⟩ := (hmem e).mp (by simp)
  refine ⟨he, hk, fun d hd hdk => ?_⟩
  rcases List.mem_append.mp ((hmem d).mpr ⟨hd, hdk⟩) with hd | hd
  · exact Nat.le_of_lt ((List.pairwise_append.mp hasc).2.2 d hd e (by simp))
  · exact Nat.le_of_eq (by rw [List.mem_singleton.mp hd])

theorem eq_of_mem {t : Table α} {e d : Nat × α} (he : e ∈ t.entries) (hd : d ∈ t.entries)
    (h : e.1 = d.1) : e = d := by
  have hnodup : (t.entries.map Prod.fst).Nodup :=
    List.pairwise_map.mpr (t.ascending.imp Nat.ne_of_lt)
  exact List.inj_on_of_nodup_map hnodup he hd h

theorem floor?_of_mem {t : Table α} {e : Nat × α} (h : e ∈ t.entries) : t.floor? e.1 = some e := by
  cases hfloor : t.floor? e.1 with
  | none => exact absurd ((floor?_eq_none_iff t e.1).mp hfloor e h) (Nat.lt_irrefl _)
  | some d =>
    obtain ⟨hd, hle, hmax⟩ := mem_of_floor? hfloor
    rw [eq_of_mem hd h (Nat.le_antisymm hle (hmax e h (Nat.le_refl _)))]

end TemplateTrace.Table
