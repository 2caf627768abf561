import Mathlib.Data.List.Basic
import TemplateTrace.Assoc

namespace TemplateTrace

namespace Assoc

variable {κ α : Type}

theorem keys_cons (k : κ) (a : α) (t : Assoc κ α) : keys ((k, a) :: t) = k :: keys t := rfl

variable [DecidableEq κ]

theorem insert_of_not_mem_keys {k : κ} {t : Assoc κ α} (a : α) (h : k ∉ keys t) :
    insert k a t = t ++ [(k, a)] := by
  induction t with
  | nil => rfl
  | cons e rest ih =>
    simp only [keys, List.map_cons, List.mem_cons, not_or] at h
    rw [insert, if_neg h.1, ih h.2, List.cons_append]

theorem insert_insert (k : κ) (a b : α) (t : Assoc κ α) : insert k a (insert k b t) = insert k a t := by
  induction t with
  | nil => simp [insert]
  | cons e rest ih =>
    obtain ⟨j, c⟩ := e
    by_cases hk : k = j
    · simp [insert, hk]
    · simp [insert, hk, ih]

theorem mem_of_lookup {k : κ} {a : α} {t : Assoc κ α} (h : lookup k t = some a) : (k, a) ∈ t := by
  induction t with
  | nil => cases h
  | cons e rest ih =>
    rw [lookup] at h
    split at h
    · rename_i hk
      cases h
      rw [hk]
      exact List.mem_cons_self
    · exact List.mem_cons_of_mem _ (ih h)

theorem mem_of_mem_insert {e : κ × α} {k : κ} {a : α} {t : Assoc κ α} (h : e ∈ insert k a t) :
    e = (k, a) ∨ e ∈ t := by
  induction t with
  | nil => exact .inl (List.mem_singleton.mp h)
  | cons d rest ih =>
    rw [insert] at h
    split at h
    · rcases List.mem_cons.mp h with heq | hrest
      · exact .inl heq
      · exact .inr (List.mem_cons_of_mem _ hrest)
    · rcases List.mem_cons.mp h with rfl | hrest
      · exact .inr List.mem_cons_self
      · exact (ih hrest).imp_right (List.mem_cons_of_mem _)

theorem lookup_eq_none_iff (k : κ) (t : Assoc κ α) : lookup k t = none ↔ k ∉ keys t := by
  rw [mem_keys_iff, Option.not_isSome_iff_eq_none]

theorem lookup_of_mem {t : Assoc κ α} (h : (keys t).Nodup) {k : κ} {a : α}
    (hmem : (k, a) ∈ t) : lookup k t = some a := by
  induction t with
  | nil => cases hmem
  | cons e rest ih =>
    obtain ⟨j, b⟩ := e
    rw [keys_cons, List.nodup_cons] at h
    rw [lookup]
    rcases List.mem_cons.mp hmem with heq | hrest
    · cases heq
      rw [if_pos rfl]
    · have hne : k ≠ j := by
        rintro rfl
        exact h.1 (List.mem_map_of_mem hrest)
      rw [if_neg hne]
      exact ih h.2 hrest

theorem keys_insert (k : κ) (a : α) (t : Assoc κ α) :
    keys (insert k a t) = if k ∈ keys t then keys t else keys t ++ [k] := by
  induction t with
  | nil => rfl
  | cons e rest ih =>
    obtain ⟨j, b⟩ := e
    by_cases hk : k = j
    · simp [insert, hk, keys_cons]
    · rw [insert, if_neg hk, keys_cons, ih, keys_cons]
      by_cases hmem : k ∈ keys rest <;> simp [hk, hmem]

theorem keys_erase (k : κ) (t : Assoc κ α) : keys (erase k t) = (keys t).filter (· ≠ k) := by
  induction t with
  | nil => rfl
  | cons e rest ih =>
    obtain ⟨j, b⟩ := e
    by_cases hk : k = j
    · rw [erase, if_pos hk, ih, keys_cons, List.filter_cons_of_neg (by simpa using hk.symm)]
    · rw [erase, if_neg hk, keys_cons, ih, keys_cons,
        List.filter_cons_of_pos (by simpa using Ne.symm hk)]

theorem nodup_keys_insert (k : κ) (a : α) {t : Assoc κ α} (h : (keys t).Nodup) :
    (keys (insert k a t)).Nodup := by
  rw [keys_insert]
  split
  · exact h
  · rename_i hk
    refine List.nodup_append.mpr ⟨h, by simp, ?_⟩
    rintro j hj _ hk' rfl
    rw [List.mem_singleton.mp hk'] at hj
    exact hk hj

theorem nodup_keys_erase (k : κ) {t : Assoc κ α} (h : (keys t).Nodup) :
    (keys (erase k t)).Nodup := by
  rw [keys_erase]
  exact h.filter _

end Assoc

end TemplateTrace
