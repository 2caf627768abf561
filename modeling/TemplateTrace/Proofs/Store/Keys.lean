import Mathlib.Data.String.Basic
import TemplateTrace.Store.Basic

namespace TemplateTrace

namespace MapStore

theorem perm_sortKeys (keys : List String) : (sortKeys keys).Perm keys :=
  List.mergeSort_perm keys _

theorem pairwise_sortKeys (keys : List String) : (sortKeys keys).Pairwise (· ≤ ·) := by
  have h : (sortKeys keys).Pairwise fun a b => decide (a ≤ b) = true :=
    List.pairwise_mergeSort (by simpa using fun a b c => String.le_trans)
      (by simpa using String.le_total) keys
  exact h.imp of_decide_eq_true

theorem sortKeys_eq_of_perm {keys others : List String} (h : keys.Perm others) :
    sortKeys keys = sortKeys others := by
  have hperm : (sortKeys keys).Perm (sortKeys others) :=
    (perm_sortKeys keys).trans (h.trans (perm_sortKeys others).symm)
  exact hperm.eq_of_pairwise (fun _ _ _ _ => String.le_antisymm) (pairwise_sortKeys keys)
    (pairwise_sortKeys others)

theorem ascending_sortKeys {keys : List String} (h : keys.Nodup) :
    (sortKeys keys).Pairwise (· < ·) := by
  have hnodup : (sortKeys keys).Nodup := (perm_sortKeys keys).nodup_iff.mpr h
  refine ((pairwise_sortKeys keys).and hnodup).imp ?_
  rintro a b ⟨hle, hne⟩
  exact lt_of_le_of_ne hle hne

end MapStore

end TemplateTrace
