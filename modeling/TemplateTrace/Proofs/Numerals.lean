import TemplateTrace.Number.Digits
import TemplateTrace.Proofs.Json.Counts

namespace TemplateTrace.Digits

variable {c : Char} {d k m : Nat} {n : Int} {l rest : List Char}

theorem lt_of_value? {base : Nat} (h : value? base c = some d) : d < base := by
  rw [value?, Option.filter_eq_some_iff] at h
  exact of_decide_eq_true h.2

theorem isSome_of_natural? {base : Nat} (h : natural? base l = some k) :
    ∀ c ∈ l, (value? base c).isSome := by
  have hfold : ∀ (l : List Char) (m n : Nat),
      l.foldlM (fun n c => (value? base c).map (n * base + ·)) m = some n →
      ∀ c ∈ l, (value? base c).isSome := by
    intro l
    induction l with
    | nil => nofun
    | cons d rest ih =>
      intro m n h
      rw [List.foldlM_cons, Option.bind_eq_bind, Option.bind_eq_some_iff] at h
      obtain ⟨k, hk, hrest⟩ := h
      obtain ⟨v, hv, -⟩ := Option.map_eq_some_iff.mp hk
      rw [List.forall_mem_cons]
      exact ⟨by rw [hv]; rfl, ih k n hrest⟩
  rw [natural?] at h
  split at h
  · cases h
  · exact hfold l 0 k h

theorem of_value?_ten (h : value? 10 c = some d) : d < 10 ∧ Nat.toDigits 10 d = [c] := by
  have hd := lt_of_value? h
  have hvalue := (Option.filter_eq_some_iff.mp h).1
  refine ⟨hd, ?_⟩
  rw [Nat.toDigits_of_lt_base hd]
  split_ifs at hvalue with hdigit hlower hupper
  · obtain rfl := Option.some.inj hvalue
    have hzero := (Json.Reader.digit_bounds hdigit).1
    congr 1
    apply Char.toNat_inj.mp
    rw [Nat.toNat_digitChar_of_lt_ten hd]
    exact Nat.add_sub_of_le hzero
  -- Letters stand for ten and more.
  all_goals
    have := Option.some.inj hvalue
    omega

theorem toDigits_of_foldlM (hm : 0 < m)
    (h : l.foldlM (fun n c => (value? 10 c).map (n * 10 + ·)) m = some k) :
    Nat.toDigits 10 k = Nat.toDigits 10 m ++ l := by
  induction l generalizing m with
  | nil =>
    cases h
    exact (List.append_nil _).symm
  | cons c rest ih =>
    rw [List.foldlM_cons, Option.bind_eq_bind, Option.bind_eq_some_iff] at h
    obtain ⟨next, hnext, hrest⟩ := h
    obtain ⟨d, hvalue, rfl⟩ := Option.map_eq_some_iff.mp hnext
    obtain ⟨hd, hdigit⟩ := of_value?_ten hvalue
    calc Nat.toDigits 10 k
        = Nat.toDigits 10 (10 * m + d) ++ rest := by rw [ih (by omega) hrest, Nat.mul_comm]
      _ = (Nat.toDigits 10 m ++ [c]) ++ rest := by
        rw [← hdigit, Nat.toDigits_append_toDigits (by decide) hm hd]
      _ = Nat.toDigits 10 m ++ c :: rest := by rw [List.append_assoc, List.singleton_append]

theorem toDigits_of_head_ne (hc : c ≠ '0') (h : natural? 10 (c :: rest) = some k) :
    Nat.toDigits 10 k = c :: rest := by
  rw [natural?, if_neg (by simp), List.foldlM_cons, Option.bind_eq_bind, Option.bind_eq_some_iff] at h
  obtain ⟨next, hnext, hrest⟩ := h
  obtain ⟨d, hvalue, rfl⟩ := Option.map_eq_some_iff.mp hnext
  obtain ⟨hd, hdigit⟩ := of_value?_ten hvalue
  rw [Nat.zero_mul, Nat.zero_add] at hrest
  have hpos : 0 < d := by
    rw [Nat.pos_iff_ne_zero]
    rintro rfl
    exact hc (List.cons.inj hdigit).1.symm
  rw [toDigits_of_foldlM hpos hrest, hdigit, List.singleton_append]

theorem toDigits_eq_iff (h : natural? 10 l = some k) :
    Nat.toDigits 10 k = l ↔ l = ['0'] ∨ l.head? ≠ some '0' := by
  cases l with
  | nil => cases h
  | cons c rest =>
    by_cases hc : c = '0'
    · subst hc
      constructor
      · intro hdigits
        rcases Nat.eq_zero_or_pos k with rfl | hk
        · exact .inl hdigits.symm
        · exact absurd hdigits (Json.Reader.head_digits_ne_zero hk rest)
      · rintro (hzero | hhead)
        · cases hzero
          cases h
          rfl
        · exact absurd rfl hhead
    · have hhead : (c :: rest).head? ≠ some '0' := fun h => hc (Option.some.inj h)
      exact ⟨fun _ => .inr hhead, fun _ => toDigits_of_head_ne hc h⟩

def IsPlain (l : List Char) : Prop := l.head? ≠ some '+' ∧ (l = ['0'] ∨ (splitSign l).2.head? ≠ some '0')

theorem toString_ofNat (k : Nat) : toString (k : Int) = String.ofList (Nat.toDigits 10 k) := rfl

theorem toString_neg (hk : 0 < k) : toString (-k : Int) = String.ofList ('-' :: Nat.toDigits 10 k) := by
  have hneg : ¬ 0 ≤ (-k : Int) := by omega
  have habs : (- -(k : Int)).toNat = k := by omega
  rw [Int.toString_eq_repr, Int.repr_eq_if, if_neg hneg, habs, Nat.repr_eq_ofList_toDigits,
    ← String.toList_inj]
  simp

theorem ofList_eq_neg_iff (h : natural? 10 l = some k) :
    String.ofList ('-' :: l) = toString (-k : Int) ↔ l.head? ≠ some '0' := by
  have hiff := toDigits_eq_iff h
  rcases Nat.eq_zero_or_pos k with rfl | hk
  · constructor
    · intro heq
      cases String.ofList_inj.mp heq
    · intro hhead
      rw [← hiff.mpr (.inr hhead)] at hhead
      exact absurd rfl hhead
  · have hzero : l ≠ ['0'] := by
      rintro rfl
      cases h
      exact absurd hk (Nat.lt_irrefl 0)
    rw [toString_neg hk, String.ofList_inj, List.cons_inj_right, eq_comm, hiff, or_iff_right hzero]

theorem ofList_eq_iff (h : integer? l = some n) : String.ofList l = toString n ↔ IsPlain l := by
  obtain ⟨k, hk, rfl⟩ : ∃ k, natural? 10 (splitSign l).2 = some k ∧ signed (splitSign l).1 k = n :=
    Option.map_eq_some_iff.mp (Option.filter_eq_some_iff.mp h).1
  unfold IsPlain
  unfold splitSign at hk ⊢
  split at hk
  · rename_i digits
    rw [signed, if_pos rfl, ofList_eq_neg_iff hk]
    simp
  · rename_i digits
    have hplus : Nat.toDigits 10 k ≠ '+' :: digits := by
      intro heq
      have hdigit := Nat.isDigit_of_mem_toDigits (by decide) (by decide) (heq ▸ List.mem_cons_self)
      cases hdigit
    rw [signed, if_neg Bool.false_ne_true, toString_ofNat, String.ofList_inj]
    exact iff_of_false hplus.symm fun hplain => hplain.1 rfl
  · rename_i hplus
    have hhead : l.head? ≠ some '+' := by
      intro h
      obtain ⟨rest, rfl⟩ := List.head?_eq_some_iff.mp h
      exact hplus rest rfl
    rw [signed, if_neg Bool.false_ne_true, toString_ofNat, String.ofList_inj, eq_comm, toDigits_eq_iff hk,
      and_iff_right hhead]

end TemplateTrace.Digits
