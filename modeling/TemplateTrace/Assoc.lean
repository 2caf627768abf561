
namespace TemplateTrace

/-- Pairs of a key and a value; the first pair of a key counts. -/
abbrev Assoc (κ α : Type) := List (κ × α)

namespace Assoc

variable {κ α : Type} [DecidableEq κ]

def lookup (k : κ) : Assoc κ α → Option α
  | [] => none
  | (j, a) :: rest => if k = j then some a else lookup k rest

def erase (k : κ) : Assoc κ α → Assoc κ α
  | [] => []
  | (j, a) :: rest => if k = j then erase k rest else (j, a) :: erase k rest

def insert (k : κ) (a : α) : Assoc κ α → Assoc κ α
  | [] => [(k, a)]
  | (j, b) :: rest => if k = j then (k, a) :: rest else (j, b) :: insert k a rest

def contains (k : κ) (t : Assoc κ α) : Bool := (lookup k t).isSome

def keys (t : Assoc κ α) : List κ := t.map Prod.fst

@[simp] theorem lookup_nil (k : κ) : lookup k ([] : Assoc κ α) = none := rfl

theorem lookup_insert (k j : κ) (a : α) (t : Assoc κ α) :
    lookup j (insert k a t) = if j = k then some a else lookup j t := by
  induction t with
  | nil => simp [insert, lookup]
  | cons e rest ih =>
    obtain ⟨i, b⟩ := e
    by_cases hk : k = i
    · subst hk; by_cases hj : j = k <;> simp [insert, lookup, hj]
    · by_cases hj : j = i
      · subst hj; simp [insert, lookup, hk, Ne.symm hk]
      · simp [insert, lookup, hk, hj, ih]

theorem lookup_erase (k j : κ) (t : Assoc κ α) :
    lookup j (erase k t) = if j = k then none else lookup j t := by
  induction t with
  | nil => simp [erase]
  | cons e rest ih =>
    obtain ⟨i, b⟩ := e
    by_cases hk : k = i
    · subst hk; by_cases hj : j = k <;> simp_all [erase, lookup]
    · by_cases hj : j = i
      · subst hj; simp [erase, lookup, hk, Ne.symm hk]
      · simp [erase, lookup, hk, hj, ih]

theorem mem_keys_iff (k : κ) (t : Assoc κ α) : k ∈ keys t ↔ (lookup k t).isSome := by
  induction t with
  | nil => simp [keys]
  | cons e rest ih =>
    obtain ⟨i, b⟩ := e
    by_cases hk : k = i
    · simp [keys, lookup, hk]
    · simpa [keys, lookup, hk] using ih

end Assoc

end TemplateTrace
