
namespace TemplateTrace

@[ext]
structure Table (α : Type) where
  entries : List (Nat × α)
  ascending : entries.Pairwise (·.1 < ·.1)

namespace Table

variable {α : Type}

instance [DecidableEq α] : DecidableEq (Table α) := fun s t =>
  decidable_of_iff (s.entries = t.entries) Table.ext_iff.symm

def insertEntry (k : Nat) (a : α) : List (Nat × α) → List (Nat × α)
  | [] => [(k, a)]
  | (j, b) :: rest =>
    if k < j then (k, a) :: (j, b) :: rest
    else if k = j then (k, a) :: rest
    else (j, b) :: insertEntry k a rest

theorem mem_insertEntry {k : Nat} {a : α} {l : List (Nat × α)} {e : Nat × α}
    (h : e ∈ insertEntry k a l) : e = (k, a) ∨ e ∈ l := by
  induction l with
  | nil => simp_all [insertEntry]
  | cons d rest ih => grind [insertEntry]

theorem insertEntry_ascending (k : Nat) (a : α) {l : List (Nat × α)}
    (h : l.Pairwise (·.1 < ·.1)) : (insertEntry k a l).Pairwise (·.1 < ·.1) := by
  induction l with
  | nil => simp [insertEntry]
  | cons d rest ih =>
    obtain ⟨j, b⟩ := d
    simp only [List.pairwise_cons] at h
    simp only [insertEntry]
    split
    · rename_i hk
      simp only [List.pairwise_cons, List.mem_cons]
      refine ⟨?_, h.1, h.2⟩
      rintro e (rfl | he)
      · exact hk
      · exact Nat.lt_trans hk (h.1 e he)
    · split
      · rename_i hk
        subst hk
        exact List.pairwise_cons.2 ⟨h.1, h.2⟩
      · refine List.pairwise_cons.2 ⟨fun e he => ?_, ih h.2⟩
        rcases mem_insertEntry he with rfl | he
        · simp only; omega
        · exact h.1 e he

def empty : Table α := ⟨[], .nil⟩

def insert (t : Table α) (k : Nat) (a : α) : Table α :=
  ⟨insertEntry k a t.entries, insertEntry_ascending k a t.ascending⟩

def find? (t : Table α) (k : Nat) : Option α := t.entries.lookup k

def contains (t : Table α) (k : Nat) : Bool := t.entries.any (·.1 == k)

def insertNew (t : Table α) (k : Nat) (a : α) : Table α :=
  if t.contains k then t else t.insert k a

def floor? (t : Table α) (k : Nat) : Option (Nat × α) :=
  (t.entries.takeWhile (·.1 ≤ k)).getLast?

def ofList (l : List (Nat × α)) : Table α := l.foldl (fun t e => t.insert e.1 e.2) empty

def values (t : Table α) : List α := t.entries.map Prod.snd

def length (t : Table α) : Nat := t.entries.length

def isEmpty (t : Table α) : Bool := t.entries.isEmpty

def mapM {m : Type → Type} [Monad m] {β : Type} (f : α → m β) (t : Table α) : m (Table β) :=
  t.entries.foldlM (fun s e => do return s.insert e.1 (← f e.2)) empty

instance : EmptyCollection (Table α) := ⟨empty⟩

instance : Inhabited (Table α) := ⟨empty⟩

end Table

end TemplateTrace
