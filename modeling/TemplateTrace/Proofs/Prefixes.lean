import TemplateTrace.Proofs.Json.Texts
import TemplateTrace.Proofs.Stacks

namespace TemplateTrace

namespace Text

theorem count_utf8EncodeChar (c : Char) :
    (String.utf8EncodeChar c).count lineFeed = if c = '\n' then 1 else 0 := by
  by_cases hascii : c.toNat ≤ 0x7f
  · rw [utf8EncodeChar_ascii hascii, List.count_singleton]
    have hbyte : (byte c == lineFeed) = true ↔ c = '\n' := by
      rw [beq_iff_eq, ← Char.toNat_inj, ← UInt8.toNat_inj, byte, Nat.toUInt8_eq, UInt8.toNat_ofNat']
      rw [Nat.mod_eq_of_lt (by omega)]
      rfl
    simp only [hbyte]
  · have hplain := Json.Reader.isPlain_of_mem_utf8EncodeChar (c := c) (by omega)
      (by rintro rfl; exact hascii (by decide)) (by rintro rfl; exact hascii (by decide))
    rw [if_neg (by rintro rfl; exact hascii (by decide)), List.count_eq_zero]
    intro hmem
    exact (hplain lineFeed hmem).2.2 (by decide)

theorem count_lineFeed (s : String) : (bytes s).count lineFeed = s.toList.count '\n' := by
  rw [bytes_eq_flatMap]
  induction s.toList with
  | nil => rfl
  | cons c rest ih =>
    rw [List.flatMap_cons, List.count_append, ih, count_utf8EncodeChar, List.count_cons, Nat.add_comm]
    simp only [beq_iff_eq]

theorem lineAt_append (before content : Bytes) (offset : Nat) :
    lineAt (before ++ content) (offset + before.length) =
      lineAt content offset + before.count lineFeed := by
  rw [lineAt, Nat.add_comm offset, List.take_length_add_append, List.count_append, lineAt]
  omega

end Text

namespace Table

variable {α : Type}

def shift (t : Table α) (k : Nat) : Table α where
  entries := t.entries.map fun e => (e.1 + k, e.2)
  ascending := List.pairwise_map.mpr (t.ascending.imp fun h => Nat.add_lt_add_right h k)

theorem entries_shift (t : Table α) (k : Nat) :
    (t.shift k).entries = t.entries.map fun e => (e.1 + k, e.2) := rfl

theorem floor?_shift (t : Table α) (k n : Nat) :
    (t.shift k).floor? (n + k) = (t.floor? n).map fun e => (e.1 + k, e.2) := by
  have hle : ((fun e : Nat × α => decide (e.1 ≤ n + k)) ∘ fun e : Nat × α => (e.1 + k, e.2)) =
      fun e => decide (e.1 ≤ n) := by
    funext e
    simp
  rw [floor?, entries_shift, List.takeWhile_map, hle, List.getLast?_map, floor?]

end Table

namespace SourceMap

def shift (m : SourceMap) (k : Nat) : SourceMap := ⟨m.files, m.lines.shift k⟩

theorem stack_shift (m : SourceMap) (k n : Nat) : (m.shift k).stack (n + k) = m.stack n := by
  rw [stack, shift, Table.floor?_shift, stack]
  cases m.lines.floor? n <;> rfl

theorem stack_shift_of_le {m : SourceMap} {k n : Nat} (hlines : ∀ e ∈ m.lines.entries, 1 ≤ e.1)
    (h : n ≤ k) : (m.shift k).stack n = [] := by
  apply stack_of_floor?_none
  rw [Table.floor?_eq_none_iff]
  intro d hd
  obtain ⟨e, he, rfl⟩ := List.mem_map.mp hd
  have hline := hlines e he
  dsimp only
  omega

variable (before content : Bytes) (table : Table Location)

theorem wins_shift (e : Nat × Location) :
    Wins (before ++ content) (table.shift before.length).entries (e.1 + before.length, e.2) ↔
      Wins content table.entries e := by
  simp only [Wins, Table.entries_shift, List.forall_mem_map, Text.lineAt_append, Nat.add_lt_add_iff_right, ne_eq,
    Nat.add_right_cancel_iff]

theorem winning_shift : winning (before ++ content) (table.shift before.length).entries =
    (winning content table.entries).map fun e => (e.1 + before.length, e.2) := by
  have hwins : (fun e => decide (Wins (before ++ content) (table.shift before.length).entries e)) ∘
      (fun e => (e.1 + before.length, e.2)) = fun e => decide (Wins content table.entries e) := by
    funext e
    simp only [Function.comp_apply, wins_shift]
  rw [winning, winning, ← hwins, ← List.filter_map]
  rfl

theorem sites_shift : sites (before ++ content) (table.shift before.length) = sites content table := by
  rw [sites, winning_shift, List.flatMap_map, sites]

theorem loadOrder_shift :
    loadOrder (before ++ content) (table.shift before.length) = loadOrder content table := by
  rw [loadOrder, sites_shift, loadOrder]

theorem assemble_shift (answers : Assoc String Source) :
    assemble (before ++ content) (table.shift before.length) answers =
      (assemble content table answers).shift (before.count Text.lineFeed) := by
  apply SourceMap.ext
  · rfl
  · apply Table.ext
    rw [assemble_entries, winning_shift, List.map_map, shift, Table.entries_shift, assemble_entries,
      List.map_map]
    refine List.map_congr_left fun e _ => ?_
    simp only [Function.comp_apply, Text.lineAt_append]

theorem calculate_shift {m : Type → Type} [Monad m] [LawfulMonad m] {ε : Type}
    (load : String → ExceptT ε m Source) (before content : String) (table : Table Location) :
    calculate load (before ++ content) (table.shift (Text.size before)) = (do
      return (← calculate load content table).shift (before.toList.count '\n')) := by
  rw [calculate_eq, calculate_eq, Text.bytes_append, Text.size, loadOrder_shift]
  simp only [assemble_shift, Text.count_lineFeed, bind_assoc, pure_bind]

/-- With another text in front and the offsets moved by its size, the build makes the same loads and
fails with the same error, or its map has the same files and the same records further down by the line
feeds in front, before which nothing is recorded. -/
theorem calculate_prefixed {ε σ : Type} (load : String → ExceptT ε (StateM σ) Source)
    (before content : String) (table : Table Location) (s : σ) :
    let feeds := before.toList.count '\n'
    let moved := table.shift (Text.size before)
    let built := runFrom (calculate load content table) s
    let builtAfter := runFrom (calculate load (before ++ content) moved) s
    callsOf load (before ++ content) moved s = callsOf load content table s ∧
      builtAfter.2 = built.2 ∧
      (∀ e, built.1 = .error e → builtAfter.1 = .error e) ∧
      ∀ map, built.1 = .ok map → ∃ after, builtAfter.1 = .ok after ∧ after.files = map.files ∧
        after.lines.entries = map.lines.entries.map (fun e => (e.1 + feeds, e.2)) ∧
        (∀ n, after.stack (n + feeds) = map.stack n) ∧ ∀ n ≤ feeds, after.stack n = [] := by
  intro feeds moved built builtAfter
  have hafter : builtAfter = (built.1.map (shift · feeds), built.2) := by
    rw [← runFrom_map, ← calculate_shift]
  refine ⟨?_, ?_, ?_, ?_⟩
  · rw [callsOf_eq, callsOf_eq, Text.bytes_append]
    exact congrArg (callsFrom load · s) (loadOrder_shift _ _ table)
  · rw [hafter]
  · intro e hfail
    rw [hafter, hfail]
    rfl
  · intro map hmap
    have hlines : ∀ e ∈ map.lines.entries, 1 ≤ e.1 := by
      obtain ⟨answers, -, -, rfl⟩ := calculate_ok (Prod.ext hmap rfl)
      intro e he
      rw [assemble_entries] at he
      obtain ⟨w, -, rfl⟩ := List.mem_map.mp he
      exact Text.one_le_lineAt _ _
    refine ⟨map.shift feeds, ?_, rfl, rfl, fun n => stack_shift map feeds n, fun n hn => ?_⟩
    · rw [hafter, hmap]
      rfl
    · exact stack_shift_of_le hlines hn

end SourceMap

end TemplateTrace
