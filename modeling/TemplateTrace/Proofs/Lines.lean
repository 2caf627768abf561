import Mathlib.Algebra.GroupWithZero.Nat
import TemplateTrace.Proofs.Prefixes

namespace TemplateTrace

namespace Text

variable {s line rest : String} {o n p : Nat}

def lines (s : String) : List String := (s.toList.splitOn '\n').map String.ofList

def lineStart (s : String) (n : Nat) : Nat := (((lines s).take (n - 1)).map (size · + 1)).sum

theorem lines_of_notMem (h : '\n' ∉ s.toList) : lines s = [s] := by
  rw [lines, List.splitOn_eq_singleton h]
  simp

theorem lines_line (h : '\n' ∉ line.toList) (rest : String) :
    lines (line ++ "\n" ++ rest) = line :: lines rest := by
  have hchars : (line ++ "\n" ++ rest).toList = line.toList ++ '\n' :: rest.toList := by simp
  rw [lines, hchars, List.splitOn_append_cons_self_of_not_mem h, List.map_cons, String.ofList_toList, lines]

/-- A text is a single line, or a line, a line feed and another text. -/
@[elab_as_elim]
theorem induction_on_lines {motive : String → Prop} (single : ∀ s, '\n' ∉ s.toList → motive s)
    (more : ∀ line rest, '\n' ∉ line.toList → motive rest → motive (line ++ "\n" ++ rest))
    (s : String) : motive s := by
  induction hlength : s.length using Nat.strongRecOn generalizing s with
  | _ k ih =>
    by_cases h : '\n' ∈ s.toList
    · obtain ⟨before, after, hs, hbefore⟩ := List.eq_append_cons_of_mem h
      have htext : s = String.ofList before ++ "\n" ++ String.ofList after := by
        apply String.toList_inj.mp
        simp [hs]
      have hshorter : (String.ofList after).length < k := by
        have hlineFeed : "\n".length = 1 := rfl
        rw [← hlength, htext, String.length_append, String.length_append]
        omega
      rw [htext]
      apply more
      · simpa using hbefore
      · exact ih _ hshorter _ rfl
    · exact single s h

theorem lineFeed_notMem_bytes (h : '\n' ∉ s.toList) : lineFeed ∉ bytes s := by
  rw [← List.count_eq_zero, count_lineFeed, List.count_eq_zero]
  exact h

theorem bytes_line (line rest : String) :
    bytes (line ++ "\n" ++ rest) = bytes line ++ lineFeed :: bytes rest := by
  rw [bytes_append, bytes_append, List.append_assoc]
  rfl

theorem lastLine_eq (s : String) : lastLine (bytes s) = (lines s).length := by
  induction s using induction_on_lines with
  | single s h =>
    rw [lastLine, List.count_eq_zero_of_not_mem (lineFeed_notMem_bytes h), lines_of_notMem h]
    rfl
  | more line rest h ih =>
    rw [lines_line h, List.length_cons, ← ih, bytes_line, lastLine, lastLine, List.count_append,
      List.count_eq_zero_of_not_mem (lineFeed_notMem_bytes h), List.count_cons_self]
    omega

theorem lineAt_line_of_le (h : '\n' ∉ line.toList) (ho : o ≤ size line) (rest : String) :
    lineAt (bytes (line ++ "\n" ++ rest)) o = 1 := by
  have hbefore : lineFeed ∉ (bytes line).take o := fun hmem =>
    lineFeed_notMem_bytes h (List.mem_of_mem_take hmem)
  rw [lineAt, bytes_line, List.take_append_of_le_length ho, List.count_eq_zero_of_not_mem hbefore]

theorem lineAt_line (h : '\n' ∉ line.toList) (rest : String) (o : Nat) :
    lineAt (bytes (line ++ "\n" ++ rest)) (o + (size line + 1)) = lineAt (bytes rest) o + 1 := by
  have hcount : (bytes (line ++ "\n")).count lineFeed = 1 := by
    rw [count_lineFeed, String.toList_append, List.count_append, List.count_eq_zero_of_not_mem h]
    rfl
  have hsize : (bytes (line ++ "\n")).length = size line + 1 := by
    rw [bytes_append, List.length_append]
    rfl
  rw [bytes_append, ← hsize, lineAt_append, hcount]

theorem lineStart_one (s : String) : lineStart s 1 = 0 := rfl

theorem lineStart_line (h : '\n' ∉ line.toList) (rest : String) (n : Nat) :
    lineStart (line ++ "\n" ++ rest) (n + 2) = lineStart rest (n + 1) + (size line + 1) := by
  rw [lineStart, lines_line h, lineStart, Nat.add_comm _ (size line + 1)]
  rfl

theorem lineStart_le_iff (s : String) (o : Nat) (h : 1 ≤ n) (hn : n ≤ (lines s).length) :
    lineStart s n ≤ o ↔ n ≤ lineAt (bytes s) o := by
  have hone := one_le_lineAt (bytes s) o
  induction s using induction_on_lines generalizing n o with
  | single s hs =>
    rw [lines_of_notMem hs] at hn
    obtain rfl : n = 1 := Nat.le_antisymm hn h
    simpa [lineStart_one] using hone
  | more line rest hline ih =>
    rcases n with _ | _ | n
    · omega
    · simpa [lineStart_one] using hone
    · rw [lines_line hline, List.length_cons] at hn
      rw [lineStart_line hline]
      by_cases ho : o ≤ size line
      · rw [lineAt_line_of_le hline ho]
        omega
      · obtain ⟨k, rfl⟩ : ∃ k, o = k + (size line + 1) := ⟨o - (size line + 1), by omega⟩
        have hrest := ih k (n := n + 1) (by omega) (by omega) (one_le_lineAt _ _)
        rw [lineAt_line hline]
        omega

theorem lineAt_le_length (s : String) (o : Nat) : lineAt (bytes s) o ≤ (lines s).length := by
  rw [← lastLine_eq]
  exact lineAt_le_lastLine _ _

theorem lineAt_eq_length (h : size s ≤ o) : lineAt (bytes s) o = (lines s).length := by
  rw [← lastLine_eq]
  exact lineAt_eq_lastLine _ h

theorem lineAt_min (s : String) (o : Nat) : lineAt (bytes s) (min o (size s)) = lineAt (bytes s) o := by
  rcases Nat.le_total o (size s) with h | h
  · rw [Nat.min_eq_left h]
  · rw [Nat.min_eq_right h, lineAt_eq_length h, lineAt_eq_length (Nat.le_refl _)]

theorem lineAt_eq_iff (s : String) (o n : Nat) : lineAt (bytes s) o = n ↔
    1 ≤ n ∧ n ≤ (lines s).length ∧ lineStart s n ≤ min o (size s) ∧
      (n = (lines s).length ∨ min o (size s) < lineStart s (n + 1)) := by
  have hle := lineAt_le_length s o
  rw [← lineAt_min]
  rw [← lineAt_min] at hle
  constructor
  · rintro rfl
    have hone := one_le_lineAt (bytes s) (min o (size s))
    refine ⟨hone, hle, (lineStart_le_iff s _ hone hle).mpr (Nat.le_refl _), ?_⟩
    by_cases hlast : lineAt (bytes s) (min o (size s)) = (lines s).length
    · exact .inl hlast
    · have hnext := lineStart_le_iff s (min o (size s)) (n := lineAt (bytes s) (min o (size s)) + 1)
        (by omega) (by omega)
      exact .inr (by omega)
  · rintro ⟨hone, hn, hstart, hnext⟩
    have hbegun := (lineStart_le_iff s _ hone hn).mp hstart
    by_cases hlast : n = (lines s).length
    · omega
    · have hafter := lineStart_le_iff s (min o (size s)) (n := n + 1) (by omega) (by omega)
      omega

theorem lineStart_succ (h : n < (lines s).length) :
    lineStart s (n + 2) = lineStart s (n + 1) + (size (lines s)[n] + 1) := by
  rw [lineStart, lineStart, Nat.add_sub_cancel, show n + 2 - 1 = n + 1 from rfl,
    List.take_succ_eq_append_getElem h, List.map_append, List.sum_append]
  simp

theorem lineStart_le_size (h : 1 ≤ n) (hn : n ≤ (lines s).length) : lineStart s n ≤ size s := by
  rw [lineStart_le_iff s _ h hn, lineAt_eq_length (Nat.le_refl _)]
  exact hn

theorem lineAt_lineStart (h : 1 ≤ n) (hn : n ≤ (lines s).length) :
    lineAt (bytes s) (lineStart s n) = n := by
  rw [lineAt_eq_iff, Nat.min_eq_left (lineStart_le_size h hn)]
  refine ⟨h, hn, Nat.le_refl _, ?_⟩
  obtain ⟨k, rfl⟩ : ∃ k, n = k + 1 := ⟨n - 1, by omega⟩
  rw [lineStart_succ (by omega)]
  omega

theorem lineStart_of_lineFeed (h : (bytes s)[p]? = some lineFeed) :
    lineStart s (lineAt (bytes s) p + 1) = p + 1 := by
  have hnext : lineAt (bytes s) (p + 1) = lineAt (bytes s) p + 1 := by
    rw [lineAt, List.take_add_one, h, List.count_append]
    rfl
  have hle := lineAt_le_length s (p + 1)
  rw [hnext] at hle
  have hat := lineStart_le_iff s p (n := lineAt (bytes s) p + 1) (by omega) hle
  have hafter := lineStart_le_iff s (p + 1) (n := lineAt (bytes s) p + 1) (by omega) hle
  omega

/-- The number of an offset is that of the line it is on, of those that the line feeds of the text part.
A line feed is on the line that it ends, later offsets are on no earlier line, and each line has one at
its start; a text behind it carries the numbers on. -/
theorem lineAt_of_lines (s : String) :
    (∀ o n, lineAt (bytes s) o = n ↔
      1 ≤ n ∧ n ≤ (lines s).length ∧ lineStart s n ≤ min o (size s) ∧
        (n = (lines s).length ∨ min o (size s) < lineStart s (n + 1))) ∧
    (∀ p, (bytes s)[p]? = some lineFeed → lineStart s (lineAt (bytes s) p + 1) = p + 1) ∧
    (∀ o p, o ≤ p → lineAt (bytes s) o ≤ lineAt (bytes s) p) ∧
    (∀ n, 1 ≤ n → n ≤ (lines s).length →
      lineStart s n ≤ size s ∧ lineAt (bytes s) (lineStart s n) = n) ∧
    ∀ after o, lineAt (bytes (s ++ after)) (size s + o) =
      lineAt (bytes s) (size s) + lineAt (bytes after) o - 1 := by
  refine ⟨lineAt_eq_iff s, fun p => lineStart_of_lineFeed, fun o p => lineAt_mono (bytes s),
    fun n h hn => ⟨lineStart_le_size h hn, lineAt_lineStart h hn⟩, ?_⟩
  intro after o
  have hwhole : lineAt (bytes s) (size s) = (bytes s).count lineFeed + 1 :=
    lineAt_eq_lastLine _ (Nat.le_refl _)
  rw [bytes_append, Nat.add_comm (size s), size, lineAt_append, ← size, hwhole]
  omega

theorem lineAt_of_lines_parted :
    let s := "ü\n\nab\n"
    lineAt (bytes s) 1 = 1 ∧ lineAt (bytes s) 100 = 4 ∧
      lineStart s (lineAt (bytes s) 3 + 1) = 4 ∧ lineAt (bytes s) 3 ≤ lineAt (bytes s) 6 ∧
      lineAt (bytes s) (lineStart s 3) = 3 ∧
      lineAt (bytes (s ++ "c\nd")) (size s + 2) = lineAt (bytes s) (size s) + 2 - 1 := by
  intro s
  obtain ⟨hiff, hend, hmono, hreached, happend⟩ := lineAt_of_lines s
  refine ⟨(hiff 1 1).mpr ?_, (hiff 100 4).mpr ?_, hend 3 ?_, hmono 3 6 ?_, (hreached 3 ?_ ?_).2, ?_⟩
  · decide +kernel
  · decide +kernel
  · decide +kernel
  · decide
  · decide
  · decide +kernel
  · exact happend "c\nd" 2

end Text

end TemplateTrace
