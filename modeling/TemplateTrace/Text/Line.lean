import TemplateTrace.Text.Bytes

namespace TemplateTrace.Text

def lineFeed : UInt8 := byte '\n'

def lineAt (b : Bytes) (offset : Nat) : Nat := (b.take offset).count lineFeed + 1

def lastLine (b : Bytes) : Nat := b.count lineFeed + 1

theorem one_le_lineAt (b : Bytes) (offset : Nat) : 1 ≤ lineAt b offset := by
  simp [lineAt]

theorem lineAt_mono (b : Bytes) {o p : Nat} (h : o ≤ p) : lineAt b o ≤ lineAt b p := by
  have hs : (b.take o).Sublist (b.take p) :=
    (List.take_prefix_take_left h).sublist
  have := hs.count_le lineFeed
  simp only [lineAt]
  omega

theorem lineAt_eq_lastLine (b : Bytes) {offset : Nat} (h : b.length ≤ offset) :
    lineAt b offset = lastLine b := by
  simp [lineAt, lastLine, List.take_of_length_le h]

theorem lineAt_le_lastLine (b : Bytes) (offset : Nat) : lineAt b offset ≤ lastLine b := by
  have := (List.take_sublist offset b).count_le lineFeed
  simp only [lineAt, lastLine]
  omega

end TemplateTrace.Text
