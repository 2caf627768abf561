import TemplateTrace.Proofs.Json.Shapes

namespace TemplateTrace.Json

open Reader
open Text (bytes)

variable {α : Type}

theorem bytes_comma : bytes "," = [byte ','] := by decide

theorem bytes_colon : bytes ":" = [byte ':'] := by decide

theorem bytes_of_parts {write : List α → String} {pad : String} {part : α → String}
    (hnil : write [] = "") (hone : ∀ a, write [a] = pad ++ part a)
    (hmore : ∀ a b rest, write (a :: b :: rest) = pad ++ part a ++ "," ++ write (b :: rest))
    (l : List α) : bytes (write l) = joined (bytes pad) true (l.map fun a => bytes (part a)) := by
  induction l with
  | nil =>
    rw [hnil]
    rfl
  | cons a rest ih =>
    cases rest with
    | nil =>
      rw [hone, Text.bytes_append]
      simp [joined]
    | cons b rest =>
      rw [hmore, Text.bytes_append, Text.bytes_append, Text.bytes_append, ih, bytes_comma]
      simp [joined]

theorem bytes_compactItems (l : List Value) :
    bytes (Value.compactItems l) = joined [] true (l.map fun v => bytes v.compact) := by
  refine @bytes_of_parts _ Value.compactItems "" Value.compact rfl ?_ ?_ l
  · intro v
    simp [Value.compactItems]
  · intro v w rest
    simp [Value.compactItems]

def writtenMember (m : String × Value) : Bytes := memberText (body m.1) (bytes m.2.compact)

theorem bytes_member (k : String) (v : Value) :
    bytes (quoted k ++ ":" ++ v.compact) = byte '"' :: writtenMember (k, v) := by
  rw [Text.bytes_append, Text.bytes_append, bytes_quoted, bytes_colon, writtenMember, memberText]
  simp

theorem bytes_compactMembers (l : List (String × Value)) :
    bytes (Value.compactMembers l) = membersText [] true (l.map writtenMember) := by
  have hparts := @bytes_of_parts _ Value.compactMembers ""
    (fun m => quoted m.1 ++ ":" ++ m.2.compact) rfl (by simp [Value.compactMembers])
    (by simp [Value.compactMembers, String.append_assoc]) l
  rw [hparts, membersText, List.map_map]
  congr 1
  exact List.map_congr_left fun m _ => bytes_member m.1 m.2

theorem bytes_list (l : List Value) :
    bytes (Value.list l).compact = listText .none (l.map fun v => bytes v.compact) := by
  rw [Value.compact, Text.bytes_append, Text.bytes_append, bytes_compactItems]
  rfl

theorem bytes_object (l : List (String × Value)) :
    bytes (Value.object l).compact = objectText (l.map writtenMember) := by
  rw [Value.compact, Text.bytes_append, Text.bytes_append, bytes_compactMembers]
  rfl

theorem bytes_newLine (level : Nat) :
    bytes (Value.newLine level) = byte '\n' :: List.replicate (2 * level) (byte ' ') := by
  have hblanks : ∀ c ∈ List.replicate (2 * level) ' ', c.toNat ≤ 0x7f := by
    intro c hc
    rw [List.eq_of_mem_replicate hc]
    decide
  rw [Value.newLine, Text.bytes_append, Text.bytes_ofList_ascii hblanks, List.map_replicate]
  rfl

theorem blank_newLine (level : Nat) : Blank (bytes (Value.newLine level)) := by
  rw [bytes_newLine]
  intro b hb
  rcases List.mem_cons.mp hb with rfl | hb
  · decide
  · rw [List.eq_of_mem_replicate hb]
    decide

def Reader.Spacing.lines (level : Nat) : Spacing where
  part := bytes (Value.newLine (level + 1))
  close := bytes (Value.newLine level)
  blank_part := blank_newLine (level + 1)
  blank_close := blank_newLine level

def prettyMember (level : Nat) (m : String × Value) : Bytes :=
  memberText (body m.1) ([byte ' '] ++ bytes (m.2.prettyAt level))

theorem bytes_prettyMember (level : Nat) (k : String) (v : Value) :
    bytes (quoted k ++ ": " ++ v.prettyAt level) = byte '"' :: prettyMember level (k, v) := by
  have hcolon : bytes ": " = [byte ':', byte ' '] := by decide
  rw [Text.bytes_append, Text.bytes_append, bytes_quoted, hcolon, prettyMember, memberText]
  simp

theorem bytes_prettyItems (level : Nat) (l : List Value) :
    bytes (Value.prettyItems level l) =
      joined (bytes (Value.newLine level)) true (l.map fun v => bytes (v.prettyAt level)) := by
  apply bytes_of_parts
  · rfl
  · intro v
    rfl
  · intro v w rest
    rfl

theorem bytes_prettyMembers (level : Nat) (l : List (String × Value)) :
    bytes (Value.prettyMembers level l) =
      membersText (bytes (Value.newLine level)) true (l.map (prettyMember level)) := by
  have hparts := @bytes_of_parts _ (Value.prettyMembers level) (Value.newLine level)
    (fun m => quoted m.1 ++ ": " ++ m.2.prettyAt level) rfl
    (by simp [Value.prettyMembers, String.append_assoc])
    (by simp [Value.prettyMembers, String.append_assoc]) l
  rw [hparts, membersText, List.map_map]
  congr 1
  exact List.map_congr_left fun m _ => bytes_prettyMember level m.1 m.2

theorem bytes_prettyList {l : List Value} (h : l ≠ []) (level : Nat) :
    bytes ((Value.list l).prettyAt level) =
      listText (.lines level) (l.map fun v => bytes (v.prettyAt (level + 1))) := by
  obtain ⟨v, rest, rfl⟩ := List.exists_cons_of_ne_nil h
  rw [Value.prettyAt, Text.bytes_append, Text.bytes_append, Text.bytes_append, bytes_prettyItems,
    List.append_assoc, List.append_assoc]
  · rfl
  · nofun

theorem bytes_prettyObject {l : List (String × Value)} (h : l ≠ []) (level : Nat) :
    bytes ((Value.object l).prettyAt level) =
      spacedObject (.lines level) (l.map (prettyMember (level + 1))) := by
  obtain ⟨m, rest, rfl⟩ := List.exists_cons_of_ne_nil h
  rw [Value.prettyAt, Text.bytes_append, Text.bytes_append, Text.bytes_append, bytes_prettyMembers,
    List.append_assoc, List.append_assoc]
  · rfl
  · nofun

theorem quotedChar_of_isDigit {c : Char} (h : c.isDigit = true) :
    quotedChar c = String.singleton c := by
  have hb := digit_bounds h
  unfold quotedChar
  split
  case h_8 => rw [if_neg (by omega)]
  all_goals exact absurd h (by decide)

theorem body_toString (n : Nat) : body (toString n) = bytes (toString n) := by
  have hlist : (toString n).toList = Nat.toDigits 10 n := Nat.toList_repr
  rw [body_eq, Text.bytes_eq_flatMap, hlist]
  apply List.flatMap_congr
  intro c hc
  rw [quotedChar_of_isDigit (isDigit_of_mem_digits hc), Text.bytes_singleton]

end TemplateTrace.Json
