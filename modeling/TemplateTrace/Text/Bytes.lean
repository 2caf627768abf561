
namespace TemplateTrace

abbrev Bytes := List UInt8

def byte (c : Char) : UInt8 := c.toNat.toUInt8

namespace Text

def bytes (s : String) : Bytes := s.toByteArray.data.toList

def ofBytes? (b : Bytes) : Option String := String.fromUTF8? b.toByteArray

def size (s : String) : Nat := (bytes s).length

theorem bytes_append (s t : String) : bytes (s ++ t) = bytes s ++ bytes t := by
  simp [bytes]

theorem toByteArray_bytes (s : String) : (bytes s).toByteArray = s.toByteArray := by
  apply ByteArray.ext
  simp [bytes]

theorem ofBytes?_bytes (s : String) : ofBytes? (bytes s) = some s := by
  rw [ofBytes?, toByteArray_bytes]
  unfold String.fromUTF8?
  rw [dif_pos s.isValidUTF8]
  rfl

theorem bytes_of_ofBytes? {b : Bytes} {s : String} (h : ofBytes? b = some s) : bytes s = b := by
  unfold ofBytes? String.fromUTF8? at h
  split at h
  · cases h
    simp [bytes, String.fromUTF8]
  · cases h

theorem ofBytes?_eq_none_iff {b : Bytes} : ofBytes? b = none ↔ ¬ ∃ s, b = bytes s := by
  constructor
  · rintro h ⟨s, rfl⟩
    rw [ofBytes?_bytes] at h
    cases h
  · intro h
    rcases hb : ofBytes? b with _ | s
    · rfl
    · exact absurd ⟨s, (bytes_of_ofBytes? hb).symm⟩ h

def isTrail (b : UInt8) : Bool := 0x80 ≤ b && b ≤ 0xBF

def beginsThree (a b : UInt8) : Bool :=
  (a == 0xE0 && 0xA0 ≤ b && b ≤ 0xBF) || (a == 0xED && 0x80 ≤ b && b ≤ 0x9F) ||
    (0xE1 ≤ a && a ≤ 0xEF && a != 0xED && isTrail b)

def beginsFour (a b : UInt8) : Bool :=
  (a == 0xF0 && 0x90 ≤ b && b ≤ 0xBF) || (a == 0xF4 && 0x80 ≤ b && b ≤ 0x8F) ||
    (0xF1 ≤ a && a ≤ 0xF3 && isTrail b)

def charLength? : Bytes → Option Nat
  | [] => none
  | a :: rest =>
    if a < 0x80 then some 1
    else match rest with
      | [] => none
      | b :: rest =>
        if 0xC2 ≤ a && a ≤ 0xDF && isTrail b then some 2
        else match rest with
          | [] => none
          | c :: rest =>
            if beginsThree a b && isTrail c then some 3
            else match rest with
              | [] => none
              | d :: _ => if beginsFour a b && isTrail c && isTrail d then some 4 else none

def wellFormedWithin : Nat → Bytes → Nat
  | 0, _ => 0
  | steps + 1, b =>
    match charLength? b with
    | none => 0
    | some n => n + wellFormedWithin steps (b.drop n)

def wellFormedLength (b : Bytes) : Nat := wellFormedWithin b.length b

/-- How many bytes at the start, which begin no character, are the longest start of one. -/
def brokenLength : Bytes → Nat
  | a :: b :: c :: _ =>
    if beginsThree a b then 2
    else if beginsFour a b then if isTrail c then 3 else 2
    else 1
  | [a, b] => if beginsThree a b || beginsFour a b then 2 else 1
  | _ => 1

def repairedWithin : Nat → Bytes → List Char
  | 0, _ => []
  | _, [] => []
  | steps + 1, b =>
    match charLength? b with
    | some n => ((ofBytes? (b.take n)).getD "").toList ++ repairedWithin steps (b.drop n)
    | none => '\ufffd' :: repairedWithin steps (b.drop (brokenLength b))

def ofBytesRepaired (b : Bytes) : String :=
  match ofBytes? b with
  | some s => s
  | none => String.ofList (repairedWithin b.length b)

def dropMark (s : String) : String :=
  match s.toList with
  | '\ufeff' :: rest => String.ofList rest
  | _ => s

end Text

end TemplateTrace
