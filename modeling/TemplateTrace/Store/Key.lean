import TemplateTrace.Text.Bytes

/-!
File names of keys: two lower-case hexadecimal digits for each byte of a key, so that any text can
be a key. Reading a name back also takes upper-case digits, and a plus sign before a single one.
Main statement: every key is read back from its name.
-/

namespace TemplateTrace.Key

def encodeByte (b : UInt8) : List Char :=
  [Nat.digitChar (b.toNat / 16), Nat.digitChar (b.toNat % 16)]

def encode (key : String) : String := String.ofList ((Text.bytes key).flatMap encodeByte)

def digit? (c : Char) : Option Nat :=
  if '0' ≤ c ∧ c ≤ '9' then some (c.toNat - '0'.toNat)
  else if 'a' ≤ c ∧ c ≤ 'f' then some (c.toNat - 'a'.toNat + 10)
  else if 'A' ≤ c ∧ c ≤ 'F' then some (c.toNat - 'A'.toNat + 10)
  else none

def byte? (a b : Char) : Option UInt8 :=
  match digit? b with
  | none => none
  | some low =>
    if a = '+' then some low.toUInt8
    else (digit? a).map fun high => (high * 16 + low).toUInt8

def bytes? : List Char → Option Bytes
  | [] => some []
  | [_] => none
  | a :: b :: rest => do return (← byte? a b) :: (← bytes? rest)

def decode? (name : String) : Option String := (bytes? name.toList).bind Text.ofBytes?

theorem byte?_encodeByte (b : UInt8) :
    byte? (Nat.digitChar (b.toNat / 16)) (Nat.digitChar (b.toNat % 16)) = some b := by
  have h : ∀ n : Fin 256, byte? (Nat.digitChar (n.val / 16)) (Nat.digitChar (n.val % 16)) =
      some n.val.toUInt8 := by decide +kernel
  have := h ⟨b.toNat, b.toNat_lt⟩
  simpa using this

theorem bytes?_flatMap_encodeByte (b : Bytes) : bytes? (b.flatMap encodeByte) = some b := by
  induction b with
  | nil => rfl
  | cons a rest ih => simp [encodeByte, bytes?, byte?_encodeByte, ih]

theorem decode?_encode (key : String) : decode? (encode key) = some key := by
  simp [decode?, encode, bytes?_flatMap_encodeByte, Text.ofBytes?_bytes]

end TemplateTrace.Key
