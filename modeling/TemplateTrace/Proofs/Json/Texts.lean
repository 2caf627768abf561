import Mathlib.Data.List.Basic
import TemplateTrace.Json.Reader
import TemplateTrace.Json.Value

namespace TemplateTrace

namespace Text

theorem bytes_eq_flatMap (s : String) : bytes s = s.toList.flatMap String.utf8EncodeChar := by
  have h : s.toByteArray = s.toList.utf8Encode := by
    rw [← String.toByteArray_ofList, String.ofList_toList]
  rw [bytes, h, List.utf8Encode]
  simp

theorem bytes_singleton (c : Char) : bytes (String.singleton c) = String.utf8EncodeChar c := by
  simp [bytes_eq_flatMap]

theorem utf8EncodeChar_ascii {c : Char} (h : c.toNat ≤ 0x7f) :
    String.utf8EncodeChar c = [byte c] := by
  rw [String.utf8EncodeChar]
  exact if_pos h

theorem bytes_ofList_ascii {l : List Char} (h : ∀ c ∈ l, c.toNat ≤ 0x7f) :
    bytes (String.ofList l) = l.map byte := by
  rw [bytes_eq_flatMap, String.toList_ofList]
  induction l with
  | nil => rfl
  | cons c rest ih =>
    rw [List.flatMap_cons, ih fun d hd => h d (List.mem_cons_of_mem _ hd),
      utf8EncodeChar_ascii (h c List.mem_cons_self)]
    rfl

theorem bytes_join (l : List String) : bytes (String.join l) = l.flatMap bytes := by
  have hfold (s : String) : bytes (l.foldl (· ++ ·) s) = bytes s ++ l.flatMap bytes := by
    induction l generalizing s with
    | nil => simp
    | cons t rest ih => rw [List.foldl_cons, ih, bytes_append, List.append_assoc, List.flatMap_cons]
  rw [String.join, hfold]
  rfl

end Text

namespace Json.Reader

open Text (bytes)

variable {α β : Type}

theorem bind_ok {x : Reader α} {s t : Bytes} {a : α} (h : x s = .ok (a, t)) (f : α → Reader β) :
    (x >>= f) s = f a t := by
  simp only [bind, StateT.bind, Except.bind, h]

theorem bind_error {x : Reader α} {s : Bytes} {e : Fault} (h : x s = .error e)
    (f : α → Reader β) : (x >>= f) s = .error e := by
  simp only [bind, StateT.bind, Except.bind, h]

theorem bind_of_same {x y : Reader α} {s t : Bytes} (h : x s = y t) (f : α → Reader β) :
    (x >>= f) s = (y >>= f) t := by
  simp only [bind, StateT.bind, Except.bind, h]

theorem next_cons (b : UInt8) (s : Bytes) : next (b :: s) = .ok (some b, s) := rfl

def IsPlain (b : UInt8) : Prop := b ≠ byte '"' ∧ b ≠ byte '\\' ∧ ¬ b < 0x20

theorem textBytes_end (steps : Nat) (soFar rest : Bytes) :
    textBytes (steps + 1) soFar (byte '"' :: rest) = .ok (soFar.reverse, rest) := by
  rw [textBytes, bind_ok (next_cons _ _)]
  rfl

theorem textBytes_plain {b : UInt8} (h : IsPlain b) (steps : Nat) (soFar rest : Bytes) :
    textBytes (steps + 1) soFar (b :: rest) = textBytes steps (b :: soFar) rest := by
  rw [textBytes, bind_ok (next_cons _ _)]
  simp only
  rw [if_neg h.1, if_neg h.2.1, if_neg h.2.2]

theorem textBytes_escape {s rest decoded : Bytes} (h : escape s = .ok (decoded, rest))
    (steps : Nat) (soFar : Bytes) :
    textBytes (steps + 1) soFar (byte '\\' :: s) =
      textBytes steps (decoded.reverse ++ soFar) rest := by
  rw [textBytes, bind_ok (next_cons _ _)]
  simp only
  rw [if_neg (by decide), if_pos trivial, bind_ok h]

theorem escape_letter {x y : UInt8} (h : plainEscape? x = some y) (rest : Bytes) :
    escape (x :: rest) = .ok ([y], rest) := by
  rw [escape, bind_ok (next_cons _ _)]
  simp only [h]
  rfl

theorem fourDigits?_control : ∀ n < 0x20, fourDigits? (byte '0') (byte '0')
    (byte (Nat.digitChar (n / 16))) (byte (Nat.digitChar (n % 16))) = some n := by
  decide

theorem escape_control {c : Char} (h : c.toNat < 0x20) (rest : Bytes) :
    escape (byte 'u' :: byte '0' :: byte '0' :: byte (Nat.digitChar (c.toNat / 16)) ::
      byte (Nat.digitChar (c.toNat % 16)) :: rest) = .ok (String.utf8EncodeChar c, rest) := by
  have hunit : unit16 (byte '0' :: byte '0' :: byte (Nat.digitChar (c.toNat / 16)) ::
      byte (Nat.digitChar (c.toNat % 16)) :: rest) = .ok (c.toNat, rest) := by
    rw [unit16, fourDigits?_control _ h]
  have hlow : isLowSurrogate c.toNat = false := by simp [isLowSurrogate]; omega
  have hhigh : isHighSurrogate c.toNat = false := by simp [isHighSurrogate]; omega
  have hchar : escapedChar (byte '0' :: byte '0' :: byte (Nat.digitChar (c.toNat / 16)) ::
      byte (Nat.digitChar (c.toNat % 16)) :: rest) = .ok (c, rest) := by
    rw [escapedChar, bind_ok hunit]
    simp only [hlow, hhigh, Bool.false_eq_true, if_false, Char.ofNat_toNat]
    rfl
  rw [escape, bind_ok (next_cons _ _)]
  simp only [show plainEscape? (byte 'u') = none by decide]
  rw [if_pos trivial, bind_ok hchar]
  rfl

theorem isPlain_of_toNat {b : UInt8} (hc : 0x20 ≤ b.toNat) (hq : b.toNat ≠ 34)
    (hb : b.toNat ≠ 92) : IsPlain b := by
  refine ⟨?_, ?_, ?_⟩
  · rintro rfl
    exact hq rfl
  · rintro rfl
    exact hb rfl
  · rw [UInt8.lt_iff_toNat_lt]
    exact Nat.not_lt.mpr hc

theorem isPlain_of_mem_utf8EncodeChar {c : Char} (hc : 0x20 ≤ c.toNat) (hq : c ≠ '"')
    (hb : c ≠ '\\') : ∀ b ∈ String.utf8EncodeChar c, IsPlain b := by
  have hq' : c.toNat ≠ 34 := fun h => hq (Char.toNat_inj.mp h)
  have hb' : c.toNat ≠ 92 := fun h => hb (Char.toNat_inj.mp h)
  change 0x20 ≤ c.val.toNat at hc
  change c.val.toNat ≠ 34 at hq'
  change c.val.toNat ≠ 92 at hb'
  intro b hmem
  rw [String.utf8EncodeChar] at hmem
  split at hmem
  · rw [List.mem_singleton.mp hmem]
    apply isPlain_of_toNat <;> rw [UInt8.toNat_ofNat'] <;> omega
  · -- every byte of a longer form is 0x80 at least
    have hlarge (x k : Nat) (h : 0x80 ≤ k) (hx : x + k < 256) : IsPlain (UInt8.ofNat (x + k)) := by
      apply isPlain_of_toNat <;> rw [UInt8.toNat_ofNat'] <;> omega
    split at hmem
    · simp only [List.mem_cons, List.not_mem_nil, or_false] at hmem
      rcases hmem with rfl | rfl <;> exact hlarge _ _ (by omega) (by omega)
    · split at hmem
      · simp only [List.mem_cons, List.not_mem_nil, or_false] at hmem
        rcases hmem with rfl | rfl | rfl <;> exact hlarge _ _ (by omega) (by omega)
      · simp only [List.mem_cons, List.not_mem_nil, or_false] at hmem
        rcases hmem with rfl | rfl | rfl | rfl <;> exact hlarge _ _ (by omega) (by omega)

theorem textBytes_plains {l : Bytes} (h : ∀ b ∈ l, IsPlain b) (steps : Nat) (soFar rest : Bytes) :
    textBytes (steps + l.length) soFar (l ++ rest) = textBytes steps (l.reverse ++ soFar) rest := by
  induction l generalizing soFar with
  | nil => rfl
  | cons b l ih =>
    have hl := ih (fun c hc => h c (List.mem_cons_of_mem _ hc)) (b :: soFar)
    rw [List.length_cons, ← Nat.add_assoc, List.cons_append,
      textBytes_plain (h b List.mem_cons_self), hl]
    simp

theorem textBytes_quotedChar (c : Char) (steps : Nat) (soFar rest : Bytes) :
    ∃ more, textBytes (steps + (bytes (quotedChar c)).length) soFar
        (bytes (quotedChar c) ++ rest) =
      textBytes (steps + more) ((String.utf8EncodeChar c).reverse ++ soFar) rest := by
  have hletter (x y : UInt8) (h : plainEscape? x = some y) (text : Bytes)
      (htext : text = [byte '\\', x]) (hc : String.utf8EncodeChar c = [y]) :
      ∃ more, textBytes (steps + text.length) soFar (text ++ rest) =
        textBytes (steps + more) ((String.utf8EncodeChar c).reverse ++ soFar) rest := by
    subst htext
    rw [hc]
    exact ⟨1, textBytes_escape (escape_letter h rest) (steps + 1) soFar⟩
  generalize htext : quotedChar c = text
  unfold quotedChar at htext
  split at htext <;> subst htext
  · exact hletter (byte '"') (byte '"') (by decide) _ (by decide) (by decide)
  · exact hletter (byte '\\') (byte '\\') (by decide) _ (by decide) (by decide)
  · exact hletter (byte 'b') 0x08 (by decide) _ (by decide) (by decide)
  · exact hletter (byte 'f') 0x0C (by decide) _ (by decide) (by decide)
  · exact hletter (byte 'n') 0x0A (by decide) _ (by decide) (by decide)
  · exact hletter (byte 'r') 0x0D (by decide) _ (by decide) (by decide)
  · exact hletter (byte 't') 0x09 (by decide) _ (by decide) (by decide)
  · rename_i hq hb _ _ _ _ _
    split
    · rename_i hcontrol
      have hdigit : ∀ n < 16, (Nat.digitChar n).toNat ≤ 0x7f := by decide
      have hdigits : bytes (String.ofList [Nat.digitChar (c.toNat / 16),
          Nat.digitChar (c.toNat % 16)]) =
          [byte (Nat.digitChar (c.toNat / 16)), byte (Nat.digitChar (c.toNat % 16))] := by
        apply Text.bytes_ofList_ascii
        simp only [List.mem_cons, List.not_mem_nil, or_false]
        rintro d (rfl | rfl) <;> exact hdigit _ (by omega)
      rw [Text.bytes_append, hdigits]
      exact ⟨5, textBytes_escape (escape_control hcontrol rest) (steps + 5) soFar⟩
    · rename_i hcontrol
      rw [Text.bytes_singleton]
      have hplain := isPlain_of_mem_utf8EncodeChar (Nat.not_lt.mp hcontrol) hq hb
      exact ⟨0, textBytes_plains hplain steps soFar rest⟩

theorem textBytes_quotedChars (l : List Char) (steps : Nat) (soFar rest : Bytes) :
    ∃ more, textBytes (steps + (l.flatMap fun c => bytes (quotedChar c)).length) soFar
        ((l.flatMap fun c => bytes (quotedChar c)) ++ rest) =
      textBytes (steps + more) ((l.flatMap String.utf8EncodeChar).reverse ++ soFar) rest := by
  induction l generalizing steps soFar with
  | nil => exact ⟨0, rfl⟩
  | cons c l ih =>
    rw [List.flatMap_cons, List.length_append, List.append_assoc,
      Nat.add_comm (bytes (quotedChar c)).length, ← Nat.add_assoc]
    obtain ⟨more, hc⟩ := textBytes_quotedChar c
      (steps + (l.flatMap fun c => bytes (quotedChar c)).length) soFar
      ((l.flatMap fun c => bytes (quotedChar c)) ++ rest)
    obtain ⟨others, hl⟩ := ih (steps + more) ((String.utf8EncodeChar c).reverse ++ soFar)
    rw [hc, Nat.add_right_comm, hl]
    exact ⟨more + others, by simp [Nat.add_assoc]⟩

def body (s : String) : Bytes := bytes (String.join (s.toList.map quotedChar))

theorem bytes_quoted (s : String) : bytes (quoted s) = byte '"' :: (body s ++ [byte '"']) := by
  rw [quoted, Text.bytes_append, Text.bytes_append]
  rfl

theorem body_eq (s : String) : body s = s.toList.flatMap fun c => bytes (quotedChar c) := by
  rw [body, Text.bytes_join, List.flatMap_map]

theorem textBody_body (s : String) (rest : Bytes) :
    textBody (body s ++ byte '"' :: rest) = .ok (s, rest) := by
  obtain ⟨more, h⟩ := textBytes_quotedChars s.toList (rest.length + 2) [] (byte '"' :: rest)
  have hend : textBytes (rest.length + 2 + more) (bytes s).reverse (byte '"' :: rest) =
      .ok (bytes s, rest) := by
    rw [show rest.length + 2 + more = rest.length + 1 + more + 1 by omega, textBytes_end,
      List.reverse_reverse]
  rw [← body_eq, List.append_nil, ← Text.bytes_eq_flatMap, hend] at h
  have hsteps : (body s ++ byte '"' :: rest).length + 1 = rest.length + 2 + (body s).length := by
    simp
    omega
  rw [textBody, hsteps, h]
  simp only [bind, Except.bind, Text.ofBytes?_bytes]
  rfl

end Json.Reader

end TemplateTrace
