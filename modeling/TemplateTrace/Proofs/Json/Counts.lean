import TemplateTrace.Json.Shape
import TemplateTrace.Proofs.Json.Texts

namespace TemplateTrace.Json.Reader

open Text (bytes)

/-- What may follow a number: nothing that would continue a numeral. -/
def Stops (rest : Bytes) : Prop :=
  ∀ b, rest.head? = some b → isDigit b = false ∧ b ≠ byte '.' ∧ isExponentMark (some b) = false

theorem peek_apply (s : Bytes) : peek s = .ok (s.head?, s) := rfl

theorem skip_cons (b : UInt8) (s : Bytes) : skip (b :: s) = .ok ((), s) := rfl

theorem peekToken_cons {b : UInt8} (h : isBlank b = false) (s : Bytes) :
    peekToken (b :: s) = .ok (some b, b :: s) := by
  simp [peekToken, h]

theorem startOfValue_cons {b : UInt8} (h : isBlank b = false) (s : Bytes) :
    startOfValue (b :: s) = .ok (b, b :: s) := by
  rw [startOfValue, bind_ok (peekToken_cons h s)]
  rfl

theorem digit_bounds {c : Char} (h : c.isDigit = true) : 48 ≤ c.toNat ∧ c.toNat ≤ 57 := by
  simpa [Char.isDigit, UInt32.le_iff_toNat_le] using h

theorem toNat_byte_digit {c : Char} (h : c.isDigit = true) : (byte c).toNat = c.toNat := by
  have := digit_bounds h
  change (UInt8.ofNat c.toNat).toNat = c.toNat
  rw [UInt8.toNat_ofNat']
  omega

theorem isDigit_byte {c : Char} (h : c.isDigit = true) : isDigit (byte c) = true := by
  have hb := digit_bounds h
  have hn := toNat_byte_digit h
  have h0 : (byte '0').toNat = 48 := rfl
  have h9 : (byte '9').toNat = 57 := rfl
  simp only [isDigit, Bool.and_eq_true, decide_eq_true_eq, UInt8.le_iff_toNat_le]
  omega

theorem digitValue_byte {c : Char} (h : c.isDigit = true) :
    digitValue (byte c) = c.toNat - '0'.toNat := by
  rw [digitValue, toNat_byte_digit h]

theorem isDigit_of_mem_digits {n : Nat} {c : Char} (h : c ∈ Nat.toDigits 10 n) :
    c.isDigit = true := Nat.isDigit_of_mem_toDigits (by omega) (by omega) h

theorem bytes_toString (n : Nat) : bytes (toString n) = (Nat.toDigits 10 n).map byte := by
  have htext : toString n = String.ofList (Nat.toDigits 10 n) := rfl
  rw [htext]
  apply Text.bytes_ofList_ascii
  intro c hc
  have := digit_bounds (isDigit_of_mem_digits hc)
  omega

theorem head_digits_ne_zero {n : Nat} (hn : 0 < n) (rest : List Char) :
    Nat.toDigits 10 n ≠ '0' :: rest := by
  induction n using Nat.strongRecOn generalizing rest with
  | ind n ih =>
    by_cases h : n < 10
    · rw [Nat.toDigits_of_lt_base h]
      intro he
      have := Nat.digitChar_eq_zero.mp (List.cons.inj he).1
      omega
    · rw [Nat.toDigits_of_base_le (by omega) (by omega)]
      intro he
      obtain ⟨c, more, hc⟩ := List.exists_cons_of_ne_nil (@Nat.toDigits_ne_nil (n / 10) 10)
      rw [hc, List.cons_append] at he
      refine ih (n / 10) (by omega) (by omega) more ?_
      rw [hc, (List.cons.inj he).1]

theorem digits_append {ds rest : Bytes} (hd : ∀ b ∈ ds, isDigit b = true) (hs : Stops rest) :
    digits (ds ++ rest) = .ok (ds, rest) := by
  have htake : rest.takeWhile isDigit = [] := by
    cases rest with
    | nil => rfl
    | cons b rest => simp [(hs b rfl).1]
  have hdrop : rest.dropWhile isDigit = rest := by
    cases rest with
    | nil => rfl
    | cons b rest => simp [(hs b rfl).1]
  rw [digits, List.takeWhile_append_of_pos hd, List.dropWhile_append_of_pos hd, htake, hdrop,
    List.append_nil]

theorem le_ofDigitChars (l : List Char) (k : Nat) : k ≤ Nat.ofDigitChars 10 l k := by
  induction l generalizing k with
  | nil => simp
  | cons c rest ih =>
    rw [Nat.ofDigitChars_cons]
    have := ih (10 * k + (c.toNat - '0'.toNat))
    omega

theorem significand_digits {l : List Char} (hd : ∀ c ∈ l, c.isDigit = true) (k : Nat)
    (h : Nat.ofDigitChars 10 l k ≤ maxCount) :
    significand k (l.map byte) = (Nat.ofDigitChars 10 l k, l.length) := by
  induction l generalizing k with
  | nil => simp [significand]
  | cons c rest ih =>
    rw [Nat.ofDigitChars_cons] at h ⊢
    have hvalue : k * 10 + digitValue (byte c) = 10 * k + (c.toNat - '0'.toNat) := by
      rw [digitValue_byte (hd c List.mem_cons_self)]
      omega
    have hle := Nat.le_trans (le_ofDigitChars rest _) h
    have hrest := ih (fun d hd' => hd d (List.mem_cons_of_mem _ hd')) _ h
    simp only [List.map_cons, significand, hvalue, hrest, List.length_cons]
    rw [if_neg (Nat.not_lt.mpr hle)]

theorem wholeDigits_digits (n : Nat) {rest : Bytes} (hs : Stops rest) :
    wholeDigits ((Nat.toDigits 10 n).map byte ++ rest) =
      .ok ((Nat.toDigits 10 n).map byte, rest) := by
  obtain ⟨c, more, hc⟩ := List.exists_cons_of_ne_nil (@Nat.toDigits_ne_nil n 10)
  have hd : ∀ d ∈ c :: more, d.isDigit = true := fun d hd => isDigit_of_mem_digits (hc ▸ hd)
  have hdigit := isDigit_byte (hd c List.mem_cons_self)
  rw [hc, List.map_cons, List.cons_append, wholeDigits, bind_ok (next_cons _ _)]
  simp only
  split
  · rename_i hzero
    -- a numeral that begins with a zero is that of zero
    have hn : n = 0 := by
      by_contra hn
      apply head_digits_ne_zero (Nat.pos_of_ne_zero hn) more
      rw [hc]
      have hval := congrArg UInt8.toNat hzero
      rw [toNat_byte_digit (hd c List.mem_cons_self), toNat_byte_digit (by decide)] at hval
      rw [Char.toNat_inj.mp hval]
    subst hn
    rw [Nat.toDigits_zero] at hc
    obtain ⟨rfl, rfl⟩ := List.cons.inj hc
    rw [List.map_nil, List.nil_append, bind_ok (peek_apply rest)]
    cases hr : rest.head? with
    | none => rfl
    | some b =>
      simp only [(hs b hr).1]
      rfl
  · have hmore : ∀ b ∈ more.map byte, isDigit b = true := by
      intro b hb
      obtain ⟨d, hdm, rfl⟩ := List.mem_map.mp hb
      exact isDigit_byte (hd d (List.mem_cons_of_mem _ hdm))
    rw [bind_ok (digits_append hmore hs)]
    rfl

theorem numeral_digits {n : Nat} (hn : n ≤ maxCount) {rest : Bytes} (hs : Stops rest) :
    numeral false ((Nat.toDigits 10 n).map byte ++ rest) = .ok (.whole n, rest) := by
  have hvalue : Nat.ofDigitChars 10 (Nat.toDigits 10 n) 0 = n := Nat.ofDigitChars_ten_toDigits
  have hsig := significand_digits (fun c hc => isDigit_of_mem_digits hc) 0 (hvalue.symm ▸ hn)
  rw [numeral, bind_ok (wholeDigits_digits n hs)]
  simp only [hsig, hvalue]
  rw [bind_ok (peek_apply rest), if_neg, if_neg (by simp)]
  · rfl
  · rw [List.length_map]
    rintro (hlt | hdot | hmark)
    · exact Nat.lt_irrefl _ hlt
    · exact (hs _ hdot).2.1 rfl
    · cases hr : rest.head? with
      | none => rw [hr] at hmark; exact absurd hmark (by decide)
      | some b => rw [hr, (hs b hr).2.2] at hmark; exact absurd hmark (by decide)

theorem isBlank_of_isDigit {b : UInt8} (h : isDigit b = true) : isBlank b = false := by
  simp only [isDigit, Bool.and_eq_true, decide_eq_true_eq, UInt8.le_iff_toNat_le] at h
  have h0 : (byte '0').toNat = 48 := rfl
  have hne (c : Char) (hc : (byte c).toNat < 48) : b ≠ byte c := by
    rintro rfl
    omega
  simp only [isBlank, Bool.or_eq_false_iff, beq_eq_false_iff_ne]
  exact ⟨⟨⟨hne _ (by decide), hne _ (by decide)⟩, hne _ (by decide)⟩, hne _ (by decide)⟩

theorem whole_digits {n bound : Nat} (wanted : Wanted) (hn : n ≤ bound) (hb : bound ≤ maxCount)
    {rest : Bytes} (hs : Stops rest) :
    whole wanted bound (bytes (toString n) ++ rest) = .ok (n, rest) := by
  have hnumeral := numeral_digits (Nat.le_trans hn hb) hs
  obtain ⟨c, more, hc⟩ := List.exists_cons_of_ne_nil (@Nat.toDigits_ne_nil n 10)
  have hdigit : isDigit (byte c) = true :=
    isDigit_byte (isDigit_of_mem_digits (hc ▸ List.mem_cons_self))
  have hminus : byte c ≠ byte '-' := by
    intro h
    rw [h] at hdigit
    exact absurd hdigit (by decide)
  rw [bytes_toString]
  rw [hc, List.map_cons, List.cons_append] at hnumeral ⊢
  rw [whole, bind_ok (startOfValue_cons (isBlank_of_isDigit hdigit) _), if_pos (.inr hdigit)]
  simp only [hminus, if_false, decide_false]
  rw [bind_ok hnumeral]
  simp only [hn, if_true]
  rfl

end TemplateTrace.Json.Reader
