import TemplateTrace.Proofs.Numerals
import TemplateTrace.Proofs.Store.Listing

namespace TemplateTrace

namespace Text

variable {s t : String} {i j : Nat}

def isBoundary (s : String) (i : Nat) : Bool := (⟨i⟩ : String.Pos.Raw).isValid s

/-- What stands from one byte position up to another, if the text can be cut at both. -/
def slice? (s : String) (i j : Nat) : Option String :=
  if i ≤ j ∧ isBoundary s i ∧ isBoundary s j then ofBytes? (((bytes s).drop i).take (j - i)) else none

theorem eq_of_bytes_eq (h : bytes s = bytes t) : s = t := by
  have hsome := ofBytes?_bytes s
  rw [h, ofBytes?_bytes] at hsome
  exact (Option.some.inj hsome).symm

theorem size_append (s t : String) : size (s ++ t) = size s + size t := by
  rw [size, bytes_append, List.length_append, size, size]

theorem isBoundary_iff : isBoundary s i = true ↔ ∃ before after, s = before ++ after ∧ size before = i := by
  rw [isBoundary, String.Pos.Raw.isValid_eq_true_iff, String.Pos.Raw.isValid_iff_exists_append]
  refine exists_congr fun before => exists_congr fun after => and_congr_right fun _ => ?_
  rw [String.Pos.Raw.ext_iff]
  exact eq_comm

theorem bytes_take {before after : String} : (bytes (before ++ after)).take (size before) = bytes before := by
  rw [bytes_append, size, List.take_left]

theorem slice?_eq_some_iff : slice? s i j = some t ↔
    ∃ before after, s = before ++ t ++ after ∧ size before = i ∧ size (before ++ t) = j := by
  rw [slice?]
  constructor
  · intro h
    split at h
    · rename_i hcut
      obtain ⟨hle, hi, hj⟩ := hcut
      obtain ⟨before, _, hbefore, rfl⟩ := isBoundary_iff.mp hi
      obtain ⟨upTo, after, hupTo, rfl⟩ := isBoundary_iff.mp hj
      have hwhole : before ++ t = upTo := by
        apply eq_of_bytes_eq
        calc bytes (before ++ t)
            = (bytes s).take (size before) ++ ((bytes s).drop (size before)).take (size upTo - size before) := by
              rw [bytes_append, bytes_of_ofBytes? h, hbefore, bytes_take]
          _ = (bytes s).take (size upTo) := by
              rw [← List.take_add, Nat.add_sub_cancel' hle]
          _ = bytes upTo := by
              rw [hupTo, bytes_take]
      exact ⟨before, after, by rw [hwhole, hupTo], rfl, by rw [hwhole]⟩
    · cases h
  · rintro ⟨before, after, rfl, rfl, rfl⟩
    have hi : isBoundary (before ++ t ++ after) (size before) = true :=
      isBoundary_iff.mpr ⟨before, t ++ after, String.append_assoc .., rfl⟩
    have hj : isBoundary (before ++ t ++ after) (size (before ++ t)) = true :=
      isBoundary_iff.mpr ⟨before ++ t, after, rfl, rfl⟩
    rw [if_pos ⟨by rw [size_append]; omega, hi, hj⟩, size_append, Nat.add_sub_cancel_left, bytes_append, bytes_append,
      List.append_assoc, size, size, List.drop_left, List.take_left, ofBytes?_bytes]

theorem exists_of_append_eq {a b c d : String} (h : a ++ b = c ++ d) (hle : size a ≤ size c) :
    ∃ m, c = a ++ m ∧ b = m ++ d := by
  have hchars := congrArg String.toList h
  rw [String.toList_append, String.toList_append, List.append_eq_append_iff] at hchars
  rcases hchars with ⟨m, hc, hb⟩ | ⟨m, ha, hd⟩
  · refine ⟨String.ofList m, ?_, ?_⟩ <;> apply String.toList_inj.mp <;> simpa
  · have hsum : a = c ++ String.ofList m := String.toList_inj.mp (by simpa)
    have hnone : size (String.ofList m) = 0 := by
      rw [hsum, size_append] at hle
      omega
    obtain rfl : m = [] := by
      rw [← String.toList_ofList (l := m), eq_of_bytes_eq (t := "") (List.eq_nil_of_length_eq_zero hnone)]
      rfl
    refine ⟨"", ?_, ?_⟩ <;> apply String.toList_inj.mp <;> simp_all

theorem slice?_append (before s : String) (i j : Nat) :
    slice? (before ++ s) (size before + i) (size before + j) = slice? s i j := by
  apply Option.ext
  intro t
  rw [slice?_eq_some_iff, slice?_eq_some_iff]
  constructor
  · rintro ⟨upTo, after, hs, hi, hj⟩
    rw [String.append_assoc] at hs
    obtain ⟨m, rfl, rfl⟩ := exists_of_append_eq hs (by omega)
    refine ⟨m, after, (String.append_assoc ..).symm, ?_, ?_⟩
    · rw [size_append] at hi
      omega
    · rw [String.append_assoc, size_append] at hj
      omega
  · rintro ⟨upTo, after, rfl, rfl, rfl⟩
    refine ⟨before ++ upTo, after, by simp only [String.append_assoc], ?_, ?_⟩
    · rw [size_append]
    · rw [String.append_assoc, size_append]

end Text

namespace Key

def number? (s : String) : Option UInt8 :=
  let digits := match s.toList with
    | '+' :: rest => rest
    | all => all
  ((Digits.natural? 16 digits).filter (· < 256)).map Nat.toUInt8

def slices? (name : String) : Option Bytes :=
  (List.range (Text.size name / 2)).mapM fun i => (Text.slice? name (2 * i) (2 * i + 2)).bind number?

def decodeSlices? (name : String) : Option String :=
  if Text.size name % 2 = 0 then (slices? name).bind Text.ofBytes? else none

variable {a b c : Char}

theorem digit?_eq (c : Char) : digit? c = Digits.value? 16 c := by
  have hlower : c.isLower = (decide ('a'.val ≤ c.val) && decide (c.val ≤ 'z'.val)) := rfl
  have hupper : c.isUpper = decide ('A'.val ≤ c.val ∧ c.val ≤ 'Z'.val) := rfl
  simp only [digit?, Digits.value?, Char.isDigit, hlower, hupper, Char.le_def, ge_iff_le,
    UInt32.le_iff_toNat_le, Char.toNat, Bool.and_eq_true, decide_eq_true_eq, Option.filter]
  simp only [Char.reduceVal, UInt32.reduceToNat]
  split_ifs <;> grind

theorem number?_pair (a b : Char) : number? (String.ofList [a, b]) = byte? a b := by
  rw [byte?, digit?_eq, digit?_eq, number?, String.toList_ofList]
  by_cases hplus : a = '+'
  · subst hplus
    rcases hb : Digits.value? 16 b with _ | low
    · simp [Digits.natural?, hb]
    · have hlow := Digits.lt_of_value? hb
      simp [Digits.natural?, hb, Option.filter, Nat.lt_trans hlow]
  · have hdigits : (match [a, b] with
        | '+' :: rest => rest
        | all => all) = [a, b] := by
      split
      · rename_i h
        exact absurd (List.cons.inj h).1 hplus
      · rfl
    rw [hdigits]
    rcases ha : Digits.value? 16 a with _ | high <;> rcases hb : Digits.value? 16 b with _ | low <;>
      simp [Digits.natural?, ha, hb, hplus]
    have hhigh := Digits.lt_of_value? ha
    have hlow := Digits.lt_of_value? hb
    omega

theorem ascii_of_digit? {d : Nat} (h : digit? c = some d) : c.toNat ≤ 0x7f :=
  Nat.le_of_lt_succ (lt_of_digit? h)

theorem ascii_of_byte? {n : UInt8} (h : byte? a b = some n) : a.toNat ≤ 0x7f ∧ b.toNat ≤ 0x7f := by
  rw [byte?] at h
  split at h
  · cases h
  · rename_i low hlow
    refine ⟨?_, ascii_of_digit? hlow⟩
    split at h
    · rename_i hplus
      rw [hplus]
      decide
    · obtain ⟨high, hhigh, -⟩ := Option.map_eq_some_iff.mp h
      exact ascii_of_digit? hhigh

theorem ascii_of_number? {s : String} {n : UInt8} (h : number? s = some n) :
    ∀ c ∈ s.toList, c.toNat ≤ 0x7f := by
  obtain ⟨k, hk, -⟩ := Option.map_eq_some_iff.mp h
  obtain ⟨hdigits, -⟩ := Option.filter_eq_some_iff.mp hk
  have hascii : ∀ l : List Char, Digits.natural? 16 l = some k → ∀ c ∈ l, c.toNat ≤ 0x7f := by
    intro l hl c hc
    obtain ⟨d, hd⟩ := Option.isSome_iff_exists.mp (Digits.isSome_of_natural? hl c hc)
    rw [← digit?_eq] at hd
    exact ascii_of_digit? hd
  split at hdigits
  · rename_i rest hplus
    rw [hplus, List.forall_mem_cons]
    exact ⟨by decide, hascii rest hdigits⟩
  · exact hascii _ hdigits

theorem size_ofList_ascii {l : List Char} (h : ∀ c ∈ l, c.toNat ≤ 0x7f) :
    Text.size (String.ofList l) = l.length := by
  rw [Text.size, Text.bytes_ofList_ascii h, List.length_map]

theorem slice?_number?_iff {s : String} {n : UInt8} : (Text.slice? s 0 2).bind number? = some n ↔
    ∃ a b rest, s.toList = a :: b :: rest ∧ byte? a b = some n := by
  rw [Option.bind_eq_some_iff]
  constructor
  · rintro ⟨t, hslice, hnumber⟩
    obtain ⟨before, after, hs, hbefore, ht⟩ := Text.slice?_eq_some_iff.mp hslice
    obtain rfl : before = "" := Text.eq_of_bytes_eq (List.eq_nil_of_length_eq_zero hbefore)
    rw [String.empty_append] at hs ht
    have hlength := size_ofList_ascii (ascii_of_number? hnumber)
    rw [String.ofList_toList, ht] at hlength
    obtain ⟨a, b, hab⟩ := List.length_eq_two.mp hlength.symm
    refine ⟨a, b, after.toList, ?_, ?_⟩
    · rw [hs, String.toList_append, hab]
      rfl
    · rw [← number?_pair, ← hab, String.ofList_toList]
      exact hnumber
  · rintro ⟨a, b, rest, hs, hbyte⟩
    obtain ⟨ha, hb⟩ := ascii_of_byte? hbyte
    refine ⟨String.ofList [a, b], Text.slice?_eq_some_iff.mpr ⟨"", String.ofList rest, ?_, rfl, ?_⟩, ?_⟩
    · apply String.toList_inj.mp
      simp [hs]
    · rw [String.empty_append]
      exact size_ofList_ascii (by simp [ha, hb])
    · rw [number?_pair]
      exact hbyte

theorem length_le_size (l : List Char) : l.length ≤ Text.size (String.ofList l) := by
  rw [Text.size, Text.bytes_eq_flatMap, String.toList_ofList]
  induction l with
  | nil => exact Nat.le_refl _
  | cons c rest ih =>
    have hpos : 0 < (String.utf8EncodeChar c).length := by
      rw [String.length_utf8EncodeChar]
      exact c.utf8Size_pos
    rw [List.flatMap_cons, List.length_append, List.length_cons]
    omega

theorem slices?_of_none {s : String} (hsize : 0 < Text.size s) (heven : Text.size s % 2 = 0)
    (h : ∀ a b rest, s.toList = a :: b :: rest → byte? a b = none) : slices? s = none := by
  have hfirst : (Text.slice? s 0 2).bind number? = none := by
    rw [Option.eq_none_iff_forall_ne_some]
    intro n hn
    obtain ⟨a, b, rest, hs, hbyte⟩ := slice?_number?_iff.mp hn
    rw [h a b rest hs] at hbyte
    cases hbyte
  obtain ⟨k, hk⟩ : ∃ k, Text.size s / 2 = k + 1 := ⟨Text.size s / 2 - 1, by omega⟩
  rw [slices?, hk, List.range_succ_eq_map, List.mapM_cons, Nat.mul_zero, hfirst]
  rfl

theorem size_pair {n : UInt8} (h : byte? a b = some n) (rest : List Char) :
    Text.size (String.ofList (a :: b :: rest)) = 2 + Text.size (String.ofList rest) := by
  obtain ⟨ha, hb⟩ := ascii_of_byte? h
  have hpair : Text.size (String.ofList [a, b]) = 2 := size_ofList_ascii (by simp [ha, hb])
  rw [← hpair, ← Text.size_append, ← String.ofList_append]
  rfl

theorem slices?_cons {n : UInt8} (h : byte? a b = some n) (rest : List Char) :
    slices? (String.ofList (a :: b :: rest)) = (slices? (String.ofList rest)).map (n :: ·) := by
  have hfirst : (Text.slice? (String.ofList (a :: b :: rest)) 0 2).bind number? = some n :=
    slice?_number?_iff.mpr ⟨a, b, rest, String.toList_ofList, h⟩
  have hrest : ∀ i, Text.slice? (String.ofList (a :: b :: rest)) (2 * (i + 1)) (2 * (i + 1) + 2) =
      Text.slice? (String.ofList rest) (2 * i) (2 * i + 2) := by
    intro i
    have hpair : Text.size (String.ofList [a, b]) = 2 := size_pair h []
    have hshift := Text.slice?_append (String.ofList [a, b]) (String.ofList rest) (2 * i) (2 * i + 2)
    rw [hpair, ← String.ofList_append, ← Nat.add_assoc] at hshift
    have hstep : 2 * (i + 1) = 2 + 2 * i := by omega
    rw [hstep]
    exact hshift
  have hcount : Text.size (String.ofList (a :: b :: rest)) / 2 = Text.size (String.ofList rest) / 2 + 1 := by
    rw [size_pair h]
    omega
  rw [slices?, hcount, List.range_succ_eq_map, List.mapM_cons, Nat.mul_zero, hfirst, List.mapM_map]
  simp only [Function.comp_def, Nat.succ_eq_add_one, hrest]
  rw [slices?]
  generalize (List.range (Text.size (String.ofList rest) / 2)).mapM (m := Option) _ = found
  cases found <;> rfl

theorem bytes?_eq (l : List Char) : bytes? l =
    if Text.size (String.ofList l) % 2 = 0 then slices? (String.ofList l) else none := by
  induction l using bytes?.induct with
  | case1 => rfl
  | case2 c =>
    split
    · rename_i heven
      rw [slices?_of_none (length_le_size [c]) heven, bytes?]
      simp
    · rfl
  | case3 a b rest ih =>
    rcases hbyte : byte? a b with _ | n
    · have hnone : bytes? (a :: b :: rest) = none := by
        rw [bytes?, hbyte]
        rfl
      rw [hnone]
      split
      · rename_i heven
        have hsize := length_le_size (a :: b :: rest)
        rw [List.length_cons] at hsize
        rw [slices?_of_none (by omega) heven]
        intro c d more hcd
        rw [String.toList_ofList, List.cons.injEq, List.cons.injEq] at hcd
        rw [← hcd.1, ← hcd.2.1, hbyte]
      · rfl
    · rw [bytes?, hbyte, ih, size_pair hbyte, Nat.add_mod_left, slices?_cons hbyte]
      split
      · cases slices? (String.ofList rest) <;> rfl
      · rfl

theorem decode?_eq (name : String) : decode? name = decodeSlices? name := by
  rw [decode?, bytes?_eq, String.ofList_toList, decodeSlices?]
  split <;> rfl

theorem digit_of_mem_encode {key : String} (h : c ∈ (encode key).toList) : c ∈ "0123456789abcdef".toList := by
  rw [encode, String.toList_ofList] at h
  obtain ⟨n, -, hn⟩ := List.mem_flatMap.mp h
  have hdigits : ∀ d : Fin 16, Nat.digitChar d.val ∈ "0123456789abcdef".toList := by decide +kernel
  have hlt := n.toNat_lt
  simp only [encodeByte, List.mem_cons, List.not_mem_nil, or_false] at hn
  rcases hn with rfl | rfl
  · exact hdigits ⟨n.toNat / 16, by omega⟩
  · exact hdigits ⟨n.toNat % 16, by omega⟩

/-- Each key is read back from its name, which no other key has, of two lower-case digits for each byte;
and any name is read as by its slices, which are cut nowhere but between characters. -/
theorem names_read_back :
    (∀ key, decode? (encode key) = some key) ∧ Function.Injective encode ∧
    (∀ key, (encode key).toList.length = 2 * Text.size key ∧
      ∀ c ∈ (encode key).toList, c ∈ "0123456789abcdef".toList) ∧
    (∀ name, decode? name = decodeSlices? name) ∧
    ∀ name i j slice, Text.slice? name i j = some slice ↔
      ∃ before after, name = before ++ slice ++ after ∧
        Text.size before = i ∧ Text.size (before ++ slice) = j := by
  refine ⟨decode?_encode, ?_, fun key => ⟨?_, fun c => digit_of_mem_encode⟩, decode?_eq,
    fun name i j slice => Text.slice?_eq_some_iff⟩
  · intro key other h
    have hread := decode?_encode key
    rw [h, decode?_encode] at hread
    exact (Option.some.inj hread).symm
  · have hascii : ∀ c ∈ (encode key).toList, c.toNat ≤ 0x7f := fun c hc =>
      (DirectoryStore.encode_chars hc).2.2.2
    rw [← size_ofList_ascii hascii, String.ofList_toList, DirectoryStore.size_encode]

theorem names_read_back_umlaut :
    decode? (encode "ü/") = some "ü/" ∧ encode "ü/" ≠ encode "u/" ∧
      (encode "ü/").toList.length = 6 ∧ (∀ c ∈ (encode "ü/").toList, c ∈ "0123456789abcdef".toList) ∧
      decode? "c3ü" = none ∧ decode? "cü3" = none ∧ decode? "c3b" = none ∧ decode? "c3" = none ∧
      Text.slice? "c3ü" 2 4 = some "ü" ∧ Text.slice? "cü3" 0 2 = none := by
  obtain ⟨hback, hinj, hdigits, hslices, hslice⟩ := names_read_back
  refine ⟨hback "ü/", fun h => absurd (hinj h) (by decide), (hdigits "ü/").1, (hdigits "ü/").2,
    (hslices _).trans ?_, (hslices _).trans ?_, (hslices _).trans ?_, (hslices _).trans ?_,
    (hslice _ _ _ _).mpr ⟨"c3", "", rfl, rfl, rfl⟩, ?_⟩ <;> decide +kernel

end Key

end TemplateTrace
