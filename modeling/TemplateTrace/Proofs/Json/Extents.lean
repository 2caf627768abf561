import Mathlib.Algebra.GroupWithZero.Nat
import TemplateTrace.Location.Wire
import TemplateTrace.Proofs.Json.Counts
import TemplateTrace.Proofs.Runs

namespace TemplateTrace.Json.Reader

variable {α β σ : Type} {μ : α → Nat} {ν : β → Nat} {n k : Nat} {r : Reader α} {f : α → Reader β}

/-- The measure of the value and the bytes that are left come to no more than the bytes before and
`n` beyond. -/
def Within (n : Nat) (μ : α → Nat) (r : Reader α) : Prop :=
  ∀ s a rest, r s = .ok (a, rest) → μ a + rest.length ≤ n + s.length

def Shrinks (r : Reader α) : Prop := Within 0 (fun _ => 0) r

theorem Within.of_read (hr : Within n μ r) {s rest : Bytes} {a : α} (h : r s = .ok (a, rest)) :
    μ a + rest.length ≤ n + s.length := hr s a rest h

theorem Within.pure {a : α} (h : μ a ≤ n) : Within n μ (Pure.pure a) := by
  intro s b rest hread
  cases hread
  omega

theorem Within.fail (cause : Cause) (place : Place) : Within n μ (fail cause place) := nofun

theorem Within.bind (hr : Within n μ r) (hf : ∀ a, Within (μ a) ν (f a)) : Within n ν (r >>= f) := by
  intro s b rest hread
  rcases h : r s with e | ⟨a, middle⟩
  · rw [bind_error h] at hread
    cases hread
  · rw [bind_ok h] at hread
    have hfirst := hr s a middle h
    have hsecond := hf a middle b rest hread
    omega

theorem Shrinks.of_length (h : ∀ s a rest, r s = .ok (a, rest) → rest.length ≤ s.length) :
    Shrinks r := by
  intro s a rest hread
  rw [Nat.zero_add, Nat.zero_add]
  exact h s a rest hread

theorem Shrinks.length_le (hr : Shrinks r) {s rest : Bytes} {a : α} (h : r s = .ok (a, rest)) :
    rest.length ≤ s.length := by
  have hwithin := hr s a rest h
  rwa [Nat.zero_add, Nat.zero_add] at hwithin

theorem Within.frame (hr : Within 0 μ r) (n : Nat) : Within n (fun a => n + μ a) r := by
  intro s a rest hread
  have hle := hr s a rest hread
  dsimp only
  omega

theorem Within.after (hr : Shrinks r) (hf : ∀ a, Within n ν (f a)) : Within n ν (r >>= f) :=
  Within.bind (Within.frame hr n) hf

theorem Within.option {r : Reader (Option α)} {f : Option α → Reader β} (hr : Shrinks r)
    (hnone : Within n ν (f none)) (hsome : ∀ a, Within n ν (f (some a))) : Within n ν (r >>= f) := by
  refine .after hr fun a? => ?_
  cases a? with
  | none => exact hnone
  | some a => exact hsome a

theorem Shrinks.pure (a : α) : Shrinks (Pure.pure a : Reader α) := Within.pure (Nat.le_refl 0)

theorem Shrinks.bind (hr : Shrinks r) (hf : ∀ a, Shrinks (f a)) : Shrinks (r >>= f) :=
  Within.after hr hf

theorem Shrinks.option {r : Reader (Option α)} {f : Option α → Reader β} (hr : Shrinks r)
    (hnone : Shrinks (f none)) (hsome : ∀ a, Shrinks (f (some a))) : Shrinks (r >>= f) :=
  Within.option hr hnone hsome

theorem Shrinks.optionally {c : Prop} [Decidable c] {r : Reader Unit} {f : Unit → Reader β}
    (hr : Shrinks r) (hf : ∀ a, Shrinks (f a)) : Shrinks (if c then r >>= f else f ()) := by
  split
  · exact hr.bind hf
  · exact hf ()

theorem shrinks_peek : Shrinks peek := by
  apply Shrinks.of_length
  intro s a rest h
  cases h
  exact Nat.le_refl _

theorem shrinks_get : Shrinks (get : Reader Bytes) := by
  apply Shrinks.of_length
  intro s a rest h
  cases h
  exact Nat.le_refl _

theorem shrinks_stepsLeft : Shrinks stepsLeft := by
  apply Shrinks.of_length
  intro s a rest h
  cases h
  exact Nat.le_refl _

theorem shrinks_next : Shrinks next := by
  apply Shrinks.of_length
  intro s a rest h
  cases h
  exact (List.tail_sublist s).length_le

theorem shrinks_skip : Shrinks skip := by
  apply Shrinks.of_length
  intro s a rest h
  cases h
  exact (List.tail_sublist s).length_le

theorem shrinks_peekToken : Shrinks peekToken := by
  apply Shrinks.of_length
  intro s a rest h
  cases h
  exact (List.dropWhile_sublist isBlank).length_le

theorem shrinks_digits : Shrinks digits := by
  apply Shrinks.of_length
  intro s a rest h
  cases h
  exact (List.dropWhile_sublist isDigit).length_le

theorem shrinks_startOfValue : Shrinks startOfValue := by
  refine shrinks_peekToken.bind fun b? => ?_
  cases b? with
  | none => exact .fail _ _
  | some b => exact .pure b

theorem of_startOfValue {s rest : Bytes} {b : UInt8} (h : startOfValue s = .ok (b, rest)) :
    ∃ more, rest = b :: more ∧ more.length < s.length := by
  have hlength := shrinks_startOfValue.length_le h
  have htoken : peekToken s = .ok ((s.dropWhile isBlank).head?, s.dropWhile isBlank) := rfl
  rw [startOfValue, bind_ok htoken] at h
  rcases hdrop : s.dropWhile isBlank with _ | ⟨c, more⟩
  · rw [hdrop] at h
    cases h
  · rw [hdrop] at h
    cases h
    exact ⟨more, rfl, hlength⟩

theorem shrinks_word (w : Bytes) : Shrinks (word w) := by
  induction w with
  | nil => exact .pure ()
  | cons b w ih =>
    refine .option shrinks_next (.fail _ _) fun c => ?_
    dsimp only
    split
    · exact ih
    · exact .fail _ _

theorem shrinks_unit16 : Shrinks unit16 := by
  intro s n rest h
  unfold unit16 at h
  split at h
  · split at h
    · cases h
      simp only [List.length_cons]
      omega
    · cases h
  · cases h

theorem shrinks_pairByte (b : UInt8) : Shrinks (pairByte b) := by
  refine .option shrinks_next (.fail _ _) fun c => ?_
  dsimp only
  split
  · exact .pure ()
  · exact .fail _ _

theorem shrinks_escapedChar : Shrinks escapedChar := by
  refine shrinks_unit16.bind fun n => ?_
  split
  · exact .fail _ _
  · split
    · refine (shrinks_pairByte _).bind fun _ => (shrinks_pairByte _).bind fun _ => ?_
      refine shrinks_unit16.bind fun k => ?_
      split
      · exact .pure _
      · exact .fail _ _
    · exact .pure _

theorem shrinks_escape : Shrinks escape := by
  refine .option shrinks_next (.fail _ _) fun b => ?_
  dsimp only
  split
  · exact .pure _
  · split
    · exact shrinks_escapedChar.bind fun c => .pure _
    · exact .fail _ _

theorem shrinks_textBytes (steps : Nat) (soFar : Bytes) : Shrinks (textBytes steps soFar) := by
  induction steps generalizing soFar with
  | zero => exact .fail _ _
  | succ steps ih =>
    refine .option shrinks_next (.fail _ _) fun b => ?_
    dsimp only
    split
    · exact .pure _
    · split
      · exact shrinks_escape.bind fun _ => ih _
      · split
        · exact .fail _ _
        · exact ih _

theorem shrinks_textBody : Shrinks textBody := by
  intro s text rest h
  obtain ⟨⟨b, middle⟩, hread, h⟩ := ok_of_bind h
  dsimp only at h
  split at h
  · cases h
    exact shrinks_textBytes _ _ _ _ _ hread
  · cases h

theorem shrinks_wholeDigits : Shrinks wholeDigits := by
  refine .option shrinks_next (.fail _ _) fun b => ?_
  dsimp only
  split
  · refine shrinks_peek.bind fun c? => ?_
    cases c? with
    | none => exact .pure _
    | some c =>
      dsimp only
      split
      · exact .fail _ _
      · exact .pure _
  · split
    · exact shrinks_digits.bind fun _ => .pure _
    · exact .fail _ _

theorem shrinks_fractionOf (isNegative : Bool) (n : Nat) (e : Int) :
    Shrinks (fractionOf isNegative n e) := by
  rw [fractionOf]
  split
  · exact .pure _
  · exact .fail _ _

theorem shrinks_exponentPart (isNegative : Bool) (n : Nat) (e : Int) :
    Shrinks (exponentPart isNegative n e) := by
  refine shrinks_skip.bind fun _ => shrinks_peek.bind fun sign => ?_
  refine .optionally shrinks_skip fun _ => .option shrinks_next (.fail _ _) fun b => ?_
  dsimp only
  split
  · refine shrinks_get.bind fun before => shrinks_digits.bind fun more => ?_
    split
    · exact shrinks_fractionOf _ _ _
    · split
      · nofun
      · exact .pure _
  · exact .fail _ _

theorem shrinks_fractionPart (isNegative : Bool) (n : Nat) (e : Int) :
    Shrinks (fractionPart isNegative n e) := by
  refine shrinks_peek.bind fun point => ?_
  split
  · refine shrinks_skip.bind fun _ => shrinks_digits.bind fun ds => ?_
    split
    · refine shrinks_peek.bind fun b? => ?_
      cases b? <;> exact .fail _ _
    · refine shrinks_peek.bind fun mark => ?_
      split
      · exact shrinks_exponentPart _ _ _
      · exact shrinks_fractionOf _ _ _
  · refine shrinks_peek.bind fun mark => ?_
    split
    · exact shrinks_exponentPart _ _ _
    · exact shrinks_fractionOf _ _ _

theorem shrinks_numeral (isNegative : Bool) : Shrinks (numeral isNegative) := by
  refine shrinks_wholeDigits.bind fun ds => shrinks_peek.bind fun mark => ?_
  split
  · exact shrinks_fractionPart _ _ _
  · split
    · split
      · exact shrinks_fractionOf _ _ _
      · exact .pure _
    · exact .pure _

theorem shrinks_ignoredText (steps : Nat) : Shrinks (ignoredText steps) := by
  induction steps with
  | zero => exact .fail _ _
  | succ steps ih =>
    refine .option shrinks_peek (.fail _ _) fun b => ?_
    dsimp only
    split
    · exact .fail _ _
    · refine shrinks_skip.bind fun _ => ?_
      split
      · exact .pure ()
      · split
        · refine shrinks_next.bind fun c? => ?_
          cases c? with
          | none => exact .fail _ _
          | some c =>
            dsimp only
            split
            · exact shrinks_unit16.bind fun _ => ih
            · split
              · exact ih
              · exact .fail _ _
        · exact ih

theorem shrinks_ignoredTextBody : Shrinks ignoredTextBody :=
  shrinks_get.bind fun _ => shrinks_ignoredText _

theorem shrinks_ignoredExponent : Shrinks ignoredExponent := by
  refine shrinks_skip.bind fun _ => shrinks_peek.bind fun sign => ?_
  refine .optionally shrinks_skip fun _ => .option shrinks_next (.fail _ _) fun b => ?_
  dsimp only
  split
  · exact shrinks_digits.bind fun _ => .pure ()
  · exact .fail _ _

theorem shrinks_ignoredNumeral : Shrinks ignoredNumeral := by
  have hmark : Shrinks (do if isExponentMark (← peek) then ignoredExponent) := by
    refine shrinks_peek.bind fun mark => ?_
    split
    · exact shrinks_ignoredExponent
    · exact .pure ()
  have hpoint : Shrinks (do
      if (← peek) = some (byte '.') then
        skip
        if (← digits).isEmpty then fail .invalidNumber .ahead
      if isExponentMark (← peek) then ignoredExponent) := by
    refine shrinks_peek.bind fun point => ?_
    dsimp only
    split
    · refine shrinks_skip.bind fun _ => shrinks_digits.bind fun ds => ?_
      split
      · nofun
      · exact hmark
    · exact hmark
  refine .option shrinks_next (.fail _ _) fun b => ?_
  dsimp only
  split
  · refine shrinks_peek.bind fun c? => ?_
    split
    · nofun
    · exact hpoint
  · split
    · exact shrinks_digits.bind fun _ => hpoint
    · nofun

theorem shrinks_ignoredStart : Shrinks ignoredStart := by
  have hread {r : Reader Unit} (hr : Shrinks r) : Shrinks (do r; return (none : Option Container)) :=
    hr.bind fun _ => .pure none
  have hafter {r : Reader Unit} (hr : Shrinks r) :
      Shrinks (do skip; r; return (none : Option Container)) := shrinks_skip.bind fun _ => hread hr
  refine shrinks_startOfValue.bind fun b => ?_
  split
  · exact shrinks_skip.bind fun _ => .pure _
  · split
    · exact shrinks_skip.bind fun _ => .pure _
    · dsimp only
      split
      · exact hafter (shrinks_word _)
      · split
        · exact hafter (shrinks_word _)
        · split
          · exact hafter (shrinks_word _)
          · split
            · exact hafter shrinks_ignoredNumeral
            · split
              · exact hread shrinks_ignoredNumeral
              · split
                · exact hafter shrinks_ignoredTextBody
                · nofun

theorem shrinks_ignoredEnds (afterValue : Bool) (unclosed : List Container) :
    Shrinks (ignoredEnds afterValue unclosed) := by
  induction unclosed generalizing afterValue with
  | nil => exact .pure _
  | cons c outer ih =>
    have hbyte (b close : UInt8) (cause : Cause) : Shrinks (
        if b = close then do
          skip
          ignoredEnds true outer
        else if afterValue then
          if b = byte ',' then do
            skip
            return c :: outer
          else fail cause .ahead
        else return c :: outer) := by
      split
      · exact shrinks_skip.bind fun _ => ih true
      · split
        · split
          · exact shrinks_skip.bind fun _ => .pure _
          · exact .fail _ _
        · exact .pure _
    refine shrinks_peekToken.bind fun b? => ?_
    cases b? with
    | none => cases c <;> exact .fail _ _
    | some b => cases c <;> exact hbyte b _ _

theorem shrinks_ignoredKey : Shrinks ignoredKey := by
  refine .option shrinks_peekToken (.fail _ _) fun b => ?_
  dsimp only
  split
  · refine shrinks_skip.bind fun _ => shrinks_ignoredTextBody.bind fun _ => ?_
    refine .option shrinks_peekToken (.fail _ _) fun b => ?_
    dsimp only
    split
    · exact shrinks_skip
    · exact .fail _ _
  · nofun

theorem shrinks_ignoredWithin (steps : Nat) (outer : List Container) :
    Shrinks (ignoredWithin steps outer) := by
  induction steps generalizing outer with
  | zero => exact .pure ()
  | succ steps ih =>
    refine shrinks_ignoredStart.bind fun opened => (shrinks_ignoredEnds _ _).bind fun unclosed => ?_
    match unclosed with
    | [] => exact .pure ()
    | .list :: outer => exact ih _
    | .object :: outer => exact shrinks_ignoredKey.bind fun _ => ih _

theorem shrinks_ignored : Shrinks ignored := shrinks_get.bind fun _ => shrinks_ignoredWithin _ _

theorem within_wrongType (wanted : Wanted) : Within n μ (wrongType wanted : Reader α) := by
  have hword (w : String) (found : Found) :
      Within n μ (do skip; wordOf w; fail (.wrongType found wanted) .here : Reader α) :=
    .after shrinks_skip fun _ => .after (shrinks_word _) fun _ => .fail _ _
  refine .after shrinks_startOfValue fun b => ?_
  dsimp only
  split
  · exact hword _ _
  · split
    · exact hword _ _
    · split
      · exact hword _ _
      · split
        · exact .after shrinks_skip fun _ => .after (shrinks_numeral _) fun _ => .fail _ _
        · split
          · exact .after (shrinks_numeral _) fun _ => .fail _ _
          · split
            · exact .after shrinks_skip fun _ => .after shrinks_textBody fun _ => .fail _ _
            · split
              · exact .fail _ _
              · split <;> exact .fail _ _

theorem shrinks_whole (wanted : Wanted) (bound : Nat) : Shrinks (whole wanted bound) := by
  refine shrinks_startOfValue.bind fun b => ?_
  split
  · refine .optionally shrinks_skip fun _ => (shrinks_numeral _).bind fun x => ?_
    cases x with
    | whole n =>
      dsimp only
      split
      · exact .pure n
      · exact .fail _ _
    | negative n => exact .fail _ _
    | fraction isNegative x => exact .fail _ _
  · exact within_wrongType wanted

theorem shrinks_text : Shrinks text := by
  refine shrinks_startOfValue.bind fun b => ?_
  split
  · exact shrinks_skip.bind fun _ => shrinks_textBody
  · exact within_wrongType _

theorem shrinks_endOfObject : Shrinks endOfObject := by
  refine .option shrinks_peekToken (.fail _ _) fun b => ?_
  dsimp only
  split
  · exact shrinks_skip
  · split <;> exact .fail _ _

theorem shrinks_endOfList : Shrinks endOfList := by
  refine .option shrinks_peekToken (.fail _ _) fun b => ?_
  dsimp only
  split
  · exact shrinks_skip
  · split
    · refine shrinks_skip.bind fun _ => shrinks_peekToken.bind fun c? => ?_
      split <;> exact .fail _ _
    · exact .fail _ _

theorem shrinks_hasElement (first : Bool) : Shrinks (hasElement first) := by
  refine .option shrinks_peekToken (.fail _ _) fun b => ?_
  dsimp only
  split
  · exact .pure _
  · split
    · exact .pure _
    · split
      · refine shrinks_skip.bind fun _ => shrinks_peekToken.bind fun c? => ?_
        cases c? with
        | none => exact .fail _ _
        | some c =>
          dsimp only
          split
          · exact .fail _ _
          · exact .pure _
      · exact .fail _ _

theorem shrinks_hasMember (first : Bool) : Shrinks (hasMember first) := by
  refine .option shrinks_peekToken (.fail _ _) fun b => ?_
  dsimp only
  split
  · exact .pure _
  · split
    · split
      · exact shrinks_skip.bind fun _ => .pure _
      · exact .fail _ _
    · split
      · refine shrinks_skip.bind fun _ => shrinks_peekToken.bind fun c? => ?_
        cases c? with
        | none => exact .fail _ _
        | some c =>
          dsimp only
          split
          · exact shrinks_skip.bind fun _ => .pure _
          · split <;> exact .fail _ _
      · exact .fail _ _

theorem shrinks_colon : Shrinks colon := by
  refine .option shrinks_peekToken (.fail _ _) fun b => ?_
  dsimp only
  split
  · exact shrinks_skip
  · exact .fail _ _

theorem shrinks_numberKey : Shrinks numberKey := by
  refine .option shrinks_peek (.fail _ _) fun b => ?_
  dsimp only
  split
  · refine (shrinks_whole _ _).bind fun n => shrinks_peek.bind fun c? => ?_
    split
    · exact shrinks_skip.bind fun _ => .pure _
    · exact .fail _ _
  · exact .fail _ _

theorem within_members {member : α → Reader α} (hmember : ∀ a, Within (μ a) μ (member a))
    (steps : Nat) (first : Bool) (a : α) : Within (μ a) μ (members member steps first a) := by
  induction steps generalizing first a with
  | zero => exact .pure (Nat.le_refl _)
  | succ steps ih =>
    refine .after (shrinks_hasMember first) fun more => ?_
    split
    · exact (hmember a).bind fun b => ih false b
    · exact .pure (Nat.le_refl _)

theorem within_closedBy {content : Reader α} {close : Reader Unit} (hcontent : Within n μ content)
    (hclose : Shrinks close) : Within n μ (closedBy content close) := by
  intro s a rest h
  rw [closedBy] at h
  split at h
  · rename_i b middle hread
    split at h
    · rename_i last hend
      cases h
      exact Nat.le_trans (Nat.add_le_add_left (hclose.length_le hend) _) (hcontent _ _ _ hread)
    · cases h
  · split at h
    · split at h <;> cases h
    · cases h

theorem Within.optional (h : Within 0 μ r) :
    Within 0 (fun a? : Option α => (a?.map μ).getD 0) (Reader.optional r) := by
  refine .after shrinks_peekToken fun b? => ?_
  split
  · exact .after shrinks_skip fun _ => .after (shrinks_word _) fun _ => .pure (Nat.le_refl _)
  · exact h.bind fun a => .pure (Nat.le_refl _)

def tableSum (μ : α → Nat) (t : Table α) : Nat := (t.values.map μ).sum

theorem tableSum_insert_le (t : Table α) (k : Nat) (a : α) :
    tableSum μ (t.insert k a) ≤ tableSum μ t + μ a := by
  obtain ⟨entries, ascending⟩ := t
  simp only [tableSum, Table.values, Table.insert]
  clear ascending
  induction entries with
  | nil => simp [Table.insertEntry]
  | cons e rest ih =>
    rw [Table.insertEntry]
    split
    · simp only [List.map_cons, List.sum_cons]
      omega
    · split
      · simp only [List.map_cons, List.sum_cons]
        omega
      · simp only [List.map_cons, List.sum_cons]
        omega

theorem within_table {value : Nat → Reader α} (hvalue : ∀ depth, Within 0 μ (value depth))
    (depth : Nat) : Within 0 (tableSum μ) (table depth value) := by
  refine .after shrinks_startOfValue fun b => ?_
  split
  · cases depth with
    | zero => exact .fail _ _
    | succ depth =>
      refine .after shrinks_skip fun _ => within_closedBy ?_ shrinks_endOfObject
      refine .after shrinks_stepsLeft fun steps => ?_
      refine within_members (fun t => ?_) steps true Table.empty
      refine .after shrinks_numberKey fun k => .after shrinks_colon fun _ => ?_
      exact ((hvalue depth).frame _).bind fun a => .pure (tableSum_insert_le t k a)
  · exact within_wrongType _

namespace Record

variable {r : Record σ α} {δ : σ → Nat}

theorem within_member (hfields : ∀ f ∈ r.fields, ∀ d, Within (δ d) δ (f.read d)) (d : σ) :
    Within (δ d) δ (r.member d) := by
  refine .after shrinks_textBody fun key => ?_
  split
  · rename_i f hfind
    split
    · exact .fail _ _
    · exact .after shrinks_colon fun _ => hfields f (List.mem_of_find?_eq_some hfind) d
  · exact .after shrinks_colon fun _ => .after shrinks_ignored fun _ => .pure (Nat.le_refl _)

theorem within_complete (hfinish : ∀ d a, r.finish d = .ok a → μ a ≤ δ d) (d : σ) :
    Within (δ d) μ (r.complete d) := by
  rw [complete]
  split
  · rename_i a ha
    exact .pure (hfinish d a ha)
  · exact .fail _ _

theorem within_positional {fields : List (Field σ)}
    (hfields : ∀ f ∈ fields, ∀ d, Within (δ d) δ (f.read d)) (i : Nat) (d : σ) :
    Within (δ d) δ (r.positional i fields d) := by
  induction fields generalizing i d with
  | nil => exact .pure (Nat.le_refl _)
  | cons f rest ih =>
    have hrest := ih fun g hg => hfields g (List.mem_cons_of_mem f hg)
    refine .after (shrinks_hasElement _) fun more => ?_
    split
    · exact (hfields f List.mem_cons_self d).bind fun d => hrest _ d
    · split
      · exact hrest _ d
      · exact .fail _ _

theorem within_read (hfields : ∀ f ∈ r.fields, ∀ d, Within (δ d) δ (f.read d))
    (hblank : δ r.blank ≤ 1) (hfinish : ∀ d a, r.finish d = .ok a → μ a ≤ δ d) (name : String) :
    Within 0 μ (read name (some r)) := by
  have hcontent : Within (δ r.blank) μ (closedBy r.ofObject endOfObject) := by
    refine within_closedBy ?_ shrinks_endOfObject
    refine .after shrinks_stepsLeft fun steps => ?_
    have hmembers := within_members (within_member hfields) steps true r.blank
    exact hmembers.bind fun d => within_complete hfinish d
  have hitems : Within (δ r.blank) μ (closedBy r.ofArray endOfList) := by
    refine within_closedBy ?_ shrinks_endOfList
    exact (within_positional hfields 0 r.blank).bind fun d => within_complete hfinish d
  intro s a rest h
  rcases hstart : startOfValue s with e | ⟨b, middle⟩
  · rw [read, bind_error hstart] at h
    cases h
  · obtain ⟨more, rfl, hmore⟩ := of_startOfValue hstart
    rw [read, bind_ok hstart] at h
    split at h
    · dsimp only at h
      rw [bind_ok (skip_cons b more)] at h
      split at h
      · have hle := hcontent _ _ _ h
        omega
      · have hle := hitems _ _ _ h
        omega
    · have hwrong : Within 0 μ (wrongType (.record name) : Reader α) := within_wrongType _
      have hle := hwrong _ _ _ h
      rw [List.length_cons] at hle
      omega

end Record

end TemplateTrace.Json.Reader

namespace TemplateTrace.Location

open Json.Reader (Within tableSum within_table)

def Draft.sites (d : Draft) : Nat := ((d.parent.getD none).map Chain.depth).getD 0 + 1

theorem within_read (depth : Nat) : Within 0 Chain.depth (read depth) := by
  induction depth with
  | zero =>
    refine .after Json.Reader.shrinks_startOfValue fun b => ?_
    split
    · exact .fail _ _
    · exact Json.Reader.within_wrongType _
  | succ depth ih =>
    have hblank : Draft.sites (record (read depth)).blank ≤ 1 := Nat.le_refl 1
    refine Json.Reader.Record.within_read ?_ hblank ?_ _
    · intro f hf d
      simp only [record, List.mem_cons, List.not_mem_nil, or_false] at hf
      rcases hf with rfl | rfl | rfl
      · exact .after Json.Reader.shrinks_text fun _ => .pure (Nat.le_refl _)
      · exact .after (Json.Reader.shrinks_whole _ _) fun _ => .pure (Nat.le_refl _)
      -- The sites of the parent are paid for by its own text.
      · refine ((ih.optional).frame _).bind fun parent => .pure ?_
        rw [Draft.sites, Draft.sites, Option.getD_some]
        omega
    · intro d l hfinish
      simp only [record] at hfinish
      split at hfinish
      · cases hfinish
      · cases hfinish
      · cases hfinish
        rw [Draft.sites, Chain.depth, Chain.links_within, List.length_cons]
        rcases d.parent.getD none with _ | l
        · exact Nat.le_refl _
        · exact Nat.le_refl _

theorem length_links_le_of_decode {b : Bytes} {table : Table Location} (h : decodeTable b = .ok table) :
    (table.values.flatMap Chain.links).length ≤ b.length := by
  rw [decodeTable, Json.parse] at h
  split at h
  · rename_i found rest hread
    cases h
    have hle : tableSum Chain.depth table + rest.length ≤ 0 + b.length := by
      refine Json.Reader.Within.of_read ?_ hread
      refine (within_table within_read Json.maxDepth).bind fun table => ?_
      exact .option Json.Reader.shrinks_peekToken (.pure (Nat.le_refl _)) fun _ => .fail _ _
    have hsum : tableSum Chain.depth table = (table.values.flatMap Chain.links).length :=
      (List.length_flatMap).symm
    omega
  · cases h

end TemplateTrace.Location
