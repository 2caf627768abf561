import TemplateTrace.Proofs.Json.Counts
import TemplateTrace.Proofs.Tables

/-!
Reading what has been written, shape by shape: a reader of a list, a table or a record reads the
text that is made of the texts of its parts, if the readers of the parts do; and it fails with the
fault of the first part whose reader fails.
-/

namespace TemplateTrace.Json.Reader

open Text (bytes)

variable {α β σ : Type}

def Blank (pad : Bytes) : Prop := ∀ b ∈ pad, isBlank b = true

instance (pad : Bytes) : Decidable (Blank pad) := List.decidableBAll _ pad

theorem Blank.nil : Blank [] := List.forall_mem_nil _

def SkipsBlanks (r : Reader α) : Prop := ∀ pad s, Blank pad → r (pad ++ s) = r s

theorem SkipsBlanks.bind {r : Reader α} (h : SkipsBlanks r) (f : α → Reader β) : SkipsBlanks (r >>= f) :=
  fun pad s hpad => bind_of_same (h pad s hpad) f

theorem skipsBlanks_peekToken : SkipsBlanks peekToken := by
  intro pad s hpad
  simp [peekToken, List.dropWhile_append_of_pos hpad]

theorem skipsBlanks_startOfValue : SkipsBlanks startOfValue := skipsBlanks_peekToken.bind _

theorem skipsBlanks_count : SkipsBlanks count := skipsBlanks_startOfValue.bind _

theorem skipsBlanks_text : SkipsBlanks text := skipsBlanks_startOfValue.bind _

structure Spacing where
  part : Bytes
  close : Bytes
  blank_part : Blank part
  blank_close : Blank close

def Spacing.none : Spacing := ⟨[], [], .nil, .nil⟩

/-- The reader takes the text of a value off whatever follows it. -/
structure Reads (r : Reader α) (t : Bytes) (a : α) : Prop where
  begins : ∃ b s, t = b :: s ∧ isBlank b = false ∧ b ≠ byte ']'
  run : ∀ rest, Stops rest → r (t ++ rest) = .ok (a, rest)

def Fails (r : Reader α) (t : Bytes) (c : Cause) : Prop :=
  ∀ rest, ∃ f, r (t ++ rest) = .error f ∧ f.cause = c

theorem Reads.map {r : Reader α} {t : Bytes} {a : α} (h : Reads r t a) (g : α → β) :
    Reads (do return g (← r)) t (g a) where
  begins := h.begins
  run rest hs := by
    rw [bind_ok (h.run rest hs)]
    rfl

theorem Fails.bind {r : Reader α} {t : Bytes} {c : Cause} (h : Fails r t c)
    (f : α → Reader β) : Fails (r >>= f) t c := by
  intro rest
  obtain ⟨fault, hfault, hcause⟩ := h rest
  exact ⟨fault, bind_error hfault f, hcause⟩

theorem reads_whole {n bound : Nat} (wanted : Wanted) (hn : n ≤ bound) (hb : bound ≤ maxCount) :
    Reads (whole wanted bound) (bytes (toString n)) n where
  begins := by
    obtain ⟨c, more, hc⟩ := List.exists_cons_of_ne_nil (@Nat.toDigits_ne_nil n 10)
    have hdigit : isDigit (byte c) = true :=
      isDigit_byte (isDigit_of_mem_digits (hc ▸ List.mem_cons_self))
    refine ⟨byte c, more.map byte, by rw [bytes_toString, hc, List.map_cons],
      isBlank_of_isDigit hdigit, ?_⟩
    intro h
    rw [h] at hdigit
    exact absurd hdigit (by decide)
  run rest hs := whole_digits wanted hn hb hs

theorem reads_count {n : Nat} (hn : n ≤ maxCount) : Reads count (bytes (toString n)) n :=
  reads_whole _ hn (Nat.le_refl _)

theorem reads_count32 {n : Nat} (hn : n ≤ maxCount32) : Reads count32 (bytes (toString n)) n :=
  reads_whole _ hn (by decide)

theorem reads_text (s : String) : Reads text (bytes (quoted s)) s where
  begins := ⟨_, _, bytes_quoted s, by decide, by decide⟩
  run rest _ := by
    rw [bytes_quoted, List.cons_append, List.append_assoc, text,
      bind_ok (startOfValue_cons (by decide) _), if_pos rfl, bind_ok (skip_cons _ _)]
    exact textBody_body s rest

theorem reads_optional_null (r : Reader α) : Reads (optional r) (bytes "null") none where
  begins := ⟨byte 'n', bytes "ull", by decide, by decide, by decide⟩
  run rest _ := by
    have htext : bytes "null" = [byte 'n', byte 'u', byte 'l', byte 'l'] := by decide
    have hword : wordOf "ull" (byte 'u' :: byte 'l' :: byte 'l' :: rest) = .ok ((), rest) := rfl
    rw [htext, optional]
    simp only [List.cons_append, List.nil_append]
    rw [bind_ok (peekToken_cons (by decide) _), if_pos rfl, bind_ok (skip_cons _ _),
      bind_ok hword]
    rfl

theorem optional_eq {r : Reader α} {b : UInt8} (hb : isBlank b = false) (hn : b ≠ byte 'n')
    (s : Bytes) : optional r (b :: s) = (do return some (← r)) (b :: s) := by
  rw [optional, bind_ok (peekToken_cons hb s), if_neg (by simpa using hn)]

theorem Reads.optional {r : Reader α} {t : Bytes} {a : α} (h : Reads r t a)
    (hn : t.head? ≠ some (byte 'n')) : Reads (Reader.optional r) t (some a) where
  begins := h.begins
  run rest hs := by
    obtain ⟨b, s, rfl, hb, -⟩ := h.begins
    rw [List.cons_append, optional_eq hb (by simpa using hn), ← List.cons_append]
    exact (h.map some).run rest hs

theorem Fails.optional {r : Reader α} {b : UInt8} {s : Bytes} {c : Cause}
    (h : Fails r (b :: s) c) (hb : isBlank b = false) (hn : b ≠ byte 'n') :
    Fails (Reader.optional r) (b :: s) c := by
  intro rest
  rw [List.cons_append, optional_eq hb hn, ← List.cons_append]
  exact h.bind _ rest

def joined (pad : Bytes) : Bool → List Bytes → Bytes
  | _, [] => []
  | true, t :: rest => pad ++ (t ++ joined pad false rest)
  | false, t :: rest => byte ',' :: (pad ++ (t ++ joined pad false rest))

theorem stops_cons {b : UInt8} (h : b ∈ [byte ',', byte ']', byte '}', byte '"'])
    (s : Bytes) : Stops (b :: s) := by
  intro c hc
  cases hc
  simp only [List.mem_cons, List.not_mem_nil, or_false] at h
  rcases h with rfl | rfl | rfl | rfl <;> decide

theorem Blank.stops {pad s : Bytes} (hpad : Blank pad) (hs : Stops s) : Stops (pad ++ s) := by
  rcases pad with _ | ⟨b, pad⟩
  · exact hs
  · intro c hc
    cases hc
    have hb := hpad b List.mem_cons_self
    simp only [isBlank, Bool.or_eq_true, beq_iff_eq] at hb
    rcases hb with ((rfl | rfl) | rfl) | rfl <;> decide

theorem stops_joined {s : Bytes} (hs : Stops s) (pad : Bytes) (l : List Bytes) :
    Stops (joined pad false l ++ s) := by
  cases l with
  | nil => exact hs
  | cons t rest => exact stops_cons (by simp) _

theorem length_le_joined {l : List Bytes} (h : ∀ t ∈ l, t ≠ []) (pad : Bytes) (first : Bool) :
    l.length ≤ (joined pad first l).length := by
  induction l generalizing first with
  | nil => exact Nat.zero_le _
  | cons t rest ih =>
    have hrest := ih (fun u hu => h u (List.mem_cons_of_mem _ hu)) false
    have ht := List.length_pos_of_ne_nil (h t List.mem_cons_self)
    cases first <;> simp only [joined, List.length_cons, List.length_append] <;> omega

variable {sp : Spacing} {pad : Bytes}

theorem skipsBlanks_hasElement (first : Bool) : SkipsBlanks (hasElement first) :=
  skipsBlanks_peekToken.bind _

theorem hasElement_end (first : Bool) (rest : Bytes) :
    hasElement first (byte ']' :: rest) = .ok (false, byte ']' :: rest) := by
  rw [hasElement, bind_ok (peekToken_cons (by decide) rest)]
  rfl

theorem hasElement_next {b : UInt8} (hb : isBlank b = false) (hend : b ≠ byte ']') (hpad : Blank pad)
    (first : Bool) (s : Bytes) (l : List Bytes) (rest : Bytes) :
    hasElement first (joined pad first ((b :: s) :: l) ++ rest) =
      .ok (true, b :: s ++ (joined pad false l ++ rest)) := by
  rw [← List.append_assoc]
  cases first with
  | true =>
    simp only [joined, List.append_assoc]
    rw [skipsBlanks_hasElement true pad _ hpad, List.cons_append, hasElement,
      bind_ok (peekToken_cons hb _)]
    simp only [hend, if_false, if_true]
    rfl
  | false =>
    simp only [joined, List.cons_append, List.append_assoc]
    rw [hasElement, bind_ok (peekToken_cons (by decide) _)]
    simp only [show byte ',' ≠ byte ']' by decide, if_false, Bool.false_eq_true, if_true]
    have hnext := skipsBlanks_peekToken pad (b :: (s ++ (joined pad false l ++ rest))) hpad
    rw [peekToken_cons hb] at hnext
    rw [bind_ok (skip_cons _ _), bind_ok hnext]
    simp only [hend, if_false]
    rfl

theorem elements_joined {element : Reader α} {text : α → Bytes} {xs : List α}
    (h : ∀ x ∈ xs, Reads element (text x) x) {steps : Nat} (hsteps : xs.length < steps)
    (soFar : List α) (rest : Bytes) :
    elements element steps soFar
        (joined sp.part soFar.isEmpty (xs.map text) ++ (sp.close ++ byte ']' :: rest)) =
      .ok (soFar.reverse ++ xs, byte ']' :: rest) := by
  induction xs generalizing steps soFar with
  | nil =>
    obtain ⟨steps, rfl⟩ := Nat.exists_eq_add_one_of_ne_zero (Nat.ne_zero_of_lt hsteps)
    have hend := skipsBlanks_hasElement soFar.isEmpty sp.close (byte ']' :: rest) sp.blank_close
    rw [hasElement_end] at hend
    rw [List.map_nil, joined, List.nil_append, elements, bind_ok hend, List.append_nil]
    rfl
  | cons x xs ih =>
    obtain ⟨steps, rfl⟩ := Nat.exists_eq_add_one_of_ne_zero (Nat.ne_zero_of_lt hsteps)
    have hx := h x List.mem_cons_self
    obtain ⟨b, s, ht, hb, hend⟩ := hx.begins
    have hrest := ih (fun y hy => h y (List.mem_cons_of_mem _ hy))
      (Nat.lt_of_succ_lt_succ hsteps) (x :: soFar)
    have hstops := sp.blank_close.stops (@stops_cons (byte ']') (by simp) rest)
    rw [List.map_cons, elements, ht, bind_ok (hasElement_next hb hend sp.blank_part _ s _ _), ← ht]
    simp only [if_true]
    rw [List.isEmpty_cons] at hrest
    rw [bind_ok (hx.run _ (stops_joined hstops _ _)), hrest, List.reverse_cons, List.append_assoc]
    rfl

theorem closedBy_ok {content : Reader α} {close : Reader Unit} {s t u : Bytes} {a : α}
    (h : content s = .ok (a, t)) (hc : close t = .ok ((), u)) :
    closedBy content close s = .ok (a, u) := by
  rw [closedBy, h]
  simp only [hc]

theorem closedBy_error {content : Reader α} {s : Bytes} {f : Fault} (h : content s = .error f)
    (close : Reader Unit) : ∃ g, closedBy content close s = .error g ∧ g.cause = f.cause := by
  rw [closedBy, h]
  simp only
  split
  · cases close f.rest with
    | ok p => exact ⟨_, rfl, rfl⟩
    | error g => exact ⟨_, rfl, rfl⟩
  · exact ⟨f, rfl, rfl⟩

theorem endOfList_end (rest : Bytes) : endOfList (byte ']' :: rest) = .ok ((), rest) := by
  rw [endOfList, bind_ok (peekToken_cons (by decide) rest)]
  rfl

def listText (sp : Spacing) (l : List Bytes) : Bytes :=
  byte '[' :: (joined sp.part true l ++ (sp.close ++ [byte ']']))

theorem reads_sequence {element : Nat → Reader α} {text : α → Bytes} {xs : List α} {depth : Nat}
    (h : ∀ x ∈ xs, Reads (element depth) (text x) x) (sp : Spacing) :
    Reads (sequence (depth + 1) element) (listText sp (xs.map text)) xs where
  begins := ⟨_, _, rfl, by decide, by decide⟩
  run rest _ := by
    have hsteps : xs.length <
        (joined sp.part true (xs.map text) ++ (sp.close ++ byte ']' :: rest)).length + 1 := by
      have hne : ∀ t ∈ xs.map text, t ≠ [] := by
        intro t ht
        obtain ⟨x, hx, rfl⟩ := List.mem_map.mp ht
        obtain ⟨b, s, hbs, -⟩ := (h x hx).begins
        rw [hbs]
        exact List.cons_ne_nil b s
      have hlen := length_le_joined hne sp.part true
      rw [List.length_map] at hlen
      rw [List.length_append]
      omega
    have hcontent := @elements_joined _ sp _ _ _ h _ hsteps [] rest
    rw [listText, List.cons_append, List.append_assoc, List.append_assoc, sequence,
      bind_ok (startOfValue_cons (by decide) _), if_pos rfl, bind_ok (skip_cons _ _)]
    exact closedBy_ok hcontent (endOfList_end rest)

theorem skipsBlanks_hasMember (first : Bool) : SkipsBlanks (hasMember first) :=
  skipsBlanks_peekToken.bind _

theorem hasMember_end (first : Bool) (rest : Bytes) :
    hasMember first (byte '}' :: rest) = .ok (false, byte '}' :: rest) := by
  rw [hasMember, bind_ok (peekToken_cons (by decide) rest)]
  rfl

theorem hasMember_next (hpad : Blank pad) (first : Bool) (t : Bytes) (l : List Bytes) (rest : Bytes) :
    hasMember first (joined pad first ((byte '"' :: t) :: l) ++ rest) =
      .ok (true, t ++ (joined pad false l ++ rest)) := by
  rw [← List.append_assoc]
  cases first with
  | true =>
    simp only [joined, List.append_assoc]
    rw [skipsBlanks_hasMember true pad _ hpad, List.cons_append, hasMember,
      bind_ok (peekToken_cons (by decide) _)]
    rfl
  | false =>
    simp only [joined, List.cons_append, List.append_assoc]
    rw [hasMember, bind_ok (peekToken_cons (by decide) _)]
    simp only [show byte ',' ≠ byte '}' by decide, if_false, Bool.false_eq_true, if_true]
    have hnext := skipsBlanks_peekToken pad (byte '"' :: (t ++ (joined pad false l ++ rest))) hpad
    rw [peekToken_cons (by decide)] at hnext
    rw [bind_ok (skip_cons _ _), bind_ok hnext]
    rfl

/-- The members, given by what follows their opening quotes, take a state to another. -/
inductive Advances (member : σ → Reader σ) : σ → List Bytes → σ → Prop
  | nil (a : σ) : Advances member a [] a
  | cons {a b c : σ} {t : Bytes} {l : List Bytes}
      (head : ∀ rest, Stops rest → member a (t ++ rest) = .ok (b, rest))
      (tail : Advances member b l c) : Advances member a (t :: l) c

theorem Advances.append {member : σ → Reader σ} {a b c : σ} {l k : List Bytes}
    (h : Advances member a l b) (h' : Advances member b k c) : Advances member a (l ++ k) c := by
  induction h with
  | nil a => exact h'
  | cons head tail ih => exact .cons head (ih h')

def membersText (pad : Bytes) (first : Bool) (l : List Bytes) : Bytes :=
  joined pad first (l.map (byte '"' :: ·))

theorem membersText_nil (pad : Bytes) (first : Bool) : membersText pad first [] = [] := by
  cases first <;> rfl

theorem members_advance {member : σ → Reader σ} {a b : σ} {l : List Bytes} (hpad : Blank pad)
    (h : Advances member a l b) (more : List Bytes) {rest : Bytes} (hrest : Stops rest) (first : Bool)
    (steps : Nat) :
    members member (l.length + steps) first a (membersText pad first (l ++ more) ++ rest) =
      members member steps (first && l.isEmpty) b
        (membersText pad (first && l.isEmpty) more ++ rest) := by
  induction h generalizing first with
  | nil a => simp
  | @cons a b c t l head tail ih =>
    rw [List.length_cons, Nat.add_right_comm, List.cons_append, membersText, List.map_cons,
      members, bind_ok (hasMember_next hpad _ _ _ _)]
    simp only [if_true]
    rw [bind_ok (head _ (stops_joined hrest _ _))]
    simpa [membersText] using ih false

theorem members_end (hpad : Blank pad) (member : σ → Reader σ) (a : σ) (first : Bool) (steps : Nat)
    (rest : Bytes) :
    members member (steps + 1) first a (pad ++ byte '}' :: rest) = .ok (a, byte '}' :: rest) := by
  have hend := skipsBlanks_hasMember first pad (byte '}' :: rest) hpad
  rw [hasMember_end] at hend
  rw [members, bind_ok hend]
  rfl

theorem members_fail {member : σ → Reader σ} {a b : σ} {l : List Bytes} (hpad : Blank pad)
    (h : Advances member a l b) {t : Bytes} {c : Cause} (hf : Fails (member b) t c)
    (more : List Bytes) {rest : Bytes} (hrest : Stops rest) (steps : Nat) :
    ∃ f, members member (l.length + (steps + 1)) true a
      (membersText pad true (l ++ t :: more) ++ rest) = .error f ∧ f.cause = c := by
  rw [members_advance hpad h _ hrest]
  obtain ⟨f, hfault, hcause⟩ := hf (membersText pad false more ++ rest)
  refine ⟨f, ?_, hcause⟩
  rw [membersText, List.map_cons, members, bind_ok (hasMember_next hpad _ _ _ _)]
  simp only [if_true]
  exact bind_error hfault _

theorem endOfObject_end (rest : Bytes) : endOfObject (byte '}' :: rest) = .ok ((), rest) := by
  rw [endOfObject, bind_ok (peekToken_cons (by decide) rest)]
  rfl

def spacedObject (sp : Spacing) (l : List Bytes) : Bytes :=
  byte '{' :: (membersText sp.part true l ++ (sp.close ++ [byte '}']))

theorem spacedObject_append (sp : Spacing) (l : List Bytes) (rest : Bytes) :
    spacedObject sp l ++ rest =
      byte '{' :: (membersText sp.part true l ++ (sp.close ++ byte '}' :: rest)) := by
  simp [spacedObject]

def objectText (l : List Bytes) : Bytes := spacedObject .none l

theorem head?_objectText (l : List Bytes) : (objectText l).head? = some (byte '{') := rfl

theorem length_le_membersText (pad : Bytes) (l : List Bytes) :
    l.length ≤ (membersText pad true l).length := by
  have hne : ∀ t ∈ l.map (byte '"' :: ·), t ≠ [] := by
    intro t ht
    obtain ⟨u, -, rfl⟩ := List.mem_map.mp ht
    exact List.cons_ne_nil _ _
  have h := length_le_joined hne pad true
  rwa [List.length_map] at h

theorem Spacing.stops_object (sp : Spacing) (rest : Bytes) : Stops (sp.close ++ byte '}' :: rest) :=
  sp.blank_close.stops (stops_cons (by simp) rest)

theorem stepsLeft_apply (s : Bytes) : stepsLeft s = .ok (s.length + 1, s) := rfl

theorem members_stepsLeft {member : σ → Reader σ} {a b : σ} {l : List Bytes}
    (h : Advances member a l b) (sp : Spacing) (rest : Bytes) :
    (do members member (← stepsLeft) true a : Reader σ)
        (membersText sp.part true l ++ (sp.close ++ byte '}' :: rest)) = .ok (b, byte '}' :: rest) := by
  have hlen := length_le_membersText sp.part l
  have hadvance := members_advance sp.blank_part h [] (sp.stops_object rest) true
    ((membersText sp.part true l).length - l.length + (sp.close ++ byte '}' :: rest).length + 1)
  rw [List.append_nil, membersText_nil, List.nil_append, members_end sp.blank_close] at hadvance
  rw [bind_ok (stepsLeft_apply _), List.length_append]
  have hsteps : l.length + ((membersText sp.part true l).length - l.length +
      (sp.close ++ byte '}' :: rest).length + 1) =
      (membersText sp.part true l).length + (sp.close ++ byte '}' :: rest).length + 1 := by omega
  rw [← hsteps]
  exact hadvance

theorem members_stepsLeft_fail {member : σ → Reader σ} {a b : σ} {l : List Bytes}
    (h : Advances member a l b) {t : Bytes} {c : Cause} (hf : Fails (member b) t c)
    (more : List Bytes) (sp : Spacing) (rest : Bytes) :
    ∃ f, (do members member (← stepsLeft) true a : Reader σ)
      (membersText sp.part true (l ++ t :: more) ++ (sp.close ++ byte '}' :: rest)) = .error f ∧
        f.cause = c := by
  have hlen := length_le_membersText sp.part (l ++ t :: more)
  rw [List.length_append, List.length_cons] at hlen
  rw [bind_ok (stepsLeft_apply _)]
  have hsteps : (membersText sp.part true (l ++ t :: more) ++ (sp.close ++ byte '}' :: rest)).length + 1 =
      l.length + ((membersText sp.part true (l ++ t :: more)).length - l.length +
        (sp.close ++ byte '}' :: rest).length + 1) := by
    rw [List.length_append]
    omega
  rw [hsteps]
  exact members_fail sp.blank_part h hf more (sp.stops_object rest) _

def memberText (key t : Bytes) : Bytes := key ++ byte '"' :: byte ':' :: t

theorem memberText_append (key t rest : Bytes) :
    memberText key t ++ rest = memberText key (t ++ rest) := by
  simp [memberText]

theorem colon_cons (s : Bytes) : colon (byte ':' :: s) = .ok ((), s) := by
  rw [colon, bind_ok (peekToken_cons (by decide) s)]
  rfl

theorem numberKey_digits {n : Nat} (hn : n ≤ maxCount) (s : Bytes) :
    numberKey (bytes (toString n) ++ byte '"' :: s) = .ok (n, s) := by
  have hcount := (reads_count hn).run (byte '"' :: s) (stops_cons (by simp) s)
  obtain ⟨c, more, hc⟩ := List.exists_cons_of_ne_nil (@Nat.toDigits_ne_nil n 10)
  have hdigit : isDigit (byte c) = true :=
    isDigit_byte (isDigit_of_mem_digits (hc ▸ List.mem_cons_self))
  have hhead : (bytes (toString n) ++ byte '"' :: s).head? = some (byte c) := by
    rw [bytes_toString, hc]
    rfl
  rw [numberKey, bind_ok (peek_apply _), hhead]
  simp only [hdigit, or_true, if_true]
  rw [bind_ok hcount, bind_ok (peek_apply _)]
  rfl

def tableMember (value : Reader α) (t : Table α) : Reader (Table α) := do
  let k ← numberKey
  colon
  return t.insert k (← value)

theorem tableMember_eq {value : Reader α} {t : Table α} {k : Nat} (hk : k ≤ maxCount)
    (s : Bytes) :
    tableMember value t (memberText (bytes (toString k)) s) =
      (do return t.insert k (← value)) s := by
  rw [tableMember, memberText, bind_ok (numberKey_digits hk _), bind_ok (colon_cons s)]

theorem advances_table {value : Reader α} {text : Nat × α → Bytes} {l : List (Nat × α)}
    (h : ∀ e ∈ l, e.1 ≤ maxCount ∧ Reads value (text e) e.2) (t : Table α) :
    Advances (tableMember value) t (l.map fun e => memberText (bytes (toString e.1)) (text e))
      (l.foldl (fun t e => t.insert e.1 e.2) t) := by
  induction l generalizing t with
  | nil => exact .nil t
  | cons e l ih =>
    obtain ⟨hk, hread⟩ := h e List.mem_cons_self
    refine .cons (fun rest hs => ?_) (ih (fun d hd => h d (List.mem_cons_of_mem _ hd)) _)
    rw [memberText_append, tableMember_eq hk]
    exact (hread.map (t.insert e.1)).run rest hs

theorem table_object (value : Nat → Reader α) (depth : Nat) (s : Bytes) :
    table (depth + 1) value (byte '{' :: s) =
      closedBy (do members (tableMember (value depth)) (← stepsLeft) true .empty) endOfObject s := by
  rw [table, bind_ok (startOfValue_cons (by decide) _), if_pos rfl]
  rfl

theorem reads_table {value : Nat → Reader α} {text : Nat × α → Bytes} {t : Table α} {depth : Nat}
    (h : ∀ e ∈ t.entries, e.1 ≤ maxCount ∧ Reads (value depth) (text e) e.2) :
    Reads (table (depth + 1) value)
      (objectText (t.entries.map fun e => memberText (bytes (toString e.1)) (text e))) t where
  begins := ⟨_, _, rfl, by decide, by decide⟩
  run rest _ := by
    have hall := advances_table h Table.empty
    have ht : t.entries.foldl (fun t e => t.insert e.1 e.2) Table.empty = t := by
      have hmap := Table.foldl_insert_eq_map id t
      rw [Table.map_id] at hmap
      exact hmap
    rw [ht] at hall
    rw [objectText, spacedObject_append, table_object]
    exact closedBy_ok (members_stepsLeft hall _ rest) (endOfObject_end rest)

theorem fails_table_at {value : Nat → Reader α} {text : Nat × α → Bytes} {l more : List (Nat × α)}
    {e : Nat × α} {depth : Nat} {c : Cause}
    (h : ∀ d ∈ l, d.1 ≤ maxCount ∧ Reads (value depth) (text d) d.2) (he : e.1 ≤ maxCount)
    (hf : Fails (value depth) (text e) c) :
    Fails (table (depth + 1) value) (objectText ((l ++ e :: more).map fun e =>
      memberText (bytes (toString e.1)) (text e))) c := by
  intro rest
  have hmember (t : Table α) : Fails (tableMember (value depth) t)
      (memberText (bytes (toString e.1)) (text e)) c := by
    intro rest
    rw [memberText_append, tableMember_eq he]
    exact hf.bind _ rest
  obtain ⟨f, hfault, hcause⟩ := members_stepsLeft_fail (advances_table h Table.empty) (hmember _)
    (more.map fun e => memberText (bytes (toString e.1)) (text e)) .none rest
  obtain ⟨g, hg, hgc⟩ := closedBy_error hfault endOfObject
  refine ⟨g, ?_, hgc.trans hcause⟩
  rw [objectText, spacedObject_append, table_object, List.map_append, List.map_cons]
  exact hg

theorem fails_table {value : Nat → Reader α} {text : Nat × α → Bytes} {l : List (Nat × α)}
    {depth : Nat} {c : Cause} (hkeys : ∀ e ∈ l, e.1 ≤ maxCount)
    (hvalues : ∀ e ∈ l, Reads (value depth) (text e) e.2 ∨ Fails (value depth) (text e) c)
    (hfails : ∃ e ∈ l, Fails (value depth) (text e) c) :
    Fails (table (depth + 1) value)
      (objectText (l.map fun e => memberText (bytes (toString e.1)) (text e))) c := by
  classical
  obtain ⟨e, hfirst⟩ : ∃ e, l.find? (fun e => decide (Fails (value depth) (text e) c)) = some e := by
    rw [← Option.isSome_iff_exists, List.find?_isSome]
    simpa using hfails
  obtain ⟨hfault, before, after, hsplit, hbefore⟩ := List.find?_eq_some_iff_append.mp hfirst
  have he : e ∈ l := by simp [hsplit]
  rw [hsplit]
  apply fails_table_at
  · intro d hd
    have hmem : d ∈ l := by simp [hsplit, hd]
    have hnot : ¬ Fails (value depth) (text d) c := by simpa using hbefore d hd
    exact ⟨hkeys d hmem, (hvalues d hmem).resolve_right hnot⟩
  · exact hkeys e he
  · exact of_decide_eq_true hfault

namespace Record

variable {r : Record σ α}

theorem member_eq {key : String} {f : Field σ} {draft : σ}
    (hf : r.fields.find? (·.name = key) = some f) (hset : f.isSet draft = false) (s : Bytes) :
    r.member draft (memberText (body key) s) = f.read draft s := by
  rw [member, memberText, bind_ok (textBody_body key _)]
  simp only [hf, hset, Bool.false_eq_true, if_false]
  rw [bind_ok (colon_cons s)]

theorem member_run {key : String} {f : Field σ} {draft next : σ} {t : Bytes}
    (hf : r.fields.find? (·.name = key) = some f) (hset : f.isSet draft = false)
    (h : Reads (f.read draft) t next) (rest : Bytes) (hs : Stops rest) :
    r.member draft (memberText (body key) t ++ rest) = .ok (next, rest) := by
  rw [memberText_append, member_eq hf hset]
  exact h.run rest hs

theorem member_run_blanks {key : String} {f : Field σ} {draft next : σ} {t : Bytes}
    (hf : r.fields.find? (·.name = key) = some f) (hset : f.isSet draft = false)
    (hskips : SkipsBlanks (f.read draft)) (hpad : Blank pad) (h : Reads (f.read draft) t next)
    (rest : Bytes) (hs : Stops rest) :
    r.member draft (memberText (body key) (pad ++ t) ++ rest) = .ok (next, rest) := by
  rw [memberText_append, member_eq hf hset, List.append_assoc, hskips pad _ hpad]
  exact h.run rest hs

theorem member_fails {key : String} {f : Field σ} {draft : σ} {t : Bytes} {c : Cause}
    (hf : r.fields.find? (·.name = key) = some f) (hset : f.isSet draft = false)
    (h : Fails (f.read draft) t c) : Fails (r.member draft) (memberText (body key) t) c := by
  intro rest
  rw [memberText_append, member_eq hf hset]
  exact h rest

theorem read_object (r : Record σ α) (name : String) (s : Bytes) :
    read name (some r) (byte '{' :: s) = closedBy r.ofObject endOfObject s := by
  rw [read, bind_ok (startOfValue_cons (by decide) _), if_pos (.inl rfl)]
  rfl

theorem reads_spacedObject {name : String} {l : List Bytes} {draft : σ} {a : α}
    (h : Advances r.member r.blank l draft) (ha : r.finish draft = .ok a) (sp : Spacing) :
    Reads (read name (some r)) (spacedObject sp l) a where
  begins := ⟨_, _, rfl, by decide, by decide⟩
  run rest _ := by
    have hcontent : r.ofObject (membersText sp.part true l ++ (sp.close ++ byte '}' :: rest)) =
        .ok (a, byte '}' :: rest) := by
      rw [ofObject, ← bind_assoc, bind_ok (members_stepsLeft h sp rest), complete, ha]
      rfl
    rw [spacedObject_append, read_object]
    exact closedBy_ok hcontent (endOfObject_end rest)

theorem reads_object {name : String} {l : List Bytes} {draft : σ} {a : α}
    (h : Advances r.member r.blank l draft) (ha : r.finish draft = .ok a) :
    Reads (read name (some r)) (objectText l) a :=
  reads_spacedObject h ha .none

theorem fails_object {name : String} {l more : List Bytes} {draft : σ} {t : Bytes} {c : Cause}
    (h : Advances r.member r.blank l draft) (hf : Fails (r.member draft) t c) :
    Fails (read name (some r)) (objectText (l ++ t :: more)) c := by
  intro rest
  obtain ⟨f, hfault, hcause⟩ := members_stepsLeft_fail h hf more .none rest
  have hcontent : r.ofObject (membersText [] true (l ++ t :: more) ++ byte '}' :: rest) =
      .error f := by
    rw [ofObject, ← bind_assoc]
    exact bind_error hfault _
  obtain ⟨g, hg, hgc⟩ := closedBy_error hcontent endOfObject
  refine ⟨g, ?_, hgc.trans hcause⟩
  rw [objectText, spacedObject_append, read_object]
  exact hg

theorem fails_tooDeep (name : String) (s : Bytes) :
    Fails (read name (none : Option (Record σ α))) (byte '{' :: s) .tooDeep := by
  intro rest
  rw [List.cons_append, read, bind_ok (startOfValue_cons (by decide) _), if_pos (.inl rfl)]
  exact ⟨_, rfl, rfl⟩

end Record

end Reader

open Reader (Blank Reads Fails Stops)

variable {α : Type}

theorem parse_of_reads_blanks {r : Reader α} {t pad : Bytes} {a : α} (h : Reads r t a)
    (hpad : Blank pad) : parse r (t ++ pad) = .ok a := by
  have hstops : Stops (pad ++ []) := hpad.stops fun b hb => by cases hb
  have hend := Reader.skipsBlanks_peekToken pad [] hpad
  rw [List.append_nil] at hstops hend
  rw [parse, Reader.bind_ok (h.run pad hstops), Reader.bind_of_same hend]
  rfl

theorem parse_of_reads {r : Reader α} {t : Bytes} {a : α} (h : Reads r t a) :
    parse r t = .ok a := by
  have hparse := parse_of_reads_blanks h Blank.nil
  rwa [List.append_nil] at hparse

theorem parse_of_fails {r : Reader α} {t : Bytes} {c : Cause} (h : Fails r t c) :
    ∃ e, parse r t = .error e ∧ e.cause = c := by
  obtain ⟨f, hfault, hcause⟩ := h []
  rw [List.append_nil] at hfault
  refine ⟨f.locate t, ?_, ?_⟩
  · rw [parse, Reader.bind_error hfault]
  · rw [← hcause, Fault.locate]
    split <;> rfl

end TemplateTrace.Json
