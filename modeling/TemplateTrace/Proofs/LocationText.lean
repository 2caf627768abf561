import TemplateTrace.Location.Wire
import TemplateTrace.Proofs.Json.Written

/-!
A location table is read back as it was written just where none of its locations has more sites
than the reader opens containers inside the table. That is one more than it is for maps. It makes no
difference whether a location that nothing encloses says so or not.
-/

namespace TemplateTrace

open Json (Value maxCount)
open Json.Reader
open Text (bytes)

namespace Location

variable {null? : Option Nat} {s : Site} {parent : Json.Reader Location} {t : Table Location}

def Fits (l : Location) : Prop := ∀ s ∈ l.links, s.offset ≤ maxCount

instance (l : Location) : Decidable l.Fits := inferInstanceAs (Decidable (∀ s ∈ l.links, _))

def outermostMembers (null? : Option Nat) (s : Site) : List (String × Value) :=
  let own := [("path", .text s.path), ("offset", .number s.offset)]
  null?.elim own fun i => own.insertIdx i ("parent", .null)

def encodeSitesWith (null? : Option Nat) (s : Site) : List Site → Value
  | [] => .object (outermostMembers null? s)
  | t :: rest =>
    .object [("path", .text s.path), ("offset", .number s.offset),
      ("parent", encodeSitesWith null? t rest)]

def encodeTableWith (null? : Nat → Option Nat) (t : Table Location) : Value :=
  .object (t.entries.map fun e =>
    (toString e.1, encodeSitesWith (null? e.1) e.2.innermost e.2.enclosing))

theorem encodeSitesWith_none (s : Site) (rest : List Site) :
    encodeSitesWith none s rest = encodeSites s rest := by
  induction rest generalizing s with
  | nil => rfl
  | cons t rest ih => simp [encodeSitesWith, encodeSites, ih]

theorem encodeTableWith_none (t : Table Location) :
    encodeTableWith (fun _ => none) t = encodeTable t := by
  simp [encodeTableWith, encodeTable, encode, encodeSitesWith_none]

def sitesText (null? : Option Nat) (s : Site) (rest : List Site) : Bytes :=
  bytes (encodeSitesWith null? s rest).compact

def ownText (s : Site) : List Bytes :=
  [memberText (body "path") (bytes (Json.quoted s.path)),
    memberText (body "offset") (bytes (toString s.offset))]

theorem sitesText_nil (null? : Option Nat) (s : Site) :
    sitesText null? s [] = objectText ((outermostMembers null? s).map Json.writtenMember) := by
  rw [sitesText, encodeSitesWith, Json.bytes_object]

theorem sitesText_cons (null? : Option Nat) (s t : Site) (rest : List Site) :
    sitesText null? s (t :: rest) =
      objectText (ownText s ++ [memberText (body "parent") (sitesText null? t rest)]) := by
  rw [sitesText, encodeSitesWith, Json.bytes_object]
  rfl

theorem sitesText_eq_cons (null? : Option Nat) (s : Site) (rest : List Site) :
    ∃ text, sitesText null? s rest = byte '{' :: text := by
  cases rest with
  | nil => rw [sitesText_nil]; exact ⟨_, rfl⟩
  | cons t rest => rw [sitesText_cons]; exact ⟨_, rfl⟩

theorem advances_path {d : Draft} (hd : d.path = none) (path : String) :
    Advances (record parent).member d [memberText (body "path") (bytes (Json.quoted path))]
      { d with path := some path } := by
  refine .cons (Record.member_run rfl ?_ ?_) (.nil _)
  · simp [hd]
  · exact (reads_text path).map fun path => { d with path := some path }

theorem advances_offset {d : Draft} (hd : d.offset = none) {n : Nat} (hn : n ≤ maxCount) :
    Advances (record parent).member d [memberText (body "offset") (bytes (toString n))]
      { d with offset := some n } := by
  refine .cons (Record.member_run rfl ?_ ?_) (.nil _)
  · simp [hd]
  · exact (reads_count hn).map fun n => { d with offset := some n }

theorem advances_null {d : Draft} (hd : d.parent = none) :
    Advances (record parent).member d [memberText (body "parent") (bytes "null")]
      { d with parent := some none } := by
  refine .cons (Record.member_run rfl ?_ ?_) (.nil _)
  · simp [hd]
  · exact (reads_optional_null parent).map fun p => { d with parent := some p }

theorem advances_own (parent : Json.Reader Location) (hs : s.offset ≤ maxCount) :
    Advances (record parent).member {} (ownText s) { path := some s.path, offset := some s.offset } :=
  (advances_path rfl s.path).append (advances_offset rfl hs)

theorem advances_outermost (null? : Option Nat) (parent : Json.Reader Location)
    (hs : s.offset ≤ maxCount) :
    ∃ d, Advances (record parent).member {} ((outermostMembers null? s).map Json.writtenMember) d ∧
      (record parent).finish d = .ok ⟨s, []⟩ := by
  match null? with
  | none => exact ⟨_, advances_own parent hs, rfl⟩
  | some 0 =>
    exact ⟨_, (advances_null rfl).append ((advances_path rfl s.path).append (advances_offset rfl hs)), rfl⟩
  | some 1 =>
    exact ⟨_, (advances_path rfl s.path).append ((advances_null rfl).append (advances_offset rfl hs)), rfl⟩
  | some 2 => exact ⟨_, (advances_own parent hs).append (advances_null rfl), rfl⟩
  | some (_ + 3) => exact ⟨_, advances_own parent hs, rfl⟩

theorem reads_location {depth : Nat} {l : Location} (hfits : l.Fits) (hdepth : l.depth ≤ depth) :
    Reads (read depth) (sitesText null? l.innermost l.enclosing) l := by
  induction depth generalizing l with
  | zero => exact absurd l.depth_pos (Nat.not_lt.mpr hdepth)
  | succ depth ih =>
    have hinnermost := hfits l.innermost List.mem_cons_self
    obtain ⟨s, _ | ⟨t, rest⟩⟩ := l
    · obtain ⟨d, hd, hfinish⟩ := advances_outermost null? (read depth) hinnermost
      rw [sitesText_nil]
      exact Record.reads_object hd hfinish
    · have hparent : Reads (read depth) (sitesText null? t rest) ⟨t, rest⟩ := by
        apply @ih ⟨t, rest⟩
        · exact fun site hsite => hfits site (List.mem_cons_of_mem _ hsite)
        · exact Nat.le_of_succ_le_succ hdepth
      obtain ⟨text, htext⟩ := sitesText_eq_cons null? t rest
      have hmember := (hparent.optional (by rw [htext, List.head?_cons]; decide)).map fun p =>
        ({ path := some s.path, offset := some s.offset, parent := some p } : Draft)
      rw [sitesText_cons]
      exact Record.reads_object ((advances_own (read depth) hinnermost).append
        (.cons (Record.member_run rfl rfl hmember) (.nil _))) rfl

theorem fails_location {depth : Nat} {l : Location} (hfits : l.Fits) (hdepth : depth < l.depth) :
    Fails (read depth) (sitesText null? l.innermost l.enclosing) .tooDeep := by
  induction depth generalizing l with
  | zero =>
    obtain ⟨text, htext⟩ := sitesText_eq_cons null? l.innermost l.enclosing
    rw [htext]
    apply Record.fails_tooDeep
  | succ depth ih =>
    obtain ⟨s, _ | ⟨t, rest⟩⟩ := l
    · simp [Chain.depth, Chain.links] at hdepth
    · have hparent : Fails (read depth) (sitesText null? t rest) .tooDeep := by
        apply @ih ⟨t, rest⟩
        · exact fun site hsite => hfits site (List.mem_cons_of_mem _ hsite)
        · exact Nat.lt_of_succ_lt_succ hdepth
      obtain ⟨text, htext⟩ := sitesText_eq_cons null? t rest
      rw [htext] at hparent
      have hmember := (hparent.optional (by decide) (by decide)).bind fun p =>
        pure ({ path := some s.path, offset := some s.offset, parent := some p } : Draft)
      rw [sitesText_cons, htext]
      exact Record.fails_object (advances_own (read depth) (hfits s List.mem_cons_self))
        (Record.member_fails rfl rfl hmember)

def maxSites : Nat := 126

def TableFits (t : Table Location) : Prop := ∀ e ∈ t.entries, e.1 ≤ maxCount ∧ e.2.Fits

instance (t : Table Location) : Decidable (TableFits t) :=
  inferInstanceAs (Decidable (∀ e ∈ t.entries, _))

theorem bytes_encodeTableWith (null? : Nat → Option Nat) (t : Table Location) :
    bytes (encodeTableWith null? t).compact = objectText (t.entries.map fun e =>
      memberText (bytes (toString e.1)) (sitesText (null? e.1) e.2.innermost e.2.enclosing)) := by
  rw [encodeTableWith, Json.bytes_object, List.map_map]
  congr 2
  funext e
  rw [Function.comp_apply, Json.writtenMember, Json.body_toString]
  rfl

theorem decodeTable_encodeTableWith (hfits : TableFits t) (hdepth : ∀ e ∈ t.entries, e.2.depth ≤ maxSites)
    (null? : Nat → Option Nat) : decodeTable (bytes (encodeTableWith null? t).compact) = .ok t := by
  rw [bytes_encodeTableWith]
  apply Json.parse_of_reads
  apply @reads_table _ read (fun e => sitesText (null? e.1) e.2.innermost e.2.enclosing) t maxSites
  intro e he
  exact ⟨(hfits e he).1, reads_location (hfits e he).2 (hdepth e he)⟩

theorem decodeTable_encodeTableWith_tooDeep (hfits : TableFits t)
    (hdepth : ∃ e ∈ t.entries, maxSites < e.2.depth) (null? : Nat → Option Nat) :
    ∃ e, decodeTable (bytes (encodeTableWith null? t).compact) = .error e ∧ e.cause = .tooDeep := by
  rw [bytes_encodeTableWith]
  apply Json.parse_of_fails
  apply @fails_table _ read (fun e => sitesText (null? e.1) e.2.innermost e.2.enclosing) t.entries maxSites
  · exact fun e he => (hfits e he).1
  · intro e he
    by_cases hle : e.2.depth ≤ maxSites
    · exact .inl (reads_location (hfits e he).2 hle)
    · exact .inr (fails_location (hfits e he).2 (Nat.lt_of_not_le hle))
  · obtain ⟨e, he, hlt⟩ := hdepth
    exact ⟨e, he, fails_location (hfits e he).2 hlt⟩

theorem decodeTable_encodeTable
    (hfits : TableFits t) (hdepth : ∀ e ∈ t.entries, e.2.depth ≤ maxSites) :
    decodeTable (bytes (encodeTable t).compact) = .ok t := by
  rw [← encodeTableWith_none]
  exact decodeTable_encodeTableWith hfits hdepth _

/-- A written table is read back, and as the same table, just where its chains are short enough;
otherwise its text is rejected as too deep. Both are so for every choice of null parents too. -/
theorem decodeTable_encodeTable_iff (hfits : TableFits t) :
    (decodeTable (bytes (encodeTable t).compact) = .ok t ↔ ∀ l ∈ t.values, l.depth ≤ 126) ∧
      ((∃ l ∈ t.values, 126 < l.depth) → ∃ e : Json.Error, e.cause = .tooDeep ∧
        decodeTable (bytes (encodeTable t).compact) = .error e) ∧
      ∀ null? : Nat → Option Nat,
        (decodeTable (bytes (encodeTableWith null? t).compact)).toOption =
          (decodeTable (bytes (encodeTable t).compact)).toOption ∧
        ((∃ l ∈ t.values, 126 < l.depth) → ∃ e : Json.Error, e.cause = .tooDeep ∧
          decodeTable (bytes (encodeTableWith null? t).compact) = .error e) := by
  have hdeep (null? : Nat → Option Nat) : (∃ l ∈ t.values, 126 < l.depth) → ∃ e : Json.Error,
      e.cause = .tooDeep ∧ decodeTable (bytes (encodeTableWith null? t).compact) = .error e := by
    rintro ⟨l, hl, hlt⟩
    obtain ⟨e, he, rfl⟩ := List.mem_map.mp hl
    obtain ⟨error, hread, hcause⟩ := decodeTable_encodeTableWith_tooDeep hfits ⟨e, he, hlt⟩ null?
    exact ⟨error, hcause, hread⟩
  have hshort (null? : Nat → Option Nat) (h : ∀ l ∈ t.values, l.depth ≤ 126) :
      decodeTable (bytes (encodeTableWith null? t).compact) = .ok t :=
    decodeTable_encodeTableWith hfits (fun e he => h e.2 (List.mem_map_of_mem he)) null?
  rw [← encodeTableWith_none]
  refine ⟨⟨fun hread l hl => ?_, hshort _⟩, hdeep _, fun null? => ⟨?_, hdeep null?⟩⟩
  · by_contra hlt
    obtain ⟨e, -, herror⟩ := hdeep _ ⟨l, hl, Nat.lt_of_not_le hlt⟩
    rw [hread] at herror
    cases herror
  · by_cases h : ∀ l ∈ t.values, l.depth ≤ 126
    · rw [hshort _ h, hshort _ h]
    · simp only [not_forall, Nat.not_le] at h
      obtain ⟨l, hl, hlt⟩ := h
      obtain ⟨e, -, herror⟩ := hdeep null? ⟨l, hl, hlt⟩
      obtain ⟨e', -, herror'⟩ := hdeep (fun _ => none) ⟨l, hl, hlt⟩
      rw [herror, herror']
      rfl

def nested (enclosing : Nat) : Table Location :=
  ⟨[(0, ⟨⟨"views/\"é\".tpl", maxCount⟩, []⟩),
    (maxCount, ⟨⟨"a\\b\n", 7⟩, List.replicate enclosing ⟨"", 0⟩⟩)], by simp; decide⟩

theorem decodeTable_encodeTable_iff_nested :
    decodeTable (bytes (encodeTable (nested 125)).compact) = .ok (nested 125) ∧
      decodeTable (bytes (encodeTable (nested 126)).compact) ≠ .ok (nested 126) ∧
      (decodeTable (bytes (encodeTableWith some (nested 125)).compact)).toOption = some (nested 125) := by
  have hread := (@decodeTable_encodeTable_iff (nested 125) (by decide +kernel)).1.mpr (by decide +kernel)
  refine ⟨hread, fun h => ?_, ?_⟩
  · have hdepth := (@decodeTable_encodeTable_iff (nested 126) (by decide +kernel)).1.mp h
    exact absurd hdepth (by decide +kernel)
  · rw [((@decodeTable_encodeTable_iff (nested 125) (by decide +kernel)).2.2 some).1, hread]
    rfl

end Location

end TemplateTrace
