import TemplateTrace.Proofs.Json.Written
import TemplateTrace.SourceMap.Wire

namespace TemplateTrace

open Json (Value maxCount maxCount32)
open Json.Reader
open Text (bytes)

namespace Link

def Fits (l : Link) : Prop := l.file ≤ maxCount ∧ l.line ≤ maxCount

instance (l : Link) : Decidable l.Fits := inferInstanceAs (Decidable (_ ∧ _))

def chainText (links : List Link) : Bytes := bytes (encodeChain links).compact

def ownText (l : Link) : List Bytes :=
  [memberText (body "path") (bytes (toString l.file)),
    memberText (body "line") (bytes (toString l.line))]

theorem chainText_cons (l : Link) (rest : List Link) : chainText (l :: rest) =
    objectText (l.ownText ++ [memberText (body "parent") (chainText rest)]) := by
  rw [chainText, encodeChain, Json.bytes_object]
  rfl

theorem advances_own (parent : Json.Reader (Chain Link)) {l : Link} (h : l.Fits) :
    Advances (record parent).member {} l.ownText { file := some l.file, line := some l.line } := by
  have hfile := (reads_count h.1).map fun n => ({ file := some n } : Draft)
  have hline := (reads_count h.2).map fun n => ({ file := some l.file, line := some n } : Draft)
  exact .cons (Record.member_run rfl rfl hfile) (.cons (Record.member_run rfl rfl hline) (.nil _))

theorem reads_parent {parent : Json.Reader (Chain Link)} {c : Chain Link}
    (h : ∀ p, c.parent = some p → Reads parent (chainText p.links) p) :
    Reads (optional parent) (chainText c.enclosing) c.parent := by
  obtain ⟨l, _ | ⟨k, rest⟩⟩ := c
  · exact reads_optional_null parent
  · refine (h ⟨k, rest⟩ rfl).optional ?_
    rw [Chain.links, chainText_cons, head?_objectText]
    decide

theorem reads_chain {depth : Nat} {c : Chain Link} (hfits : ∀ l ∈ c.links, l.Fits)
    (hdepth : c.depth ≤ depth) : Reads (readChain depth) (chainText c.links) c := by
  induction depth generalizing c with
  | zero => exact absurd c.depth_pos (Nat.not_lt.mpr hdepth)
  | succ depth ih =>
    -- A parent opens its container inside this one, so it has one level less.
    have hparent : Reads (optional (readChain depth)) (chainText c.enclosing) c.parent := by
      apply reads_parent
      intro p hp
      have hlinks : c.links = c.innermost :: p.links := by
        rw [← c.within_parent, hp]
        rfl
      apply ih
      · intro l hl
        exact hfits l (hlinks ▸ List.mem_cons_of_mem _ hl)
      · rw [Chain.depth, hlinks, List.length_cons] at hdepth
        exact Nat.le_of_succ_le_succ hdepth
    have hmember := hparent.map fun p =>
      ({ file := some c.innermost.file, line := some c.innermost.line, parent := some p } : Draft)
    have hown := advances_own (readChain depth) (hfits c.innermost List.mem_cons_self)
    rw [Chain.links, chainText_cons]
    refine Record.reads_object
      (hown.append (.cons (Record.member_run rfl rfl hmember) (.nil _))) ?_
    exact congrArg Except.ok c.within_parent

theorem fails_chain {depth : Nat} {c : Chain Link} (hfits : ∀ l ∈ c.links, l.Fits)
    (hdepth : depth < c.depth) : Fails (readChain depth) (chainText c.links) .tooDeep := by
  induction depth generalizing c with
  | zero =>
    rw [Chain.links, chainText_cons]
    exact Record.fails_tooDeep _ _
  | succ depth ih =>
    obtain ⟨l, _ | ⟨k, rest⟩⟩ := c
    · exact absurd hdepth (by simp [Chain.depth, Chain.links])
    · have hparent : Fails (readChain depth) (chainText (k :: rest)) .tooDeep := by
        apply @ih ⟨k, rest⟩
        · intro l hl
          exact hfits l (List.mem_cons_of_mem _ hl)
        · exact Nat.lt_of_succ_lt_succ hdepth
      rw [chainText_cons] at hparent
      have hmember := (hparent.optional (by decide) (by decide)).bind fun p =>
        pure ({ file := some l.file, line := some l.line, parent := some p } : Draft)
      have hown := advances_own (readChain depth) (hfits l List.mem_cons_self)
      rw [Chain.links, chainText_cons, chainText_cons]
      exact Record.fails_object hown (Record.member_fails rfl rfl hmember)

end Link

namespace SourceMap

def Fits (m : SourceMap) : Prop :=
  (∀ e ∈ m.lines.entries, e.1 ≤ maxCount) ∧ ∀ l ∈ m.links, l.Fits

instance (m : SourceMap) : Decidable m.Fits := inferInstanceAs (Decidable (_ ∧ _))

theorem Fits.chain {m : SourceMap} (h : m.Fits) {e : Nat × Chain Link} (he : e ∈ m.lines.entries) :
    ∀ l ∈ e.2.links, l.Fits := fun l hl =>
  h.2 l (List.mem_flatMap.mpr ⟨e.2, List.mem_map_of_mem he, hl⟩)

def wire (version : Option Nat) (m : SourceMap) : Value :=
  .object ((version.map fun v => ("version", .number v)).toList ++
    [("paths", .list (m.files.map .text)),
      ("lines", .object (m.lines.entries.map fun e => (toString e.1, Link.encodeChain e.2.links)))])

theorem serialize_eq (m : SourceMap) : m.serialize = (wire (some formatVersion) m).compact := rfl

def filesText (m : SourceMap) : Bytes := bytes (Value.list (m.files.map .text)).compact

def linesText (entries : List (Nat × Chain Link)) : Bytes :=
  objectText (entries.map fun e => memberText (bytes (toString e.1)) (Link.chainText e.2.links))

def headText (version : Option Nat) (m : SourceMap) : List Bytes :=
  (version.map fun v => memberText (body "version") (bytes (toString v))).toList ++
    [memberText (body "paths") m.filesText]

theorem bytes_lines (entries : List (Nat × Chain Link)) :
    bytes (Value.object (entries.map fun e => (toString e.1, Link.encodeChain e.2.links))).compact =
      linesText entries := by
  rw [Json.bytes_object, List.map_map, linesText]
  congr 2
  funext e
  rw [Function.comp_apply, Json.writtenMember, Json.body_toString]
  rfl

theorem bytes_wire (version : Option Nat) (m : SourceMap) : bytes (wire version m).compact =
    objectText (headText version m ++ [memberText (body "lines") (linesText m.lines.entries)]) := by
  rw [wire, Json.bytes_object, ← bytes_lines]
  cases version <;> rfl

theorem reads_files (m : SourceMap) (depth : Nat) :
    Reads (sequence (depth + 1) fun _ => text) m.filesText m.files := by
  have hread := @reads_sequence _ (fun _ => text) (fun s => bytes (Json.quoted s)) m.files depth
    (fun s _ => reads_text s) .none
  rw [filesText, Json.bytes_list, List.map_map]
  exact hread

theorem advances_head {version : Option Nat} (hversion : ∀ v ∈ version, v ≤ maxCount32)
    (m : SourceMap) (depth : Nat) : Advances (record (depth + 1)).member {} (headText version m)
      { version := version, files := some m.files } := by
  have hfirst : Advances (record (depth + 1)).member {}
      (version.map fun v => memberText (body "version") (bytes (toString v))).toList
      { version := version } := by
    cases version with
    | none => exact .nil _
    | some v =>
      have hread := (reads_count32 (hversion v rfl)).map fun n => ({ version := some n } : Draft)
      exact .cons (Record.member_run rfl rfl hread) (.nil _)
  have hfiles := (reads_files m depth).map fun files =>
    ({ version := version, files := some files } : Draft)
  exact hfirst.append (.cons (Record.member_run rfl rfl hfiles) (.nil _))

theorem reads_lines {m : SourceMap} {depth : Nat} (hfits : m.Fits)
    (hdepth : ∀ e ∈ m.lines.entries, e.2.depth ≤ depth) :
    Reads (table (depth + 1) Link.readChain) (linesText m.lines.entries) m.lines :=
  @reads_table _ Link.readChain (fun e => Link.chainText e.2.links) m.lines depth fun e he =>
    ⟨hfits.1 e he, Link.reads_chain (hfits.chain he) (hdepth e he)⟩

theorem fails_lines {m : SourceMap} {depth : Nat} (hfits : m.Fits)
    (hdepth : ∃ e ∈ m.lines.entries, depth < e.2.depth) :
    Fails (table (depth + 1) Link.readChain) (linesText m.lines.entries) .tooDeep := by
  apply @fails_table _ Link.readChain (fun e => Link.chainText e.2.links) m.lines.entries depth
  · exact hfits.1
  · intro e he
    by_cases hle : e.2.depth ≤ depth
    · exact .inl (Link.reads_chain (hfits.chain he) hle)
    · exact .inr (Link.fails_chain (hfits.chain he) (Nat.lt_of_not_le hle))
  · obtain ⟨e, he, hlt⟩ := hdepth
    exact ⟨e, he, Link.fails_chain (hfits.chain he) hlt⟩

def maxLinks : Nat := 125

theorem decode_wire {version : Option Nat} {m : SourceMap} (hversion : ∀ v ∈ version, v ≤ maxCount32)
    (hfits : m.Fits) (hdepth : ∀ e ∈ m.lines.entries, e.2.depth ≤ maxLinks) :
    decode (bytes (wire version m).compact) = .ok (version.getD formatVersion, m) := by
  have hlines := (reads_lines hfits hdepth).map fun lines =>
    ({ version := version, files := some m.files, lines := some lines } : Draft)
  have hlast : Advances (record (maxLinks + 1)).member
      { version := version, files := some m.files }
      [memberText (body "lines") (linesText m.lines.entries)]
      { version := version, files := some m.files, lines := some m.lines } :=
    .cons (Record.member_run rfl rfl hlines) (.nil _)
  rw [bytes_wire]
  exact Json.parse_of_reads
    (Record.reads_object ((advances_head hversion m maxLinks).append hlast) rfl)

theorem decode_wire_tooDeep {version : Option Nat} {m : SourceMap}
    (hversion : ∀ v ∈ version, v ≤ maxCount32) (hfits : m.Fits)
    (hdepth : ∃ e ∈ m.lines.entries, maxLinks < e.2.depth) :
    ∃ e, decode (bytes (wire version m).compact) = .error e ∧ e.cause = .tooDeep := by
  have hlines := (fails_lines hfits hdepth).bind fun lines =>
    pure ({ version := version, files := some m.files, lines := some lines } : Draft)
  have hhead := advances_head hversion m maxLinks
  rw [bytes_wire]
  exact Json.parse_of_fails (Record.fails_object hhead (Record.member_fails rfl rfl hlines))

theorem read_written {m : SourceMap} (hclosed : m.Closed) (hfits : m.Fits)
    (hdepth : ∀ e ∈ m.lines.entries, e.2.depth ≤ maxLinks) :
    deserialize (bytes m.serialize) = .ok m := by
  have hversion : ∀ v ∈ some formatVersion, v ≤ maxCount32 := by decide
  rw [serialize_eq, deserialize, decode_wire hversion hfits hdepth]
  simp only [Option.getD_some, ne_eq, not_true_eq_false, if_false]
  rw [(dangling?_eq_none_iff m).mpr hclosed]

theorem read_written_tooDeep {m : SourceMap} (hfits : m.Fits)
    (hdepth : ∃ e ∈ m.lines.entries, maxLinks < e.2.depth) :
    ∃ e : Json.Error, e.cause = .tooDeep ∧
      deserialize (bytes m.serialize) = .error (.malformed e.message) := by
  have hversion : ∀ v ∈ some formatVersion, v ≤ maxCount32 := by decide
  obtain ⟨e, hdecode, hcause⟩ := decode_wire_tooDeep hversion hfits hdepth
  refine ⟨e, hcause, ?_⟩
  rw [serialize_eq, deserialize, hdecode]

theorem eq_of_read_written {m map : SourceMap} (hclosed : m.Closed) (hfits : m.Fits)
    (h : deserialize (bytes m.serialize) = .ok map) : map = m := by
  by_cases hdepth : ∀ e ∈ m.lines.entries, e.2.depth ≤ maxLinks
  · rw [read_written hclosed hfits hdepth] at h
    cases h
    rfl
  · simp only [not_forall, Nat.not_le] at hdepth
    obtain ⟨e, he, hlt⟩ := hdepth
    obtain ⟨error, -, hread⟩ := read_written_tooDeep hfits ⟨e, he, hlt⟩
    rw [hread] at h
    cases h

/-- A written map is read back, and as the same map, just when its chains are short enough;
otherwise the text of the map is rejected as too deep. -/
theorem deserialize_serialize {m : SourceMap} (hclosed : m.Closed) (hfits : m.Fits) :
    (deserialize (bytes m.serialize) = .ok m ↔ ∀ c ∈ m.lines.values, c.depth ≤ 125) ∧
      ((∃ c ∈ m.lines.values, 125 < c.depth) → ∃ e : Json.Error, e.cause = .tooDeep ∧
        deserialize (bytes m.serialize) = .error (.malformed e.message)) := by
  have hdeep : (∃ c ∈ m.lines.values, 125 < c.depth) → ∃ e : Json.Error, e.cause = .tooDeep ∧
      deserialize (bytes m.serialize) = .error (.malformed e.message) := by
    rintro ⟨c, hc, hlt⟩
    obtain ⟨e, he, rfl⟩ := List.mem_map.mp hc
    exact read_written_tooDeep hfits ⟨e, he, hlt⟩
  refine ⟨⟨fun hread c hc => ?_, fun hdepth => ?_⟩, hdeep⟩
  · by_contra hlt
    obtain ⟨e, -, herror⟩ := hdeep ⟨c, hc, Nat.lt_of_not_le hlt⟩
    rw [hread] at herror
    cases herror
  · exact read_written hclosed hfits fun e he => hdepth e.2 (List.mem_map_of_mem he)

def nested (enclosing : Nat) : SourceMap where
  files := ["/views/\"é\".tpl", "a\\b\n"]
  lines := ⟨[(maxCount, ⟨⟨0, maxCount⟩, List.replicate enclosing ⟨1, 2⟩⟩)], by simp⟩

theorem deserialize_serialize_nested :
    deserialize (bytes (nested 124).serialize) = .ok (nested 124) ∧
      deserialize (bytes (nested 125).serialize) ≠ .ok (nested 125) := by
  constructor
  · exact (deserialize_serialize (by decide +kernel) (by decide +kernel)).1.mpr (by decide +kernel)
  · intro h
    have hdepth := (deserialize_serialize (by decide +kernel) (by decide +kernel)).1.mp h
    exact absurd hdepth (by decide +kernel)

end SourceMap

end TemplateTrace
