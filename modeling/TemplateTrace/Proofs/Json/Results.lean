import TemplateTrace.Proofs.Json.Extents
import TemplateTrace.Proofs.Json.Shapes

namespace TemplateTrace.Json.Reader

variable {α β σ : Type} {P : α → Prop} {Q : β → Prop} {D : σ → Prop} {r : Reader α}
  {f : α → Reader β}

def Gives (P : α → Prop) (r : Reader α) : Prop := ∀ s a rest, r s = .ok (a, rest) → P a

theorem Gives.pure {a : α} (h : P a) : Gives P (Pure.pure a) := by
  intro s b rest hread
  cases hread
  exact h

theorem Gives.fail (cause : Cause) (place : Place) : Gives P (fail cause place) := nofun

theorem Gives.bind (hr : Gives P r) (hf : ∀ a, P a → Gives Q (f a)) : Gives Q (r >>= f) := by
  intro s b rest hread
  rcases h : r s with e | ⟨a, middle⟩
  · rw [bind_error h] at hread
    cases hread
  · rw [bind_ok h] at hread
    exact hf a (hr s a middle h) middle b rest hread

theorem Gives.after (hf : ∀ a, Gives Q (f a)) : Gives Q (r >>= f) := by
  have hr : Gives (fun _ => True) r := fun _ _ _ _ => trivial
  exact hr.bind fun a _ => hf a

theorem Gives.option {r : Reader (Option α)} {f : Option α → Reader β} (hnone : Gives Q (f none))
    (hsome : ∀ a, Gives Q (f (some a))) : Gives Q (r >>= f) := by
  apply Gives.after
  intro a?
  cases a? with
  | none => exact hnone
  | some a => exact hsome a

theorem Gives.optionally {c : Prop} [Decidable c] {r : Reader Unit} {f : Unit → Reader β}
    (hf : ∀ a, Gives Q (f a)) : Gives Q (if c then r >>= f else f ()) := by
  split
  · exact .after hf
  · exact hf ()

theorem gives_wrongType (wanted : Wanted) : Gives P (wrongType wanted : Reader α) := by
  intro s a rest hread
  have hwithin : Within 0 (fun _ : α => s.length + 1) (wrongType wanted) := within_wrongType wanted
  have hle := hwithin.of_read hread
  omega

theorem gives_whole (wanted : Wanted) (bound : Nat) : Gives (· ≤ bound) (whole wanted bound) := by
  apply Gives.after
  intro b
  split
  · refine .optionally fun _ => .after fun x => ?_
    cases x with
    | whole n =>
      dsimp only
      split
      · rename_i hn
        exact .pure hn
      · exact .fail _ _
    | negative n => exact .fail _ _
    | fraction isNegative x => exact .fail _ _
  · exact gives_wrongType wanted

theorem gives_optional (hr : Gives P r) : Gives (fun a? => ∀ a ∈ a?, P a) (optional r) := by
  apply Gives.after
  intro b?
  split
  · apply Gives.after
    intro _
    apply Gives.after
    intro _
    exact .pure nofun
  · refine hr.bind fun a ha => .pure ?_
    simpa using ha

theorem of_closedBy {content : Reader α} {close : Reader Unit} {s rest : Bytes} {a : α}
    (h : closedBy content close s = .ok (a, rest)) : ∃ t, content s = .ok (a, t) := by
  rw [closedBy] at h
  split at h
  · rename_i hread
    split at h
    · cases h
      exact ⟨_, hread⟩
    · cases h
  · split at h
    · split at h <;> cases h
    · cases h

theorem gives_closedBy {content : Reader α} (hcontent : Gives P content) (close : Reader Unit) :
    Gives P (closedBy content close) := by
  intro s a rest h
  obtain ⟨t, hread⟩ := of_closedBy h
  exact hcontent s a t hread

theorem gives_members {member : σ → Reader σ} (hmember : ∀ d, D d → Gives D (member d))
    (steps : Nat) (first : Bool) {d : σ} (hd : D d) : Gives D (members member steps first d) := by
  induction steps generalizing first d with
  | zero => exact .pure hd
  | succ steps ih =>
    apply Gives.after
    intro more
    split
    · exact (hmember d hd).bind fun e he => ih false he
    · exact .pure hd

theorem gives_numberKey : Gives (· ≤ maxCount) numberKey := by
  apply Gives.option
  · exact .fail _ _
  · intro b
    dsimp only
    split
    · refine (gives_whole .count maxCount).bind fun n hn => ?_
      apply Gives.after
      intro c?
      split
      · exact .after fun _ => .pure hn
      · exact .fail _ _
    · exact .fail _ _

theorem gives_table {value : Nat → Reader α} {depth : Nat} (hvalue : Gives P (value depth)) :
    Gives (fun t => ∀ e ∈ t.entries, e.1 ≤ maxCount ∧ P e.2) (table (depth + 1) value) := by
  apply Gives.after
  intro b
  split
  · apply Gives.after
    intro _
    apply gives_closedBy
    apply Gives.after
    intro steps
    refine gives_members (fun t ht => ?_) steps true (List.forall_mem_nil _)
    refine gives_numberKey.bind fun k hk => .after fun _ => hvalue.bind fun a ha => .pure ?_
    intro e he
    rcases Table.mem_insertEntry he with rfl | he
    · exact ⟨hk, ha⟩
    · exact ht e he
  · exact gives_wrongType _

namespace Record

variable {r : Record σ α}

theorem gives_member (hfields : ∀ f ∈ r.fields, ∀ d, D d → f.isSet d = false → Gives D (f.read d))
    {d : σ} (hd : D d) : Gives D (r.member d) := by
  apply Gives.after
  intro key
  split
  · rename_i f hfind
    split
    · exact .fail _ _
    · rename_i hset
      rw [Bool.not_eq_true] at hset
      exact .after fun _ => hfields f (List.mem_of_find?_eq_some hfind) d hd hset
  · exact .after fun _ => .after fun _ => .pure hd

theorem gives_positional {fields : List (Field σ)}
    (hfields : ∀ f ∈ fields, ∀ d, D d → Gives D (f.read d)) (i : Nat) {d : σ} (hd : D d) :
    Gives D (r.positional i fields d) := by
  induction fields generalizing i d with
  | nil => exact .pure hd
  | cons f rest ih =>
    rw [List.forall_mem_cons] at hfields
    apply Gives.after
    intro more
    split
    · exact (hfields.1 d hd).bind fun e he => ih hfields.2 _ he
    · split
      · exact ih hfields.2 _ hd
      · exact .fail _ _

theorem gives_complete (hfinish : ∀ d a, D d → r.finish d = .ok a → P a) {d : σ} (hd : D d) :
    Gives P (r.complete d) := by
  rw [complete]
  split
  · rename_i a ha
    exact .pure (hfinish d a hd ha)
  · exact .fail _ _

theorem gives_read (hblank : D r.blank) (hfields : ∀ f ∈ r.fields, ∀ d, D d → Gives D (f.read d))
    (hfinish : ∀ d a, D d → r.finish d = .ok a → P a) (name : String) :
    Gives P (read name (some r)) := by
  apply Gives.after
  intro b
  split
  · apply Gives.after
    intro _
    split
    · apply gives_closedBy
      apply Gives.after
      intro steps
      have hmember : ∀ d, D d → Gives D (r.member d) := fun d hd =>
        gives_member (fun f hf d hd _ => hfields f hf d hd) hd
      have hmembers := gives_members hmember steps true hblank
      exact hmembers.bind fun d hd => gives_complete hfinish hd
    · apply gives_closedBy
      exact (gives_positional hfields 0 hblank).bind fun d hd => gives_complete hfinish hd
  · exact gives_wrongType _

theorem gives_tooDeep (name : String) : Gives P (read name (none : Option (Record σ α))) := by
  apply Gives.after
  intro b
  split
  · exact .fail _ _
  · exact gives_wrongType _

end Record

end Reader

theorem read_of_parse {α : Type} {r : Reader α} {b : Bytes} {a : α} (h : parse r b = .ok a) :
    ∃ rest, r b = .ok (a, rest) := by
  rw [parse] at h
  rcases hread : r b with f | ⟨found, rest⟩
  · rw [Reader.bind_error hread] at h
    cases h
  · rw [Reader.bind_ok hread] at h
    rcases hpeek : Reader.peekToken rest with f | ⟨_ | b, tail⟩
    · rw [Reader.bind_error hpeek] at h
      cases h
    · rw [Reader.bind_ok hpeek] at h
      cases h
      exact ⟨rest, rfl⟩
    · rw [Reader.bind_ok hpeek] at h
      cases h

theorem of_parse {α : Type} {P : α → Prop} {r : Reader α} {b : Bytes} {a : α}
    (hr : Reader.Gives P r) (h : parse r b = .ok a) : P a := by
  obtain ⟨rest, hread⟩ := read_of_parse h
  exact hr b a rest hread

end TemplateTrace.Json
