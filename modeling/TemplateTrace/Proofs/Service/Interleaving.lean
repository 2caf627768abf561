import TemplateTrace.Proofs.Service.Steps
import TemplateTrace.Store.Memory

/-!
Clients of one store whose calls interleave. A client that has read a text that is no map removes
what is under its key in a second call, and what it removes may be a map that was recorded in
between. So a recorded map stays exactly as long as no client that read before it goes on.
-/

namespace TemplateTrace

open SourceMap (maxLinks TableFits)

abbrev Client := Steps (Except Failure ServiceAnswer)

def ServiceCall.Alters (key : String) : ServiceCall → Prop
  | record k _ _ => k = key
  | forget k => k = key
  | _ => False

/-- Clients that each have one call of the service to do. A client that does several is one of them
for each. -/
structure Shared where
  maps : MemoryStore
  clients : List Client

namespace Shared

def start (maps : MemoryStore) (requests : List Request) : Shared :=
  ⟨maps, requests.map Request.steps⟩

def step (s : Shared) (i : Nat) : Shared :=
  match s.clients[i]? with
  | some (.call c next) =>
    let (answer, maps) := runFrom (c.run MemoryStore.store) s.maps
    ⟨maps, s.clients.set i (next answer)⟩
  | _ => s

def run (s : Shared) (schedule : List Nat) : Shared := schedule.foldl step s

def text? (s : Shared) (key : String) : Option String := Assoc.lookup key s.maps.entries

def next? (s : Shared) (i : Nat) : Option StoreCall := s.clients[i]?.bind Steps.next?

end Shared

namespace Steps

variable {α : Type} {key text : String}

/-- No call has to do with the key, whatever the answers are. -/
def Quiet (key : String) : Steps α → Prop
  | done _ => True
  | call c next => c.key? ≠ some key ∧ ∀ answer, (next answer).Quiet key

/-- Nothing is put under the key, and it is only removed after another text than the given one was
read. -/
inductive Reader (key text : String) : Steps α → Prop
  | quiet {p : Steps α} (h : p.Quiet key) : Reader key text p
  | reads {next : Except Error (Option String) → Steps α} (hnext : ∀ answer, Reader key text (next answer))
      (hheld : (next (.ok (some text))).Quiet key) : Reader key text (call (.get key) next)
  | removes {next : Except Error Unit → Steps α} (hnext : ∀ answer, (next answer).Quiet key) :
      Reader key text (call (.remove key) next)

theorem Quiet.next?_ne {p : Steps α} (h : p.Quiet key) : p.next? ≠ some (.remove key) := by
  cases p with
  | done a => simp [next?]
  | call c next =>
    rintro heq
    cases heq
    exact h.1 rfl

theorem lookup_run {c : StoreCall} (h : c.key? ≠ some key) (m : MemoryStore) :
    Assoc.lookup key (runFrom (c.run MemoryStore.store) m).2.entries = Assoc.lookup key m.entries := by
  cases c with
  | put k t =>
    have hk : key ≠ k := fun heq => h (congrArg some heq.symm)
    exact (Assoc.lookup_insert _ _ _ _).trans (if_neg hk)
  | remove k =>
    have hk : key ≠ k := fun heq => h (congrArg some heq.symm)
    exact (Assoc.lookup_erase _ _ _).trans (if_neg hk)
  | get k => rfl
  | keys => rfl

end Steps

namespace Request

variable {q : Request} {key text : String}

theorem quiet_read {k : String} (hasks : q.call.asksFor? = some k) (h : some k ≠ some key) :
    q.steps.Quiet key := by
  rw [steps_read hasks]
  refine ⟨h, ?_⟩
  rintro (e | _ | found)
  · trivial
  · trivial
  · rcases hfound : SourceMap.deserialize (Text.bytes found) with e | map
    · simp only [hfound]
      refine ⟨h, ?_⟩
      rintro (_ | _) <;> trivial
    · simp only [hfound]
      trivial

theorem quiet_steps (h : q.call.key? ≠ some key) : q.steps.Quiet key := by
  rcases hcall : q.call with ⟨k, content, table⟩ | k | ⟨k, line⟩ | k | k | _
  · rw [hcall] at h
    rw [steps_record hcall]
    rcases SourceMap.built q.load content table with e | map
    · trivial
    · refine ⟨h, ?_⟩
      rintro (_ | _) <;> trivial
  · rw [hcall] at h
    exact quiet_read (by rw [hcall]; rfl) h
  · rw [hcall] at h
    exact quiet_read (by rw [hcall]; rfl) h
  · rw [hcall] at h
    exact quiet_read (by rw [hcall]; rfl) h
  · rw [hcall] at h
    rw [steps_forget hcall]
    refine ⟨h, ?_⟩
    rintro (_ | _) <;> trivial
  · rw [steps_keys hcall]
    refine ⟨nofun, ?_⟩
    rintro (_ | _) <;> trivial

theorem reader_steps {map : SourceMap} (hread : SourceMap.deserialize (Text.bytes text) = .ok map)
    (h : ¬ q.call.Alters key) : q.steps.Reader key text := by
  by_cases hasks : q.call.asksFor? = some key
  · rw [steps_read hasks]
    refine .reads ?_ ?_
    · rintro (e | _ | found)
      · exact .quiet trivial
      · exact .quiet trivial
      · rcases hfound : SourceMap.deserialize (Text.bytes found) with e | other
        · simp only [hfound]
          refine .removes ?_
          rintro (_ | _) <;> trivial
        · simp only [hfound]
          exact .quiet trivial
    · simp only [hread]
      trivial
  · apply Steps.Reader.quiet
    apply quiet_steps
    intro hkey
    cases hcall : q.call <;> rw [hcall] at h hasks hkey
    case record => exact h (Option.some.inj hkey)
    case forget => exact h (Option.some.inj hkey)
    case keys => cases hkey
    all_goals exact hasks hkey

end Request

namespace Shared

variable {s : Shared} {key text : String} {i : Nat}

theorem step_call {c : StoreCall} {next : Except Error c.Answer → Client}
    (h : s.clients[i]? = some (.call c next)) :
    s.step i = ⟨(runFrom (c.run MemoryStore.store) s.maps).2,
      s.clients.set i (next (runFrom (c.run MemoryStore.store) s.maps).1)⟩ := by
  rw [step, h]

theorem step_idle (h : s.next? i = none) : s.step i = s := by
  rw [step]
  rcases hp : s.clients[i]? with _ | ⟨a⟩ | ⟨c, next⟩
  · rfl
  · rfl
  · rw [next?, hp] at h
    cases h

theorem clients_step_of_ne {j : Nat} (h : j ≠ i) : (s.step i).clients[j]? = s.clients[j]? := by
  rcases hp : s.clients[i]? with _ | ⟨a⟩ | ⟨c, next⟩
  · rw [step_idle (by rw [next?, hp]; rfl)]
  · rw [step_idle (by rw [next?, hp]; rfl)]
  · rw [step_call hp]
    exact List.getElem?_set_ne (Ne.symm h)

theorem clients_step_done {r : Nat} {a : Except Failure ServiceAnswer}
    (h : s.clients[r]? = some (.done a)) : (s.step i).clients[r]? = some (.done a) := by
  by_cases hi : r = i
  · subst hi
    rwa [step_idle (by rw [next?, h]; rfl)]
  · rwa [clients_step_of_ne hi]

theorem step_cases {p : Client} (hp : s.clients[i]? = some p) (hreader : p.Reader key text) :
    ∃ q : Client, (s.step i).clients[i]? = some q ∧ q.Reader key text ∧
      (s.next? i = some (.remove key) ∧ (s.step i).text? key = none ∨
        s.next? i ≠ some (.remove key) ∧ (s.step i).text? key = s.text? key ∧
          (s.text? key = some text → q.next? ≠ some (.remove key))) := by
  have hnext : s.next? i = p.next? := by rw [next?, hp]; rfl
  have hlt : i < s.clients.length := (List.getElem?_eq_some_iff.mp hp).1
  have hset : ∀ q : Client, (s.clients.set i q)[i]? = some q := by
    intro q
    rw [List.getElem?_set_self hlt]
  rw [hnext]
  cases hreader with
  | quiet h =>
    cases p with
    | done a =>
      refine ⟨.done a, clients_step_done hp, .quiet trivial, .inr ⟨nofun, ?_, fun _ => nofun⟩⟩
      rw [step_idle hnext]
    | call c next =>
      rw [step_call hp]
      refine ⟨_, hset _, .quiet (h.2 _), .inr ⟨h.next?_ne, ?_, fun _ => (h.2 _).next?_ne⟩⟩
      exact Steps.lookup_run h.1 s.maps
  | @reads next hall hheld =>
    rw [step_call hp]
    refine ⟨_, hset _, hall _, .inr ⟨nofun, rfl, fun htext => ?_⟩⟩
    have hanswer : (runFrom (StoreCall.run MemoryStore.store (.get key)) s.maps).1 = .ok (some text) :=
      congrArg Except.ok htext
    rw [hanswer]
    exact hheld.next?_ne
  | @removes next hall =>
    rw [step_call hp]
    refine ⟨_, hset _, .quiet (hall _), .inl ⟨rfl, ?_⟩⟩
    exact (Assoc.lookup_erase _ _ _).trans (if_pos rfl)

def Readers (key text : String) (r : Option Nat) (s : Shared) : Prop :=
  ∀ i p, some i ≠ r → s.clients[i]? = some p → p.Reader key text

theorem run_cons (s : Shared) (i : Nat) (rest : List Nat) :
    s.run (i :: rest) = (s.step i).run rest := rfl

theorem run_append (s : Shared) (before later : List Nat) :
    s.run (before ++ later) = (s.run before).run later := List.foldl_append

theorem clients_run_done {r : Nat} {a : Except Failure ServiceAnswer}
    (h : s.clients[r]? = some (.done a)) (schedule : List Nat) :
    (s.run schedule).clients[r]? = some (.done a) := by
  induction schedule generalizing s with
  | nil => exact h
  | cons i rest ih => exact ih (clients_step_done h)

theorem clients_run_of_not_mem {r : Nat} {schedule : List Nat} (h : r ∉ schedule) :
    (s.run schedule).clients[r]? = s.clients[r]? := by
  induction schedule generalizing s with
  | nil => rfl
  | cons i rest ih =>
    rw [List.mem_cons, not_or] at h
    rw [run_cons, ih h.2, clients_step_of_ne h.1]

theorem Readers.step {r : Option Nat} (h : Readers key text r s) (hi : some i ≠ r) :
    Readers key text r (s.step i) := by
  intro j p hj hp
  by_cases heq : j = i
  · subst heq
    rcases hold : s.clients[j]? with _ | old
    · rw [step_idle (by rw [next?, hold]; rfl), hold] at hp
      cases hp
    · obtain ⟨q, hq, hreader, -⟩ := step_cases hold (h j old hi hold)
      rw [hq] at hp
      cases hp
      exact hreader
  · rw [clients_step_of_ne heq] at hp
    exact h j p hj hp

theorem Readers.run {r : Option Nat} (h : Readers key text r s) {schedule : List Nat}
    (hr : ∀ i ∈ schedule, some i ≠ r) : Readers key text r (s.run schedule) := by
  induction schedule generalizing s with
  | nil => exact h
  | cons i rest ih =>
    exact ih (h.step (hr i List.mem_cons_self)) fun j hj => hr j (List.mem_cons_of_mem _ hj)

theorem text?_run_of_none (h : Readers key text none s) (hnone : s.text? key = none)
    (schedule : List Nat) : (s.run schedule).text? key = none := by
  induction schedule generalizing s with
  | nil => exact hnone
  | cons i rest ih =>
    apply ih (h.step nofun)
    rcases hp : s.clients[i]? with _ | p
    · rwa [step_idle (by rw [next?, hp]; rfl)]
    · obtain ⟨q, -, -, hremoved | hkept⟩ := step_cases hp (h i p nofun hp)
      · exact hremoved.2
      · rw [hkept.2.1, hnone]

theorem next?_step_iff (h : Readers key text none s) (htext : s.text? key = some text)
    (hi : s.next? i ≠ some (.remove key)) (j : Nat) :
    (s.step i).next? j = some (.remove key) ↔ s.next? j = some (.remove key) := by
  by_cases heq : j = i
  · subst heq
    rcases hp : s.clients[j]? with _ | p
    · rw [step_idle (by rw [next?, hp]; rfl)]
    · obtain ⟨q, hq, -, hremoved | hkept⟩ := step_cases hp (h j p nofun hp)
      · exact absurd hremoved.1 hi
      · have hnext : (s.step j).next? j = q.next? := by rw [next?, hq]; rfl
        rw [hnext]
        exact iff_of_false (hkept.2.2 htext) hi
  · rw [next?, next?, clients_step_of_ne heq]

theorem text?_run_iff (h : Readers key text none s) (htext : s.text? key = some text)
    (schedule : List Nat) :
    (s.run schedule).text? key = some text ↔ ∀ i ∈ schedule, s.next? i ≠ some (.remove key) := by
  -- While the text is there, no step makes a client one that is about to remove it.
  induction schedule generalizing s with
  | nil => exact iff_of_true htext nofun
  | cons i rest ih =>
    rw [run_cons, List.forall_mem_cons]
    by_cases hi : s.next? i = some (.remove key)
    · have hnone : (s.step i).text? key = none := by
        rcases hp : s.clients[i]? with _ | p
        · rw [next?, hp] at hi
          cases hi
        · obtain ⟨q, -, -, hremoved | hkept⟩ := step_cases hp (h i p nofun hp)
          · exact hremoved.2
          · exact absurd hi hkept.1
      rw [text?_run_of_none (h.step nofun) hnone]
      exact iff_of_false nofun fun hall => hall.1 hi
    · have hkept : (s.step i).text? key = some text := by
        rcases hp : s.clients[i]? with _ | p
        · rwa [step_idle (by rw [next?, hp]; rfl)]
        · obtain ⟨q, -, -, hremoved | hkept⟩ := step_cases hp (h i p nofun hp)
          · exact absurd hremoved.1 hi
          · rw [hkept.2.1, htext]
      rw [ih (h.step nofun) hkept]
      have hsame := next?_step_iff h htext hi
      simp only [ne_eq, hsame, hi, not_false_eq_true, true_and]

theorem readers_start {maps : MemoryStore} {requests : List Request} {r : Nat} {map : SourceMap}
    (hread : SourceMap.deserialize (Text.bytes text) = .ok map)
    (hothers : ∀ i q, requests[i]? = some q → i ≠ r → ¬ q.call.Alters key) :
    Readers key text (some r) (start maps requests) := by
  intro i p hi hp
  obtain ⟨q, hq, rfl⟩ : ∃ q, requests[i]? = some q ∧ q.steps = p := by
    simpa [start] using hp
  exact Request.reader_steps hread (hothers i q hq fun heq => hi (congrArg some heq))

theorem step_put {r : Nat} {map : SourceMap} {next : Except Error Unit → Client}
    (hput : s.clients[r]? = some (.call (.put key map.serialize) next))
    (hnext : next (.ok ()) = .done (.ok (.map map)))
    (hreaders : Readers key map.serialize (some r) s) :
    (s.step r).clients[r]? = some (.done (.ok (.map map))) ∧
      (s.step r).text? key = some map.serialize ∧ Readers key map.serialize none (s.step r) := by
  have hlt : r < s.clients.length := (List.getElem?_eq_some_iff.mp hput).1
  have hdone : (s.step r).clients[r]? = some (.done (.ok (.map map))) := by
    rw [step_call hput, List.getElem?_set_self hlt]
    exact congrArg some hnext
  refine ⟨hdone, ?_, fun i p _ hp => ?_⟩
  · rw [step_call hput]
    exact (Assoc.lookup_insert _ _ _ _).trans (if_pos rfl)
  · by_cases hi : i = r
    · subst hi
      rw [hdone] at hp
      cases hp
      exact .quiet trivial
    · rw [clients_step_of_ne hi] at hp
      exact hreaders i p (fun heq => hi (Option.some.inj heq)) hp

/-- One client records a map under a key that no other client records or forgets. Once the recording
has returned the map, its text is stored exactly as long as no client goes on that was about to
remove what is under the key when the text was put there. -/
theorem recorded_kept_iff (maps : MemoryStore) (requests : List Request) {r : Nat} {q : Request}
    {key content : String} {table : Table Location} (hr : requests[r]? = some q)
    (hcall : q.call = .record key content table)
    (hothers : ∀ i other, requests[i]? = some other → i ≠ r → ¬ other.call.Alters key)
    (hcontent : Text.Fits content) (htable : TableFits table)
    (hsources : ∀ path source, q.load path = .ok source → Text.Fits source.content)
    (hdepth : ∀ e ∈ table.entries, e.2.depth ≤ maxLinks) (schedule : List Nat) {map : SourceMap}
    (hreturned : ((start maps requests).run schedule).clients[r]? = some (.done (.ok (.map map)))) :
    ∃ before later, schedule = before ++ r :: later ∧
      ((start maps requests).run before).next? r = some (.put key map.serialize) ∧
      ((start maps requests).run (before ++ [r])).clients[r]? = some (.done (.ok (.map map))) ∧
      (((start maps requests).run schedule).text? key = some map.serialize ↔
        ∀ i ∈ later, ((start maps requests).run before).next? i ≠ some (.remove key)) := by
  have hstart : (start maps requests).clients[r]? = some q.steps := by
    simp [start, hr]
  rw [Request.steps_record hcall] at hstart
  rcases hbuilt : SourceMap.built q.load content table with e | new
  · simp only [hbuilt] at hstart
    rw [clients_run_done hstart] at hreturned
    cases hreturned
  · simp only [hbuilt] at hstart
    have hread := SourceMap.read_built_at_once hbuilt hcontent htable hsources hdepth
    have hmem : r ∈ schedule := by
      by_contra hnot
      rw [clients_run_of_not_mem hnot, hstart] at hreturned
      cases hreturned
    obtain ⟨before, later, rfl, hfirst⟩ := List.eq_append_cons_of_mem hmem
    have hput := (clients_run_of_not_mem hfirst).trans hstart
    have hreaders : Readers key new.serialize (some r) ((start maps requests).run before) :=
      (readers_start hread hothers).run fun i hi heq => hfirst (Option.some.inj heq ▸ hi)
    obtain ⟨hdone, htext, hsettled⟩ := step_put hput rfl hreaders
    have hrun : (start maps requests).run (before ++ r :: later) =
        (((start maps requests).run before).step r).run later := by
      rw [run_append, run_cons]
    rw [hrun, clients_run_done hdone] at hreturned
    cases hreturned
    -- The recorder has nothing left to do, and the others are where they were before its step.
    refine ⟨before, later, rfl, by rw [next?, hput]; rfl, ?_, ?_⟩
    · rw [run_append]
      exact hdone
    · rw [hrun, text?_run_iff hsettled htext]
      refine forall₂_congr fun i _ => not_congr ?_
      by_cases hi : i = r
      · subst hi
        rw [next?, next?, hdone, hput]
        exact iff_of_false nofun nofun
      · rw [next?, next?, clients_step_of_ne hi]

def damaged : MemoryStore := ⟨[("page", "[")]⟩

def visitor : Request := ⟨.load "page", fun _ => .error .abort⟩

def recorder : Request where
  call := .record "page" "one\n" ⟨[(0, ⟨⟨"page", 0⟩, []⟩)], by decide⟩
  load path := .ok ⟨path, "one\n"⟩

def pageMap : SourceMap := ⟨["page"], ⟨[(1, ⟨⟨0, 1⟩, []⟩)], by decide⟩⟩

theorem recorded_kept_before_visit :
    [visitor, recorder][1]? = some recorder ∧
      ((start damaged [visitor, recorder]).run [1, 0]).text? "page" = some pageMap.serialize := by
  have hothers : ∀ i other, [visitor, recorder][i]? = some other → i ≠ 1 →
      ¬ other.call.Alters "page" := by
    rintro (_ | _ | i) other hother hi
    · cases hother
      exact id
    · exact absurd rfl hi
    · cases hother
  have hsources : ∀ path source, recorder.load path = .ok source → Text.Fits source.content := by
    rintro path source ⟨⟩
    exact (by decide : Text.Fits "one\n")
  obtain ⟨before, later, hschedule, hput, -, hkept⟩ := recorded_kept_iff damaged [visitor, recorder]
    (r := 1) (q := recorder) rfl rfl hothers (by decide) (by decide) hsources (by decide) [1, 0]
    rfl
  refine ⟨rfl, hkept.mpr ?_⟩
  match before, hschedule with
  | [], hschedule =>
    cases hschedule
    intro i hi
    cases List.mem_singleton.mp hi
    exact nofun
  | [_], hschedule => simp at hschedule
  | _ :: _ :: _, hschedule => simp at hschedule

/-- The visitor reads the damaged text, the map is recorded and returned, and the visitor removes
it. -/
theorem recorded_then_lost :
    ((start damaged [visitor, recorder]).run [0, 1]).clients[1]? = some (.done (.ok (.map pageMap))) ∧
      ((start damaged [visitor, recorder]).run [0, 1]).text? "page" = some pageMap.serialize ∧
      ((start damaged [visitor, recorder]).run [0, 1, 0]).text? "page" = none :=
  ⟨rfl, rfl, rfl⟩

end Shared

end TemplateTrace
