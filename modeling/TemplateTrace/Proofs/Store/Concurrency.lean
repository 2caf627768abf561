import TemplateTrace.Proofs.Store.Stages

/-!
Clients that put texts under one key of a store, or get the text there, in any order of their
calls. They all write to one staging file. So an answer is whole as long as nobody opens that file
while another client, which will go on, has it open; otherwise it may be a mixture of two texts.
-/

namespace TemplateTrace

structure DirectoryClients where
  disk : Disk
  clients : List (Calls StoreEvent)
  log : List StoreEvent := []

namespace DirectoryClients

def start (s : DirectoryStore) (calls : List StoreCall) (t : FileTree) : DirectoryClients where
  disk := { tree := t }
  clients := calls.map s.program

def step (x : DirectoryClients) (i : Nat) : DirectoryClients :=
  match x.clients[i]? with
  | some (.call c next) =>
    let (answer, disk) := c.run x.disk
    ⟨disk, x.clients.set i (next answer), x.log ++ (next answer).result?.toList⟩
  | _ => x

def run (x : DirectoryClients) (schedule : List Nat) : DirectoryClients := schedule.foldl step x

def opens (x : DirectoryClients) (i : Nat) : Bool := x.clients[i]?.any Calls.opens

def holds (x : DirectoryClients) (i : Nat) : Bool := x.clients[i]?.any Calls.holds

/-- Nobody opens a file while another client that will go on is about to write to it or to move
it. A client that never goes on may have stopped anywhere. -/
def Apart (x : DirectoryClients) : List Nat → Prop
  | [] => True
  | i :: rest => (x.opens i = true → ∀ j ∈ rest, j ≠ i → x.holds j = false) ∧ (x.step i).Apart rest

instance decidableApart : (x : DirectoryClients) → (schedule : List Nat) → Decidable (x.Apart schedule)
  | _, [] => isTrue trivial
  | x, i :: rest =>
    have := decidableApart (x.step i) rest
    inferInstanceAs (Decidable (_ ∧ _))

open DirectoryStore (Kept Stage)

variable {s : DirectoryStore} {t : FileTree} {key text : String} {calls : List StoreCall}
  {x : DirectoryClients} {i : Nat} {rest schedule : List Nat} {p q : Calls StoreEvent} {d : Disk}

theorem step_call {c : FileCall} {next : c.Answer → Calls StoreEvent}
    (h : x.clients[i]? = some (.call c next)) :
    x.step i = ⟨(c.run x.disk).2, x.clients.set i (next (c.run x.disk).1),
      x.log ++ (next (c.run x.disk).1).result?.toList⟩ := by
  rw [step, h]

theorem step_done {e : StoreEvent} (h : x.clients[i]? = some (.done e)) : x.step i = x := by
  rw [step, h]

theorem step_none (h : x.clients[i]? = none) : x.step i = x := by
  rw [step, h]

theorem alone_set (halone : ∀ j ∈ rest, ∀ k ∈ rest, x.holds j = true → x.holds k = true → j = k)
    (hp : x.clients[i]? = some p) (d : Disk) (log : List StoreEvent)
    (hq : q.holds = true → ∀ j ∈ rest, j ≠ i → x.holds j = false) :
    ∀ j ∈ rest, ∀ k ∈ rest, holds ⟨d, x.clients.set i q, log⟩ j = true →
      holds ⟨d, x.clients.set i q, log⟩ k = true → j = k := by
  have hself : holds ⟨d, x.clients.set i q, log⟩ i = q.holds := by
    rw [holds, List.getElem?_set_self (List.getElem?_eq_some_iff.mp hp).1, Option.any_some]
  have hother : ∀ j, j ≠ i → holds ⟨d, x.clients.set i q, log⟩ j = x.holds j := by
    intro j hj
    rw [holds, holds, List.getElem?_set_ne (Ne.symm hj)]
  have hnot : ∀ j ∈ rest, j ≠ i → q.holds = true → x.holds j ≠ true := by
    intro j hj hji hholds
    rw [hq hholds j hj hji]
    exact Bool.false_ne_true
  intro j hj k hk hjholds hkholds
  by_cases hji : j = i <;> by_cases hki : k = i
  · rw [hji, hki]
  · rw [hji, hself] at hjholds
    rw [hother k hki] at hkholds
    exact absurd hkholds (hnot k hk hki hjholds)
  · rw [hki, hself] at hkholds
    rw [hother j hji] at hjholds
    exact absurd hjholds (hnot j hj hji hkholds)
  · rw [hother j hji] at hjholds
    rw [hother k hki] at hkholds
    exact halone j hj k hk hjholds hkholds

structure Going (s : DirectoryStore) (t : FileTree) (key : String) (calls : List StoreCall)
    (x : DirectoryClients) (rest : List Nat) : Prop where
  kept : s.Kept t key calls x.disk.tree x.log
  stage : ∀ i p, x.clients[i]? = some p →
    Stage s key calls (t.isDir s.dir = true) x.disk (i ∈ rest) p
  /-- At most one client that goes on has the staging file. -/
  alone : ∀ i ∈ rest, ∀ j ∈ rest, x.holds i = true → x.holds j = true → i = j

namespace Going

theorem skip (h : Going s t key calls x (i :: rest)) : Going s t key calls x rest where
  kept := h.kept
  stage j p hp := (h.stage j p hp).mono (List.mem_cons_of_mem i) fun _ _ => ⟨rfl, .refl _⟩
  alone j hj k hk := h.alone j (List.mem_cons_of_mem i hj) k (List.mem_cons_of_mem i hk)

/-- One client goes on. The others keep what they rely on, unless none of them relies on
anything. -/
theorem advance (h : Going s t key calls x (i :: rest)) (hp : x.clients[i]? = some p)
    (hkept : s.Kept t key calls d.tree (x.log ++ q.result?.toList))
    (hstage : Stage s key calls (t.isDir s.dir = true) d (i ∈ rest) q)
    (hothers : d.opened = x.disk.opened ∧ FileTree.Extends x.disk.tree d.tree ∨
      ∀ j ∈ rest, j ≠ i → x.holds j = false)
    (halone : q.holds = true → ∀ j ∈ rest, j ≠ i → x.holds j = false) :
    Going s t key calls ⟨d, x.clients.set i q, x.log ++ q.result?.toList⟩ rest := by
  have halone' := alone_set (fun j hj k hk => h.alone j (List.mem_cons_of_mem i hj) k
    (List.mem_cons_of_mem i hk)) hp d (x.log ++ q.result?.toList) halone
  refine ⟨hkept, fun j r hr => ?_, halone'⟩
  by_cases hji : j = i
  · subst hji
    rw [List.getElem?_set_self (List.getElem?_eq_some_iff.mp hp).1] at hr
    cases hr
    exact hstage
  · rw [List.getElem?_set_ne (Ne.symm hji)] at hr
    refine (h.stage j r hr).mono (List.mem_cons_of_mem i) fun hj hholds => ?_
    refine hothers.resolve_right fun hnone => ?_
    have hfalse := hnone j hj hji
    rw [holds, hr, Option.any_some, hholds] at hfalse
    cases hfalse

theorem finish (h : Going s t key calls x (i :: rest)) (hp : x.clients[i]? = some p) {e : StoreEvent}
    (hkept : s.Kept t key calls d.tree (x.log ++ [e]))
    (hothers : d.opened = x.disk.opened ∧ FileTree.Extends x.disk.tree d.tree ∨
      ∀ j ∈ rest, j ≠ i → x.holds j = false) :
    Going s t key calls ⟨d, x.clients.set i (.done e), x.log ++ [e]⟩ rest := by
  refine h.advance hp hkept (.done e) hothers fun hholds => ?_
  cases hholds

theorem others (h : Going s t key calls x (i :: rest)) (hi : x.holds i = true) :
    ∀ j ∈ rest, j ≠ i → x.holds j = false := by
  intro j hj hji
  by_contra hne
  exact hji (h.alone j (List.mem_cons_of_mem i hj) i List.mem_cons_self
    (Bool.not_eq_false _ ▸ hne) hi)

variable (hidden : s.found t key = .ok none →
  t.look? (FileTree.destination t.currentDir (s.entryPath key)) = none)

theorem made (h : Going s t key calls x (i :: rest)) (hp : x.clients[i]? = some p)
    (hcall : .put key text ∈ calls) (hmakes : q.MakesDirs (s.Opens key text))
    (hready : t.isDir s.dir = true → s.Ready key text q)
    (hkept : s.Kept t key calls d.tree x.log) (hopened : d.opened = x.disk.opened)
    (hextends : FileTree.Extends x.disk.tree d.tree) :
    Going s t key calls ⟨d, x.clients.set i q, x.log ++ q.result?.toList⟩ rest := by
  refine h.advance hp (hkept.ended hmakes) (.making hcall hmakes hready) (.inl ⟨hopened, hextends⟩) ?_
  rw [DirectoryStore.holds_of_makesDirs hmakes]
  nofun

theorem step_reading (h : Going s t key calls x (i :: rest)) (hp : x.clients[i]? = some (s.reading key)) :
    Going s t key calls (x.step i) rest := by
  rw [step_call hp]
  refine h.finish hp ?_ (.inl ⟨rfl, .refl _⟩)
  refine h.kept.concat rfl fun answer heq => ?_
  cases heq
  exact (s.found_eq_answer x.disk.tree key).symm

theorem step_opening (h : Going s t key calls x (i :: rest))
    (hp : x.clients[i]? = some (s.opening key text)) (hcall : .put key text ∈ calls)
    (hapart : ∀ j ∈ rest, j ≠ i → x.holds j = false) : Going s t key calls (x.step i) rest := by
  rw [step_call hp]
  rcases hopen : x.disk.openNew (s.stagingPath key) with e | d
  · have hrun : FileCall.run x.disk (.openNew (s.stagingPath key)) = (.error e, x.disk) := by
      rw [FileCall.run, hopen]
      rfl
    rw [hrun]
    exact h.finish hp (h.kept.failed text _) (.inl ⟨rfl, .refl _⟩)
  · have hrun : FileCall.run x.disk (.openNew (s.stagingPath key)) = (.ok x.disk.opened.length, d) := by
      rw [FileCall.run, hopen]
      rfl
    rw [hrun]
    obtain ⟨p, hplace, hopened, -, hdir, hcurrent, hlook⟩ := Disk.look?_of_openNew hopen
    obtain ⟨c, hreaches, rfl⟩ := DirectoryStore.Reaches.of_stagingPath hplace
    have hdirs := FileTree.dirsKept_of_look? hdir hcurrent hlook
    refine h.advance hp ?_ (.writing hcall fun _ => ⟨_, ?_, hdirs.place hplace, ?_⟩) (.inr hapart)
      fun _ => hapart
    · have hkept := h.kept.staged hreaches hdirs
        (by rw [hlook, if_neg (DirectoryStore.place_ne c key key).symm])
      rw [← List.append_nil x.log] at hkept
      exact hkept
    · rw [hopened, List.getElem?_concat_length]
    · rw [hlook, if_pos rfl]

theorem step_writing (h : Going s t key calls x (i :: rest)) {file : Nat}
    (hp : x.clients[i]? = some (s.writing key text file)) (hcall : .put key text ∈ calls)
    (hopened : ∃ p, x.disk.opened[file]? = some (some p) ∧
      x.disk.tree.place (s.stagingPath key) = .ok p ∧ x.disk.tree.look? p = some (some [])) :
    Going s t key calls (x.step i) rest := by
  have hothers := h.others (by rw [holds, hp]; rfl)
  have hrun : FileCall.run x.disk (.write file (Text.bytes text)) =
      ((), x.disk.write file (Text.bytes text)) := rfl
  rw [step_call hp, hrun]
  -- The file is still at the staging path, and nobody has written to it since it was emptied.
  obtain ⟨p, hopen, hplace, hlook⟩ := hopened
  obtain ⟨c, hreaches, rfl⟩ := DirectoryStore.Reaches.of_stagingPath hplace
  obtain ⟨hcurrent, hwritten⟩ := Disk.look?_write hopen (by simp)
    (FileTree.look?_dropLast_concat hreaches.dir) hlook (Text.bytes text)
  have hdirs := FileTree.dirsKept_of_look? (by rw [hlook]; nofun) hcurrent hwritten
  refine h.advance hp ?_ (.moving hcall fun _ => ?_) (.inr hothers) fun _ => hothers
  · have hkept := h.kept.staged hreaches hdirs
      (by rw [hwritten, if_neg (DirectoryStore.place_ne c key key).symm])
    rw [← List.append_nil x.log] at hkept
    exact hkept
  · refine FileTree.readBytes_eq_ok_iff.mpr
      ⟨_, hdirs.place hplace, ?_, s.endsWithSlash_stagingPath key⟩
    rw [hwritten, if_pos rfl, List.drop_nil, List.append_nil]

theorem step_moving (h : Going s t key calls x (i :: rest))
    (hp : x.clients[i]? = some (s.moving key text)) (hcall : .put key text ∈ calls)
    (hwritten : x.disk.tree.readBytes (s.stagingPath key) = .ok (Text.bytes text)) :
    Going s t key calls (x.step i) rest := by
  have hothers := h.others (by rw [holds, hp]; rfl)
  rw [step_call hp]
  rcases hmove : x.disk.rename (s.stagingPath key) (s.entryPath key) with e | d
  · have hrun : FileCall.run x.disk (.rename (s.stagingPath key) (s.entryPath key)) =
        (.error e, x.disk) := by
      rw [FileCall.run, hmove]
      rfl
    rw [hrun]
    exact h.finish hp (h.kept.failed text _) (.inl ⟨rfl, .refl _⟩)
  · have hrun : FileCall.run x.disk (.rename (s.stagingPath key) (s.entryPath key)) = (.ok (), d) := by
      rw [FileCall.run, hmove]
      rfl
    rw [hrun]
    have hrename := Disk.of_rename hmove
    have hdirs := FileTree.dirsKept_of_rename hrename
    obtain ⟨p, q, b, hplace, hentry, hfile, -, -, hlook⟩ := FileTree.look?_of_rename hrename
    obtain ⟨p', hplace', hfile', -⟩ := FileTree.readBytes_eq_ok_iff.mp hwritten
    cases hplace.symm.trans hplace'
    cases hfile.symm.trans hfile'
    obtain ⟨c, hreaches, -⟩ := DirectoryStore.Reaches.of_stagingPath hplace
    have hread : d.tree.readBytes (s.entryPath key) = .ok (Text.bytes text) :=
      FileTree.readBytes_eq_ok_iff.mpr
        ⟨q, hdirs.place hentry, by rw [hlook, if_pos rfl], s.endsWithSlash_entryPath key⟩
    exact h.finish hp (h.kept.stored hreaches hdirs hcall hread) (.inr hothers)

include hidden in
theorem step_makeDir (h : Going s t key calls x (i :: rest)) {path : String}
    {next : Except FileError Unit → Calls StoreEvent}
    (hp : x.clients[i]? = some (.call (.makeDir path) next)) (hcall : .put key text ∈ calls)
    (hmakes : ∀ answer, (next answer).MakesDirs (s.Opens key text))
    (hready : t.isDir s.dir = true → s.Ready key text (.call (.makeDir path) next)) :
    Going s t key calls (x.step i) rest := by
  have hthere : t.isDir s.dir = true → x.disk.tree.makeDir path = .error .alreadyExists ∧
      s.Ready key text (next (.error .alreadyExists)) := by
    intro hdir
    cases hready hdir with
    | makeDir hnext => exact ⟨FileTree.makeDir_of_isDir (h.kept.dirs.isDir hdir), hnext⟩
  rw [step_call hp]
  rcases hmake : x.disk.tree.makeDir path with e | tree
  · have hrun : FileCall.run x.disk (.makeDir path) = (.error e, x.disk) := by
      rw [FileCall.run, Disk.change, hmake]
      rfl
    rw [hrun]
    refine h.made hp hcall (hmakes _) (fun hdir => ?_) h.kept rfl (.refl _)
    obtain ⟨hexists, hnext⟩ := hthere hdir
    cases hmake.symm.trans hexists
    exact hnext
  · have hrun : FileCall.run x.disk (.makeDir path) = (.ok (), { x.disk with tree := tree }) := by
      rw [FileCall.run, Disk.change, hmake]
      rfl
    rw [hrun]
    have hnot : t.isDir s.dir ≠ true := by
      intro hdir
      cases hmake.symm.trans (hthere hdir).1
    have hgrown := FileTree.Grown.of_makeDir hmake
    exact h.made hp hcall (hmakes _) (fun hdir => absurd hdir hnot)
      (h.kept.grown (Bool.eq_false_iff.mpr hnot) hidden hgrown) rfl hgrown.kept

theorem step_isDir (h : Going s t key calls x (i :: rest)) {path : String}
    {next : Bool → Calls StoreEvent}
    (hp : x.clients[i]? = some (.call (.isDir path) next)) (hcall : .put key text ∈ calls)
    (hmakes : ∀ answer, (next answer).MakesDirs (s.Opens key text))
    (hready : t.isDir s.dir = true → s.Ready key text (.call (.isDir path) next)) :
    Going s t key calls (x.step i) rest := by
  rw [step_call hp]
  refine h.made hp hcall (hmakes _) (fun hdir => ?_) h.kept rfl (.refl _)
  cases hready hdir with
  | isDir hnext =>
    have hanswer : (FileCall.run x.disk (.isDir s.dir)).1 = true := h.kept.dirs.isDir hdir
    rw [hanswer]
    exact hnext

include hidden in
theorem step (h : Going s t key calls x (i :: rest))
    (hapart : x.opens i = true → ∀ j ∈ rest, j ≠ i → x.holds j = false) :
    Going s t key calls (x.step i) rest := by
  rcases hp : x.clients[i]? with _ | p
  · rw [step_none hp]
    exact h.skip
  · cases h.stage i p hp with
    | reading => exact h.step_reading hp
    | making hcall hmakes hready =>
      cases hmakes with
      | rest hopens =>
        rcases hopens with rfl | ⟨e, rfl⟩
        · exact h.step_opening hp hcall (hapart (by rw [opens, hp]; rfl))
        · rw [step_done hp]
          exact h.skip
      | makeDir hmakes => exact h.step_makeDir hidden hp hcall hmakes hready
      | isDir hmakes => exact h.step_isDir hp hcall hmakes hready
    | writing hcall hopened => exact h.step_writing hp hcall (hopened List.mem_cons_self)
    | moving hcall hwritten => exact h.step_moving hp hcall (hwritten List.mem_cons_self)
    | done e =>
      rw [step_done hp]
      exact h.skip

include hidden in
theorem run (h : Going s t key calls x schedule) (hapart : x.Apart schedule) :
    Going s t key calls (x.run schedule) [] := by
  induction schedule generalizing x with
  | nil => exact h
  | cons i rest ih => exact ih (h.step hidden hapart.1) hapart.2

theorem start (hcalls : ∀ c ∈ calls, c = .get key ∨ ∃ text, c = .put key text) :
    Going s t key calls (start s calls t) schedule := by
  have hclient : ∀ (i : Nat) p, (DirectoryClients.start s calls t).clients[i]? = some p →
      ∃ c ∈ calls, s.program c = p := by
    intro i p hp
    obtain ⟨c, hc, rfl⟩ : ∃ c, calls[i]? = some c ∧ s.program c = p := by
      simpa [DirectoryClients.start] using hp
    exact ⟨c, List.mem_of_getElem? hc, rfl⟩
  have hquiet : ∀ i, (DirectoryClients.start s calls t).holds i = false := by
    intro i
    rw [holds]
    rcases hp : (DirectoryClients.start s calls t).clients[i]? with _ | p
    · rfl
    · obtain ⟨c, hc, rfl⟩ := hclient i p hp
      rcases hcalls c hc with rfl | ⟨text, rfl⟩
      · rw [DirectoryStore.program_get]
        rfl
      · exact DirectoryStore.holds_of_makesDirs (s.makesDirs_program key text)
  refine ⟨.start s t key calls, fun i p hp => ?_, fun i _ j _ hi => ?_⟩
  · obtain ⟨c, hc, rfl⟩ := hclient i p hp
    rcases hcalls c hc with rfl | ⟨text, rfl⟩
    · rw [DirectoryStore.program_get]
      exact .reading
    · exact .making hc (s.makesDirs_program key text) fun _ => s.ready_program key text
  · rw [hquiet i] at hi
    cases hi

end Going

theorem clients_step_of_ne {j : Nat} (h : j ≠ i) : (x.step i).clients[j]? = x.clients[j]? := by
  rcases hp : x.clients[i]? with _ | ⟨e⟩ | ⟨c, next⟩
  · rw [step_none hp]
  · rw [step_done hp]
  · rw [step_call hp]
    exact List.getElem?_set_ne (Ne.symm h)

theorem clients_step_done {e : StoreEvent} (h : x.clients[i]? = some (.done e)) (j : Nat) :
    (x.step j).clients[i]? = some (.done e) := by
  by_cases hj : i = j
  · subst hj
    rwa [step_done h]
  · rwa [clients_step_of_ne hj]

theorem log_prefix_step (x : DirectoryClients) (i : Nat) : x.log <+: (x.step i).log := by
  rcases hp : x.clients[i]? with _ | ⟨e⟩ | ⟨c, next⟩
  · exact (step_none hp).symm ▸ List.prefix_rfl
  · exact (step_done hp).symm ▸ List.prefix_rfl
  · rw [step_call hp]
    exact List.prefix_append _ _

theorem done_run {e : StoreEvent} (h : x.clients[i]? = some (.done e)) (hlog : e ∈ x.log) :
    (x.run schedule).clients[i]? = some (.done e) ∧ e ∈ (x.run schedule).log := by
  induction schedule generalizing x with
  | nil => exact ⟨h, hlog⟩
  | cons j rest ih => exact ih (clients_step_done h j) ((log_prefix_step x j).subset hlog)

theorem reading_run (h : x.clients[i]? = some (s.reading key)) (hi : i ∈ schedule) :
    ∃ answer, (x.run schedule).clients[i]? = some (.done ⟨.get key, answer⟩) ∧
      ⟨.get key, answer⟩ ∈ (x.run schedule).log := by
  induction schedule generalizing x with
  | nil => cases hi
  | cons j rest ih =>
    by_cases hj : i = j
    · subst hj
      have hlt : i < x.clients.length := (List.getElem?_eq_some_iff.mp h).1
      refine ⟨s.answer key (x.disk.tree.readBytes (s.entryPath key)), done_run (x := x.step i) ?_ ?_⟩
      · rw [step_call h]
        exact List.getElem?_set_self hlt
      · rw [step_call h]
        exact List.mem_append_right _ (List.mem_singleton.mpr rfl)
    · exact ih ((clients_step_of_ne hj).trans h) ((List.mem_cons.mp hi).resolve_left hj)

theorem client_start {c : StoreCall} (h : calls[i]? = some c) :
    (start s calls t).clients[i]? = some (s.program c) := by
  simp [start, h]

/-- No reader sees a part of a text as long as the clients keep apart: every get that has its turn
is answered with what was stored last or, if nothing was stored before, with what was there at
first. -/
theorem gets_whole (s : DirectoryStore) (t : FileTree) (key : String)
    (hidden : s.found t key = .ok none →
      t.look? (FileTree.destination t.currentDir (s.entryPath key)) = none)
    {calls : List StoreCall} (hcalls : ∀ c ∈ calls, c = .get key ∨ ∃ text, c = .put key text)
    {schedule : List Nat} (hapart : (start s calls t).Apart schedule) :
    (∀ before answer after,
        ((start s calls t).run schedule).log = before ++ ⟨.get key, answer⟩ :: after →
          s.Whole t key calls before answer) ∧
      ∀ i ∈ schedule, calls[i]? = some (.get key) →
        ∃ answer, ((start s calls t).run schedule).clients[i]? = some (.done ⟨.get key, answer⟩) ∧
          ⟨.get key, answer⟩ ∈ ((start s calls t).run schedule).log := by
  refine ⟨((Going.start hcalls).run hidden hapart).kept.answers, fun i hi hcall => ?_⟩
  have hclient := client_start (s := s) (t := t) hcall
  rw [DirectoryStore.program_get] at hclient
  exact reading_run hclient hi

def Readers (x : DirectoryClients) (s : DirectoryStore) (key : String) (w : Nat) : Prop :=
  ∀ i p, i ≠ w → x.clients[i]? = some p → p = s.reading key ∨ ∃ e, p = .done e

namespace Readers

variable {w : Nat}

theorem quiet (h : x.Readers s key w) (hi : i ≠ w) : x.opens i = false ∧ x.holds i = false := by
  rw [opens, holds]
  rcases hp : x.clients[i]? with _ | p
  · exact ⟨rfl, rfl⟩
  · rcases h i p hi hp with rfl | ⟨e, rfl⟩ <;> exact ⟨rfl, rfl⟩

theorem step (h : x.Readers s key w) (i : Nat) : (x.step i).Readers s key w := by
  intro j p hj hp
  by_cases hji : j = i
  · subst hji
    rcases hold : x.clients[j]? with _ | old
    · rw [step_none hold, hold] at hp
      cases hp
    · rcases h j old hj hold with rfl | ⟨e, rfl⟩
      · rw [step_call hold, List.getElem?_set_self (List.getElem?_eq_some_iff.mp hold).1] at hp
        cases hp
        exact .inr ⟨_, rfl⟩
      · rw [step_done hold] at hp
        exact h j p hj hp
  · rw [clients_step_of_ne hji] at hp
    exact h j p hj hp

theorem apart (h : x.Readers s key w) (schedule : List Nat) : x.Apart schedule := by
  induction schedule generalizing x with
  | nil => trivial
  | cons i rest ih =>
    refine ⟨fun hi j _ hj => ?_, ih (h.step i)⟩
    have hw : i = w := by
      by_contra hne
      rw [(h.quiet hne).1] at hi
      cases hi
    exact (h.quiet (hw ▸ hj)).2

end Readers

theorem apart_of_readers {w : Nat} (hreaders : ∀ i c, calls[i]? = some c → i ≠ w → c = .get key)
    (schedule : List Nat) : (start s calls t).Apart schedule := by
  have hstart : (start s calls t).Readers s key w := by
    intro i p hi hp
    obtain ⟨c, hc, rfl⟩ : ∃ c, calls[i]? = some c ∧ s.program c = p := by
      simpa [start] using hp
    cases hreaders i c hc hi
    exact .inl (s.program_get key)
  exact hstart.apart schedule

def rivals : List StoreCall := [.put "a" "AAAA", .put "a" "B", .get "a"]

def bare : FileTree := ⟨[], [], 1, none⟩

theorem gets_whole_after_stop :
    let s : DirectoryStore := ⟨"cache"⟩
    (start s rivals bare).Apart [0, 0, 1, 1, 1, 1, 1, 2] ∧
      ((start s rivals bare).run [0, 0, 1, 1, 1, 1, 1, 2]).log =
        [⟨.put "a" "B", .ok ()⟩] ++ [⟨.get "a", .ok (some "B")⟩] ∧
      s.Whole bare "a" rivals [⟨.put "a" "B", .ok ()⟩] (.ok (some "B")) := by
  intro s
  have hidden : s.found bare "a" = .ok none →
      bare.look? (FileTree.destination bare.currentDir (s.entryPath "a")) = none :=
    fun _ => by decide +kernel
  have hcalls : ∀ c ∈ rivals, c = .get "a" ∨ ∃ text, c = .put "a" text := by
    simp [rivals]
  have hapart : (start s rivals bare).Apart [0, 0, 1, 1, 1, 1, 1, 2] := by decide +kernel
  have hlog : ((start s rivals bare).run [0, 0, 1, 1, 1, 1, 1, 2]).log =
      [⟨.put "a" "B", .ok ()⟩] ++ [⟨.get "a", .ok (some "B")⟩] := by decide +kernel
  exact ⟨hapart, hlog, (gets_whole s bare "a" hidden hcalls hapart).1 _ _ [] hlog⟩

/-- Two puts share the staging file. The second writes to it when the first has moved it, so that
the entry is neither text; or it has just emptied it when the first moves it. -/
theorem gets_mixed :
    let s : DirectoryStore := ⟨"cache"⟩
    s.found bare "a" = .ok none ∧ .put "a" "BAAA" ∉ rivals ∧ .put "a" "" ∉ rivals ∧
      ((start s rivals bare).run [1, 1, 0, 0, 0, 0, 0, 1, 2]).log =
        [⟨.put "a" "AAAA", .ok ()⟩, ⟨.get "a", .ok (some "BAAA")⟩] ∧
      ((start s rivals bare).run [0, 0, 0, 1, 1, 1, 0, 2]).log =
        [⟨.put "a" "AAAA", .ok ()⟩, ⟨.get "a", .ok (some "")⟩] :=
  ⟨by decide +kernel, by decide, by decide, by decide +kernel, by decide +kernel⟩

end DirectoryClients

end TemplateTrace
