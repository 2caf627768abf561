import TemplateTrace.Loader.Directory
import TemplateTrace.Proofs.Service.Calls
import TemplateTrace.Proofs.Store.Home

/-!
What a call that asks for a map makes of the bytes behind its key, whatever they are. The service
removes a text that it cannot read, but the store does not hand out bytes that are no text.
-/

namespace TemplateTrace

namespace DirectoryStore

variable {s : DirectoryStore} {l : Loader (StateM FileTree)} {key text : String} {t : FileTree} {b : Bytes}
  {c : ServiceCall}

/-- The call answers and leaves the entry as it is, or it fails and the entry is gone, so that no
map is found from then on. -/
def Heals (s : DirectoryStore) (l : Loader (StateM FileTree)) (key : String) (c : ServiceCall)
    (t : FileTree) : Prop :=
  (∃ answer, runFrom (c.run ⟨l, s.store⟩) t = (.ok answer, t)) ∨
    ∃ e u, runFrom (c.run ⟨l, s.store⟩) t = (.error e, u) ∧
      u.readBytes (s.entryPath key) = .error .notFound ∧
      ∀ next : ServiceCall, next.asksFor? = some key →
        runFrom (next.run ⟨l, s.store⟩) u = (.error (.error (.notStored key)), u)

theorem call_of_notFound (h : t.readBytes (s.entryPath key) = .error .notFound)
    (hc : c.asksFor? = some key) :
    runFrom (c.run ⟨l, s.store⟩) t = (.error (.error (.notStored key)), t) := by
  rw [ServiceCall.run_of_asksFor _ hc, runFrom_map,
    TraceService.load_missing (s := ⟨l, s.store⟩) (get_of_notFound h)]
  rfl

theorem call_of_readable {map : SourceMap} (h : t.readBytes (s.entryPath key) = .ok (Text.bytes text))
    (hc : c.asksFor? = some key) (hread : SourceMap.deserialize (Text.bytes text) = .ok map) :
    runFrom (c.run ⟨l, s.store⟩) t = (.ok (c.view map), t) := by
  rw [ServiceCall.run_of_asksFor _ hc, runFrom_map,
    TraceService.load_readable (s := ⟨l, s.store⟩) (get_of_text h) hread]
  rfl

theorem call_of_unreadable {e : MapError} (h : t.readBytes (s.entryPath key) = .ok (Text.bytes text))
    (hc : c.asksFor? = some key) (hread : SourceMap.deserialize (Text.bytes text) = .error e) :
    ∃ u, runFrom (c.run ⟨l, s.store⟩) t = (.error (.error (.map e)), u) ∧
      u.readBytes (s.entryPath key) = .error .notFound := by
  obtain ⟨u, hremove, hgone, -⟩ := remove_of_read h
  refine ⟨u, ?_, hgone⟩
  rw [ServiceCall.run_of_asksFor _ hc, runFrom_map,
    TraceService.load_unreadable (s := ⟨l, s.store⟩) (get_of_text h) hread hremove]
  rfl

theorem call_of_notText (h : t.readBytes (s.entryPath key) = .ok b) (hc : c.asksFor? = some key)
    (hb : Text.ofBytes? b = none) :
    runFrom (c.run ⟨l, s.store⟩) t = (.error (.error (s.failure key .notText)), t) := by
  have hget : runFrom (s.get key : ExceptT Error (StateM FileTree) (Option String)) t =
      (.error (s.failure key .notText), t) := by
    rw [runFrom_get, h, answer, hb]
  rw [ServiceCall.run_of_asksFor _ hc, runFrom_map, TraceService.load_failed (s := ⟨l, s.store⟩) hget]
  rfl

theorem heals_of_text (h : t.readBytes (s.entryPath key) = .ok (Text.bytes text))
    (hc : c.asksFor? = some key) : s.Heals l key c t := by
  rcases hread : SourceMap.deserialize (Text.bytes text) with e | map
  · obtain ⟨u, hrun, hgone⟩ := call_of_unreadable h hc hread
    exact .inr ⟨_, u, hrun, hgone, fun next hnext => call_of_notFound hgone hnext⟩
  · exact .inl ⟨_, call_of_readable h hc hread⟩

/-- The cache heals itself just where the bytes behind the key are a text. Others stay where they
are, and every call that asks for the map fails on them in the same way. -/
theorem heals_iff (l : Loader (StateM FileTree)) (h : t.readBytes (s.entryPath key) = .ok b)
    (hc : c.asksFor? = some key) :
    (s.Heals l key c t ↔ ∃ text, b = Text.bytes text) ∧
      ((¬ ∃ text, b = Text.bytes text) →
        runFrom (c.run ⟨l, s.store⟩) t = (.error (.error (s.failure key .notText)), t)) := by
  have hstuck : (¬ ∃ text, b = Text.bytes text) →
      runFrom (c.run ⟨l, s.store⟩) t = (.error (.error (s.failure key .notText)), t) := by
    intro hb
    apply call_of_notText h hc
    rcases hread : Text.ofBytes? b with _ | text
    · rfl
    · exact absurd ⟨text, (Text.bytes_of_ofBytes? hread).symm⟩ hb
  refine ⟨⟨fun hheals => ?_, ?_⟩, hstuck⟩
  · by_contra hb
    rw [Heals, hstuck hb] at hheals
    rcases hheals with ⟨answer, hrun⟩ | ⟨e, u, hrun, hgone, -⟩
    · cases hrun
    · cases hrun
      rw [h] at hgone
      cases hgone
  · rintro ⟨text, rfl⟩
    exact heals_of_text h hc

def holding (b : Bytes) : FileTree where
  nodes := [(["cache"], .dir 0), (["cache", "61.map.json"], .file b 0)]
  currentDir := []
  now := 1

theorem heals_bracket :
    (holding (Text.bytes "[")).readBytes ((⟨"cache"⟩ : DirectoryStore).entryPath "a") =
        .ok (Text.bytes "[") ∧
      Heals ⟨"cache"⟩ (DirectoryLoader.loader ⟨"/views", none⟩) "a" (.trace "a" 1)
        (holding (Text.bytes "[")) := by
  have hread : (holding (Text.bytes "[")).readBytes ((⟨"cache"⟩ : DirectoryStore).entryPath "a") =
      .ok (Text.bytes "[") := by decide +kernel
  exact ⟨hread, (heals_iff _ hread rfl).1.mpr ⟨"[", rfl⟩⟩

/-- One byte that begins no character: no call ever gets past it. -/
theorem not_heals_byte :
    (holding [0xff]).readBytes ((⟨"cache"⟩ : DirectoryStore).entryPath "a") = .ok [0xff] ∧
      ∀ c ∈ [ServiceCall.load "a", .trace "a" 1, .dependencies "a"],
        runFrom (c.run ⟨DirectoryLoader.loader ⟨"/views", none⟩, (⟨"cache"⟩ : DirectoryStore).store⟩)
            (holding [0xff]) =
          (.error (.error (.store "a" "stream did not contain valid UTF-8 (cache)")), holding [0xff]) ∧
        ¬ Heals ⟨"cache"⟩ (DirectoryLoader.loader ⟨"/views", none⟩) "a" c (holding [0xff]) := by
  have hread : (holding [0xff]).readBytes ((⟨"cache"⟩ : DirectoryStore).entryPath "a") = .ok [0xff] := by
    decide +kernel
  refine ⟨hread, fun c hmem => ?_⟩
  have hc : c.asksFor? = some "a" := by
    simp only [List.mem_cons, List.not_mem_nil, or_false] at hmem
    rcases hmem with rfl | rfl | rfl <;> rfl
  have hrun := call_of_notText (l := DirectoryLoader.loader ⟨"/views", none⟩) hread hc (by decide +kernel)
  refine ⟨hrun, ?_⟩
  rw [Heals, hrun]
  rintro (⟨answer, hrun⟩ | ⟨e, u, hrun, hgone, -⟩)
  · cases hrun
  · cases hrun
    rw [hread] at hgone
    cases hgone

end DirectoryStore

end TemplateTrace
