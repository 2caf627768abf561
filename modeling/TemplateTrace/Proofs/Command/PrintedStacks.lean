import TemplateTrace.Proofs.Command.BuildThenStack
import TemplateTrace.Proofs.FrameText
import TemplateTrace.Proofs.NormalForm

namespace TemplateTrace

open Json (maxCount)
open SourceMap (maxLinks)
open Text (bytes)

theorem SourceMap.Fits.line_le {m : SourceMap} (h : m.Fits) {n : Nat} {f : Frame}
    (hf : f ∈ m.stack n) : f.line ≤ maxCount := by
  rcases hfloor : m.lines.floor? n with _ | e
  · rw [stack_of_floor?_none hfloor] at hf
    cases hf
  · obtain ⟨he, -, -⟩ := Table.mem_of_floor? hfloor
    rw [stack_of_floor?_some hfloor] at hf
    obtain ⟨l, hl, rfl⟩ := List.mem_map.mp hf
    exact (h.chain he l hl).2

namespace Layout

/-- What the frames must be like for their texts to be told from others in the layout. -/
def Tells : Layout → List Frame → Prop
  | human, _ => False
  | plain, frames => ∀ f ∈ frames, '\n' ∉ f.file.toList
  | json, frames => ∀ f ∈ frames, f.line ≤ maxCount

def frames? : Layout → String → Option (List Frame)
  | human, _ => none
  | plain, text => Frame.ofLines? text
  | json, text => (Frame.decodeList (bytes text)).toOption

end Layout

namespace Console

variable {c d : Console} {frames others : List Frame}

theorem ofLines?_stack (hc : c.layout = .plain) (h : ∀ f ∈ frames, '\n' ∉ f.file.toList) :
    Frame.ofLines? (c.stack frames) = some frames := by
  rw [stack, hc]
  exact Frame.ofLines?_plainFrames h

theorem decodeList_stack (hc : c.layout = .json) (h : ∀ f ∈ frames, f.line ≤ maxCount) :
    Frame.decodeList (bytes (c.stack frames)) = .ok frames := by
  rw [stack, hc]
  exact Frame.decodeList_json h

theorem frames?_stack (h : c.layout.Tells frames) : c.layout.frames? (c.stack frames) = some frames := by
  rcases hc : c.layout with _ | _ | _
  · rw [hc] at h
    exact h.elim
  · rw [hc] at h
    exact ofLines?_stack hc h
  · rw [hc] at h
    rw [Layout.frames?, decodeList_stack hc h]
    rfl

theorem eq_of_stack_eq (hlayout : c.layout = d.layout) (hframes : c.layout.Tells frames)
    (hothers : d.layout.Tells others) (h : c.stack frames = d.stack others) : frames = others := by
  have hread := frames?_stack hothers
  rw [← h, ← hlayout, frames?_stack hframes] at hread
  exact Option.some.inj hread

end Console

namespace Command

variable {t u : FileTree} {s : Settings} {target : CommandLine.MapTarget} {map : SourceMap}

theorem fits_of_openMap (h : runFrom (openMap target s : CommandT (StateM FileTree) SourceMap) t = (.ok map, u)) :
    map.Fits := by
  suffices hread : ∃ text, SourceMap.deserialize (bytes text) = .ok map by
    obtain ⟨text, hmap⟩ := hread
    exact SourceMap.fits_of_deserialize hmap
  rcases hcached : target.isCached with _ | _
  · rcases readInput_cases target.map t with ⟨text, -, hread⟩ | ⟨e, hrun⟩
    · rw [openMap_file hcached hread] at h
      rcases hmap : SourceMap.deserialize (bytes text) with e | found
      · rw [hmap] at h
        cases h
      · rw [hmap] at h
        cases h
        exact ⟨text, hmap⟩
    · rw [openMap, hcached, if_neg Bool.false_ne_true, runFrom_bind_error hrun] at h
      cases h
  · rw [openMap_cached hcached] at h
    obtain ⟨text, -, hmap⟩ := TraceService.of_load (runFrom_adapt_eq_ok_iff.mp h)
    exact ⟨text, hmap⟩

end Command

namespace Program

variable {env : Environment} {words : List String} {host : Host} {t u : FileTree}
  {j : CommandLine.Invocation} {s : Settings} {target : CommandLine.MapTarget} {n : Nat}
  {out err : String}

theorem finished_stack_iff (h : Understands env words t j s) (hj : j.request = .stack target n) :
    runIn host env words t = (.finished 0 out err, u) ↔
      ∃ start map v, runFrom (makeLog s) t = (.ok (), start) ∧
        runFrom (Command.openMap target s : Command.CommandT (StateM FileTree) SourceMap) start = (.ok map, v) ∧
        u = logged host s v ∧ out = (console host.toTerminal j s).stack (map.stack n) ∧ err = "" := by
  constructor
  · intro hrun
    obtain ⟨filled, start, v, hlog, hperform, rfl⟩ := of_runIn_finished h hrun
    rw [hj] at hperform
    obtain ⟨map, w, hopen, hprint⟩ := runFrom_bind_eq_ok hperform
    cases hprint
    have hagain : runIn host env words t =
        (.finished 0 ((console host.toTerminal j s).stack (map.stack n)) "", logged host s v) :=
      finished_of_perform h hj hlog fun _ => runFrom_bind_ok hopen
    obtain ⟨houtcome, -⟩ := Prod.mk.inj (hrun.symm.trans hagain)
    cases houtcome
    exact ⟨start, map, v, hlog, hopen, rfl, rfl, rfl⟩
  · rintro ⟨start, map, v, hlog, hopen, rfl, rfl, rfl⟩
    exact finished_of_perform h hj hlog fun _ => runFrom_bind_ok hopen

/-- The frames of a line are read back from their text, on lines if no file name has a line feed. So
different stacks have different texts; and a run that succeeds prints the text of a map it has found. -/
theorem stack_read_back (map : SourceMap) (n : Nat) (c : Console) :
    (c.layout = .plain → (∀ f ∈ map.stack n, '\n' ∉ f.file.toList) →
      Frame.ofLines? (c.stack (map.stack n)) = some (map.stack n)) ∧
    (c.layout = .json → (∀ f ∈ map.stack n, f.line ≤ maxCount) →
      Frame.decodeList (bytes (c.stack (map.stack n))) = .ok (map.stack n)) ∧
    (map.stack n = [] →
      (c.layout = .plain → c.stack (map.stack n) = "") ∧
      (c.layout = .json → c.stack (map.stack n) = "[]\n")) ∧
    (∀ (other : SourceMap) (k : Nat) (d : Console), d.layout = c.layout →
      c.layout.Tells (map.stack n) → c.layout.Tells (other.stack k) →
      c.stack (map.stack n) = d.stack (other.stack k) → map.stack n = other.stack k) ∧
    (∀ (host : Host) (env : Environment) (words : List String) (t u : FileTree)
      (j : CommandLine.Invocation) (s : Settings) (target : CommandLine.MapTarget) (out err : String),
      Understands env words t j s → j.request = .stack target n →
      (runIn host env words t = (.finished 0 out err, u) ↔
        ∃ start found v, runFrom (makeLog s) t = (.ok (), start) ∧
          runFrom (Command.openMap target s : Command.CommandT (StateM FileTree) SourceMap) start =
            (.ok found, v) ∧
          u = logged host s v ∧ (∀ f ∈ found.stack n, f.line ≤ maxCount) ∧
          out = (console host.toTerminal j s).stack (found.stack n) ∧ err = "")) := by
  refine ⟨Console.ofLines?_stack, Console.decodeList_stack, fun hnil => ⟨?_, ?_⟩, ?_, ?_⟩
  · intro hc
    rw [hnil, Console.stack, hc]
    rfl
  · intro hc
    rw [hnil, Console.stack, hc]
    rfl
  · intro other k d hlayout hframes hothers
    exact Console.eq_of_stack_eq hlayout.symm hframes (hlayout ▸ hothers)
  · intro host env words t u j s target out err h hj
    rw [finished_stack_iff h hj]
    refine exists_congr fun start => exists_congr fun found => exists_congr fun v =>
      and_congr_right fun _ => and_congr_right fun hopen => and_congr_right fun _ => ?_
    refine Iff.symm (and_iff_right fun f hf => ?_)
    exact (Command.fits_of_openMap hopen).line_le hf

def punctuated : SourceMap where
  files := ["a:7", "\"é\":\t3", "b\n:4", "a"]
  lines := ⟨[(1, ⟨⟨1, 20⟩, [⟨0, 3⟩]⟩), (4, ⟨⟨2, 5⟩, []⟩), (6, ⟨⟨3, 73⟩, []⟩), (7, ⟨⟨0, 3⟩, []⟩)], by decide⟩

theorem openMap_page : ∃ map u, Understands [] stackWords u (asked (.stack pageTarget 1)) {} ∧
    runFrom (Command.openMap pageTarget {} : Command.CommandT (StateM FileTree) SourceMap) u = (.ok map, u) ∧
    map.stack 1 = [⟨"/work/templates/page", 1⟩, ⟨"/work/templates/page", 1⟩] := by
  obtain ⟨map, hbuilt, hmap⟩ := @built_project 1 (by decide)
    (fun map => decide (map.Fits ∧
      map.stack 1 = [⟨"/work/templates/page", 1⟩, ⟨"/work/templates/page", 1⟩])) (by decide +kernel)
  obtain ⟨hfits, hframes⟩ := of_decide_eq_true hmap
  obtain ⟨-, u, -, -, hstack, hkept⟩ := run_pageBuild hbuilt
  have hdepth : ∀ e ∈ SourceMap.winning (bytes "one\n") (deep 1).entries, e.2.depth ≤ maxLinks := by
    decide +kernel
  have hread := SourceMap.read_built hbuilt.calculated hfits hdepth
  exact ⟨map, u, hstack, Command.openMap_readable hkept hread, hframes⟩

theorem stack_read_back_punctuated :
    Frame.ofLines? (Console.stack ⟨.plain, false, true⟩ (punctuated.stack 2)) =
        some [⟨"\"é\":\t3", 20⟩, ⟨"a:7", 3⟩] ∧
      Frame.decodeList (bytes (Console.stack ⟨.json, true, true⟩ (punctuated.stack 5))) =
        .ok [⟨"b\n:4", 5⟩] ∧
      Console.stack ⟨.json, false, true⟩ (punctuated.stack 0) = "[]\n" ∧
      Console.stack ⟨.plain, false, true⟩ (punctuated.stack 6) ≠
        Console.stack ⟨.plain, true, true⟩ (punctuated.stack 7) ∧
      ∃ out u v, runIn {} [] stackWords u = (.finished 0 out "", v) ∧
        Frame.ofLines? out = some [⟨"/work/templates/page", 1⟩, ⟨"/work/templates/page", 1⟩] := by
  refine ⟨?_, ?_, ?_, ?_, ?_⟩
  · exact (stack_read_back punctuated 2 ⟨.plain, false, true⟩).1 rfl (by decide +kernel)
  · exact (stack_read_back punctuated 5 ⟨.json, true, true⟩).2.1 rfl (by decide +kernel)
  · exact ((stack_read_back punctuated 0 ⟨.json, false, true⟩).2.2.1 (by decide +kernel)).2 rfl
  · intro h
    obtain ⟨-, -, -, hapart, -⟩ := stack_read_back punctuated 6 ⟨.plain, false, true⟩
    have heq := hapart punctuated 7 ⟨.plain, true, true⟩ rfl
      (show ∀ f ∈ punctuated.stack 6, '\n' ∉ f.file.toList by decide +kernel)
      (show ∀ f ∈ punctuated.stack 7, '\n' ∉ f.file.toList by decide +kernel) h
    exact absurd heq (by decide +kernel)
  · obtain ⟨map, u, hstack, hopen, hframes⟩ := openMap_page
    obtain ⟨hplain, -, -, -, hprogram⟩ :=
      stack_read_back map 1 (console {} (asked (.stack pageTarget 1)) {})
    have hlines : ∀ f ∈ map.stack 1, f.line ≤ maxCount := fun f hf =>
      (Command.fits_of_openMap hopen).line_le hf
    refine ⟨_, u, u, (hprogram {} [] stackWords u u _ {} pageTarget _ "" hstack rfl).mpr
      ⟨u, map, u, rfl, hopen, rfl, hlines, rfl, rfl⟩, ?_⟩
    rw [hplain rfl (by rw [hframes]; decide), hframes]

end Program

end TemplateTrace
