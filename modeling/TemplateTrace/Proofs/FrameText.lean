import TemplateTrace.Command.Console
import TemplateTrace.Proofs.Json.Written

namespace TemplateTrace

namespace Frame

open Json.Reader
open Text (bytes)

theorem reads_pretty {f : Frame} (hf : f.line ≤ Json.maxCount) (depth level : Nat) :
    Reads (read (depth + 1)) (bytes (f.encode.prettyAt level)) f := by
  have hblank : Blank [byte ' '] := by decide
  have hfile := (reads_text f.file).map fun file => ({ file := some file } : Draft)
  have hline := (reads_count hf).map fun line => ({ file := some f.file, line := some line } : Draft)
  have hmembers : Advances record.member {}
      ([("file", .text f.file), ("line", .number f.line)].map (Json.prettyMember (level + 1)))
      { file := some f.file, line := some f.line } :=
    .cons (Record.member_run_blanks rfl rfl (skipsBlanks_text.bind _) hblank hfile)
      (.cons (Record.member_run_blanks rfl rfl (skipsBlanks_count.bind _) hblank hline) (.nil _))
  rw [encode, Json.bytes_prettyObject (List.cons_ne_nil _ _)]
  exact Record.reads_spacedObject hmembers rfl _

theorem reads_prettyList {frames : List Frame} (h : ∀ f ∈ frames, f.line ≤ Json.maxCount)
    (depth level : Nat) : Reads (sequence (depth + 2) read)
      (bytes ((Json.Value.list (frames.map encode)).prettyAt level)) frames := by
  by_cases hnil : frames = []
  · subst hnil
    exact @reads_sequence _ read (fun _ => []) [] (depth + 1) (List.forall_mem_nil _) .none
  · rw [Json.bytes_prettyList (by simpa using hnil), List.map_map]
    exact reads_sequence (fun f hf => reads_pretty (h f hf) depth (level + 1)) _

theorem decodeList_json {frames : List Frame} (h : ∀ f ∈ frames, f.line ≤ Json.maxCount) :
    decodeList (bytes (Console.json (.list (frames.map encode)))) = .ok frames := by
  have hblank : Blank (bytes "\n") := by decide
  rw [Console.json, Console.data, Text.bytes_append]
  exact Json.parse_of_reads_blanks (reads_prettyList h 125 0) hblank

def ofLine? (line : List Char) : Option Frame :=
  let digits := (line.reverse.takeWhile (· ≠ ':')).reverse
  match line.reverse.dropWhile (· ≠ ':') with
  | [] => none
  | _ :: file =>
    if digits.all Char.isDigit ∧ digits ≠ [] then
      some ⟨String.ofList file.reverse, Nat.ofDigitChars 10 digits 0⟩
    else none

def ofLines? (text : String) : Option (List Frame) :=
  (text.toList.splitOn '\n').dropLast.mapM ofLine?

theorem toList_display (f : Frame) :
    f.display.toList = f.file.toList ++ ':' :: Nat.toDigits 10 f.line := by
  have hnumber : (toString f.line).toList = Nat.toDigits 10 f.line := Nat.toList_repr
  rw [display, String.toList_append, String.toList_append, hnumber]
  simp

theorem ne_of_mem_digits {n : Nat} {c d : Char} (h : c ∈ Nat.toDigits 10 n) (hd : d.isDigit = false) :
    c ≠ d := by
  rintro rfl
  rw [isDigit_of_mem_digits h] at hd
  cases hd

theorem ofLine?_display (f : Frame) : ofLine? f.display.toList = some f := by
  have hcolon : ∀ c ∈ (Nat.toDigits 10 f.line).reverse, decide (c ≠ ':') = true := by
    intro c hc
    exact decide_eq_true (ne_of_mem_digits (List.mem_reverse.mp hc) (by decide))
  have hdigits : (Nat.toDigits 10 f.line).all Char.isDigit = true :=
    List.all_eq_true.mpr fun c hc => isDigit_of_mem_digits hc
  have hreverse : f.display.toList.reverse =
      (Nat.toDigits 10 f.line).reverse ++ ':' :: f.file.toList.reverse := by
    rw [toList_display]
    simp
  rw [ofLine?, hreverse, List.takeWhile_append_of_pos hcolon, List.dropWhile_append_of_pos hcolon]
  simp [hdigits, Nat.ofDigitChars_ten_toDigits, Nat.toDigits_ne_nil]

theorem newline_notMem_display {f : Frame} (h : '\n' ∉ f.file.toList) : '\n' ∉ f.display.toList := by
  rw [toList_display, List.mem_append, List.mem_cons]
  rintro (hfile | hcolon | hdigit)
  · exact h hfile
  · exact absurd hcolon (by decide)
  · exact ne_of_mem_digits hdigit (by decide) rfl

theorem toList_plainFrames (frames : List Frame) : (Console.plainFrames frames).toList =
    frames.flatMap fun f => f.display.toList ++ ['\n'] := by
  rw [Console.plainFrames, String.toList_join, List.flatMap_map]
  simp [Console.data]

theorem splitOn_plainFrames {frames : List Frame} (h : ∀ f ∈ frames, '\n' ∉ f.file.toList) :
    (Console.plainFrames frames).toList.splitOn '\n' = frames.map (·.display.toList) ++ [[]] := by
  rw [toList_plainFrames]
  induction frames with
  | nil => rfl
  | cons f rest ih =>
    rw [List.forall_mem_cons] at h
    rw [List.flatMap_cons, List.append_assoc, List.singleton_append,
      List.splitOn_append_cons_self_of_not_mem (newline_notMem_display h.1), ih h.2]
    rfl

theorem mapM_ofLine?_display (frames : List Frame) :
    (frames.map (·.display.toList)).mapM ofLine? = some frames := by
  induction frames with
  | nil => rfl
  | cons f rest ih =>
    rw [List.map_cons, List.mapM_cons, ofLine?_display, ih]
    rfl

theorem ofLines?_plainFrames {frames : List Frame} (h : ∀ f ∈ frames, '\n' ∉ f.file.toList) :
    ofLines? (Console.plainFrames frames) = some frames := by
  rw [ofLines?, splitOn_plainFrames h, List.dropLast_concat, mapM_ofLine?_display]

end Frame

end TemplateTrace
