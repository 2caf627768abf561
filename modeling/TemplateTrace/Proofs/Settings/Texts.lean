import TemplateTrace.Proofs.Numerals
import TemplateTrace.Proofs.Runs
import TemplateTrace.Proofs.Settings.Layers

namespace TemplateTrace

namespace Setting

variable {α : Type} {s w : Setting} {section? : Option Setting} {sectionName name : String} {place : Nat}
  {kind : SettingKind} {read? : Setting → Option α} {a default : α} {text : String} {e : Mismatch}

theorem read_of_missing (h : field? (Assoc.lookup sectionName s.entries) name place = some none) :
    s.read place sectionName name kind read? default = .ok default := by
  rw [read, h]

theorem read_of_given (h : field? (Assoc.lookup sectionName s.entries) name place = some (some w))
    (ha : read? w = some a) : s.read place sectionName name kind read? default = .ok a := by
  rw [read, h]
  dsimp only
  rw [ha]

theorem read_eq_error (h : s.read place sectionName name kind read? default = .error e) :
    field? (Assoc.lookup sectionName s.entries) name place = none ∧ e.key = sectionName ∨
      ∃ w, field? (Assoc.lookup sectionName s.entries) name place = some (some w) ∧ read? w = none ∧
        e.key = sectionName ++ "." ++ name := by
  rw [read] at h
  split at h
  · rename_i hfield
    cases h
    exact .inl ⟨hfield, rfl⟩
  · cases h
  · rename_i w hfield
    split at h
    · cases h
    · rename_i hread
      cases h
      exact .inr ⟨w, hfield, hread, rfl⟩

theorem field?_eq_none (h : field? section? name place = none) (other : String) (place' : Nat) :
    field? section? other place' = none := by
  rcases section? with _ | w
  · cases h
  · cases w with
    | table fields => cases h
    | list items => cases h
    | _ => rfl

theorem optional_of_text (h : w.text? = some text) : optional text? w = some (some text) := by
  cases w with
  | nothing => cases h
  | _ => exact congrArg (Option.map some) h

theorem text?_of_optional (h : optional text? w = none) : w.text? = none := by
  cases w with
  | list items => rfl
  | table fields => rfl
  | _ => cases h

end Setting

namespace TextSetting

open Setting (text?)

variable {x : TextSetting} {s w : Setting} {r : Settings} {text : String} {e : Mismatch}

def read : TextSetting → Setting → Except Mismatch (Option String)
  | root, s => some <$> s.read 0 "templates" "root" .text text? Settings.defaults.root
  | extension, s => s.read 1 "templates" "extension" .text (Setting.optional text?) none
  | cacheDir, s => some <$> s.read 0 "cache" "dir" .text text? Settings.defaults.cacheDir
  | format, s => some <$> s.read 1 "output" "format" .text text? Settings.defaults.format

theorem read_of_missing (h : x.field? s = some none) : x.read s = .ok (x.value? .defaults) := by
  cases x with
  | extension => exact Setting.read_of_missing h
  | _ => exact congrArg (some <$> ·) (Setting.read_of_missing h)

theorem read_of_given (h : x.field? s = some (some w)) (htext : w.text? = some text) :
    x.read s = .ok (some text) := by
  cases x with
  | extension => exact Setting.read_of_given h (Setting.optional_of_text htext)
  | _ => exact congrArg (some <$> ·) (Setting.read_of_given h htext)

theorem read_eq_error (h : x.read s = .error e) : x.field? s = none ∧ e.key = x.sectionName ∨
    ∃ w, x.field? s = some (some w) ∧ w.text? = none ∧ e.key = x.key := by
  cases x with
  | extension =>
    rcases Setting.read_eq_error h with hfield | ⟨w, hfield, hread, hkey⟩
    · exact .inl hfield
    · exact .inr ⟨w, hfield, Setting.text?_of_optional hread, hkey⟩
  | _ =>
    rcases error_of_bind h with hread | ⟨_, _, hpure⟩
    · exact Setting.read_eq_error hread
    · cases hpure

theorem read_of_ofSetting (h : Settings.ofSetting s = .ok r) (x : TextSetting) : x.read s = .ok (x.value? r) := by
  obtain ⟨root, hroot, h⟩ := ok_of_bind h
  obtain ⟨extension, hextension, h⟩ := ok_of_bind h
  obtain ⟨cacheDir, hcacheDir, h⟩ := ok_of_bind h
  obtain ⟨noColour, -, h⟩ := ok_of_bind h
  obtain ⟨format, hformat, h⟩ := ok_of_bind h
  obtain ⟨logFile, -, h⟩ := ok_of_bind h
  cases h
  cases x with
  | root => exact congrArg (some <$> ·) hroot
  | extension => exact hextension
  | cacheDir => exact congrArg (some <$> ·) hcacheDir
  | format => exact congrArg (some <$> ·) hformat

theorem ofSetting_eq_error (h : Settings.ofSetting s = .error e) :
    (∃ x : TextSetting, x.read s = .error e) ∨
      s.read 0 "output" "no_color" .bool Setting.bool? Settings.defaults.noColour = .error e ∨
      s.read 0 "logging" "file" .text (Setting.optional text?) none = .error e := by
  rcases error_of_bind h with hroot | ⟨_, -, h⟩
  · exact .inl ⟨root, congrArg (some <$> ·) hroot⟩
  rcases error_of_bind h with hextension | ⟨_, -, h⟩
  · exact .inl ⟨extension, hextension⟩
  rcases error_of_bind h with hdir | ⟨_, -, h⟩
  · exact .inl ⟨cacheDir, congrArg (some <$> ·) hdir⟩
  rcases error_of_bind h with hcolour | ⟨_, -, h⟩
  · exact .inr (.inl hcolour)
  rcases error_of_bind h with hformat | ⟨_, -, h⟩
  · exact .inl ⟨format, congrArg (some <$> ·) hformat⟩
  rcases error_of_bind h with hfile | ⟨_, -, h⟩
  · exact .inr (.inr hfile)
  · cases h

/-- The settings have this value; or there are none, for a reason that is not the setting. -/
def Comes (x : TextSetting) (value : Option String) : Except SettingsError Settings → Prop
  | .ok r => x.value? r = value
  | .error e => ∃ m : Mismatch, e = .invalid m ∧ m.key ≠ x.key ∧ m.key ≠ x.sectionName

theorem key_injective {y : TextSetting} (h : y.key = x.key) : y = x := by
  revert h
  cases x <;> cases y <;> decide

theorem key_ne_sectionName (x y : TextSetting) : x.key ≠ y.sectionName := by
  cases x <;> cases y <;> decide

theorem key_ne_of_read {f : Option Setting} {value : Option String} (hfield : x.field? s = some f)
    (hread : x.read s = .ok value) (h : Settings.ofSetting s = .error e) :
    e.key ≠ x.key ∧ e.key ≠ x.sectionName := by
  have hsection : ∀ {sectionName name place},
      Setting.field? (Assoc.lookup sectionName s.entries) name place = none →
        sectionName ≠ x.sectionName := by
    rintro sectionName name place hnone rfl
    cases hfield.symm.trans (Setting.field?_eq_none hnone x.name x.place)
  rcases ofSetting_eq_error h with ⟨y, hy⟩ | hcolour | hfile
  · rcases read_eq_error hy with ⟨hnone, hkey⟩ | ⟨w, -, -, hkey⟩
    · rw [hkey]
      exact ⟨(x.key_ne_sectionName y).symm, hsection hnone⟩
    · rw [hkey]
      refine ⟨fun hsame => ?_, y.key_ne_sectionName x⟩
      rw [key_injective hsame, hread] at hy
      cases hy
  · rcases Setting.read_eq_error hcolour with ⟨hnone, hkey⟩ | ⟨w, -, -, hkey⟩
    · rw [hkey]
      exact ⟨(x.key_ne_sectionName .format).symm, hsection hnone⟩
    · rw [hkey]
      cases x <;> decide
  · rcases Setting.read_eq_error hfile with ⟨-, hkey⟩ | ⟨w, -, -, hkey⟩
    all_goals
      rw [hkey]
      cases x <;> decide

theorem comes_of_read {f : Option Setting} {value : Option String} (hfield : x.field? s = some f)
    (hread : x.read s = .ok value) : x.Comes value ((Settings.ofSetting s).mapError .invalid) := by
  rcases h : Settings.ofSetting s with e | r
  · exact ⟨e, rfl, key_ne_of_read hfield hread h⟩
  · exact Except.ok.inj ((read_of_ofSetting h x).symm.trans hread)

theorem comes_of_missing (h : x.field? s = some none) :
    x.Comes (x.value? .defaults) ((Settings.ofSetting s).mapError .invalid) :=
  comes_of_read h (read_of_missing h)

theorem comes_of_given (h : x.field? s = some (some w)) (htext : w.text? = some text) :
    x.Comes (some text) ((Settings.ofSetting s).mapError .invalid) :=
  comes_of_read h (read_of_given h htext)

end TextSetting

namespace Environment

variable {v : String}

def shown (v : String) : String := (settingOf v).text?.getD v

theorem text?_settingOf (v : String) : (settingOf v).text? = some (shown v) := by
  rw [shown, settingOf]
  split
  · rfl
  · split
    · rfl
    · split
      · rfl
      · split <;> rfl

/-- The text is no value but itself, or is what its value is written as. -/
structure IsWritten (v : String) : Prop where
  yes : Text.lower v = "true" → v = "true"
  no : Text.lower v = "false" → v = "false"
  whole : ∀ n, Digits.integer? v.toList = some n → Digits.IsPlain v.toList
  fraction : Digits.integer? v.toList = none → ∀ x, Floating.ofText? v = some x → v = x.text

theorem isWritten_toString (b : Bool) : IsWritten (toString b) where
  yes h := by cases b with
    | true => rfl
    | false => exact absurd h (by decide +kernel)
  no h := by cases b with
    | true => exact absurd h (by decide +kernel)
    | false => rfl
  whole n h := by
    have hnone : Digits.integer? (toString b).toList = none := by cases b <;> decide +kernel
    rw [hnone] at h
    cases h
  fraction _ x h := by
    have hnone : Floating.ofText? (toString b) = none := by cases b <;> decide +kernel
    rw [hnone] at h
    cases h

theorem shown_eq_iff (v : String) : shown v = v ↔ IsWritten v := by
  rw [shown, settingOf]
  split
  · rename_i hyes
    exact ⟨fun h => h ▸ isWritten_toString true, fun h => (h.yes hyes).symm⟩
  rename_i hyes
  split
  · rename_i hno
    exact ⟨fun h => h ▸ isWritten_toString false, fun h => (h.no hno).symm⟩
  rename_i hno
  split
  · rename_i n hn
    have hplain : v = toString n ↔ Digits.IsPlain v.toList := by
      rw [← Digits.ofList_eq_iff hn, String.ofList_toList]
    constructor
    · intro h
      exact ⟨(absurd · hyes), (absurd · hno), fun _ _ => hplain.mp h.symm, by simp [hn]⟩
    · intro h
      exact (hplain.mpr (h.whole n hn)).symm
  rename_i hn
  split
  · rename_i x hx
    constructor
    · intro h
      refine ⟨(absurd · hyes), (absurd · hno), by simp [hn], fun _ y hy => ?_⟩
      rw [hx] at hy
      cases hy
      exact h.symm
    · intro h
      exact (h.fraction hn x hx).symm
  · rename_i hx
    exact iff_of_true rfl ⟨(absurd · hyes), (absurd · hno), by simp [hn], by simp [hx]⟩

end Environment

end TemplateTrace
