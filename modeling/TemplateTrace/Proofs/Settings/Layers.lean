import TemplateTrace.Proofs.Assoc
import TemplateTrace.Settings.Sources

namespace TemplateTrace

inductive TextSetting
  | root
  | extension
  | cacheDir
  | format
  deriving DecidableEq

namespace TextSetting

def sectionName : TextSetting → String
  | root => "templates"
  | extension => "templates"
  | cacheDir => "cache"
  | format => "output"

def name : TextSetting → String
  | root => "root"
  | extension => "extension"
  | cacheDir => "dir"
  | format => "format"

def place : TextSetting → Nat
  | root => 0
  | extension => 1
  | cacheDir => 0
  | format => 1

def key (x : TextSetting) : String := x.sectionName ++ "." ++ x.name

def variableName : TextSetting → String
  | root => "TPLMAP_TEMPLATES__ROOT"
  | extension => "TPLMAP_TEMPLATES__EXTENSION"
  | cacheDir => "TPLMAP_CACHE__DIR"
  | format => "TPLMAP_OUTPUT__FORMAT"

def value? : TextSetting → Settings → Option String
  | root, s => some s.root
  | extension, s => s.extension
  | cacheDir, s => some s.cacheDir
  | format, s => some s.format

end TextSetting

namespace Setting

variable {s new w : Setting} {entries : List (String × Setting)} {key : String}

theorem exists_pathOf (key : String) : ∃ name path, pathOf key = .key name :: path := by
  rw [pathOf, stepsWithin]
  split
  · exact ⟨key, [], rfl⟩
  · rcases stepsWithin _ _ with _ | path
    · exact ⟨key, [], rfl⟩
    · exact ⟨_, path, rfl⟩

theorem lookup_overlayAt (name other : String) (path : List Step) (new old : Setting) :
    Assoc.lookup other (overlayAt (.key name :: path) new old).entries =
      if other = name then some (overlayAt path new (old.entry name)) else
        Assoc.lookup other old.entries := by
  rw [overlayAt, Setting.entries, Assoc.lookup_insert]

theorem overlayAll_keeps {P : Setting → Prop}
    (hstep : ∀ e ∈ entries, ∀ s, P s → P (overlayAt (pathOf e.1) e.2 s)) (h : P s) :
    P (overlayAll entries s) := by
  induction entries generalizing s with
  | nil => exact h
  | cons e rest ih =>
    rw [List.forall_mem_cons] at hstep
    exact ih hstep.2 (hstep.1 s h)

end Setting

namespace TextSetting

open Setting (Step pathOf overlayAt overlayAll)

variable {x : TextSetting} {s new : Setting} {w : Option Setting} {key : String}
  {entries : List (String × Setting)}

def path (x : TextSetting) : List Step := [.key x.sectionName, .key x.name]

theorem pathOf_key (x : TextSetting) : pathOf x.key = x.path := by
  cases x <;> decide +kernel

def field? (x : TextSetting) (s : Setting) : Option (Option Setting) :=
  Setting.field? (Assoc.lookup x.sectionName s.entries) x.name x.place

def Enters (x : TextSetting) (key : String) : Prop := ∃ path, pathOf key = .key x.sectionName :: path

def Spares (x : TextSetting) (key : String) : Prop :=
  ∀ path, pathOf key = .key x.sectionName :: path → ∃ other more, path = .key other :: more ∧ other ≠ x.name

/-- The section of the setting is a table, in which the setting is this. -/
def Holds (x : TextSetting) (s : Setting) (w : Option Setting) : Prop :=
  ∃ fields, Assoc.lookup x.sectionName s.entries = some (.table fields) ∧ Assoc.lookup x.name fields = w

theorem not_spares_key (x : TextSetting) : ¬ x.Spares x.key := by
  intro h
  obtain ⟨other, more, hpath, hother⟩ := h _ x.pathOf_key
  cases hpath
  exact hother rfl

theorem spares_key {y : TextSetting} (h : y ≠ x) : x.Spares y.key := by
  intro path hpath
  rw [y.pathOf_key, TextSetting.path, List.cons.injEq] at hpath
  obtain ⟨hsection, rfl⟩ := hpath
  refine ⟨y.name, [], rfl, fun hname => h ?_⟩
  revert hsection hname
  cases x <;> cases y <;> decide

theorem not_enters_key {y : TextSetting} (h : y.sectionName ≠ x.sectionName) : ¬ x.Enters y.key := by
  rintro ⟨path, hpath⟩
  rw [y.pathOf_key, TextSetting.path, List.cons.injEq, Step.key.injEq] at hpath
  exact h hpath.1

theorem Holds.field? (h : x.Holds s w) : x.field? s = some w := by
  obtain ⟨fields, hsection, hfield⟩ := h
  rw [TextSetting.field?, hsection, Setting.field?, hfield]

theorem lookup_of_not_enters (h : ¬ x.Enters key) (new s : Setting) :
    Assoc.lookup x.sectionName (overlayAt (pathOf key) new s).entries =
      Assoc.lookup x.sectionName s.entries := by
  obtain ⟨name, path, hpath⟩ := Setting.exists_pathOf key
  have hother : x.sectionName ≠ name := by
    rintro hname
    exact h ⟨path, by rw [hpath, hname]⟩
  rw [hpath, Setting.lookup_overlayAt, if_neg hother]

theorem lookup_of_spares (h : x.Spares key) (henters : x.Enters key) (new s : Setting) :
    ∃ fields, Assoc.lookup x.sectionName (overlayAt (pathOf key) new s).entries = some (.table fields) ∧
      Assoc.lookup x.name fields = Assoc.lookup x.name (s.entry x.sectionName).entries := by
  obtain ⟨path, hpath⟩ := henters
  obtain ⟨other, more, rfl, hother⟩ := h path hpath
  rw [hpath, Setting.lookup_overlayAt, if_pos rfl]
  refine ⟨_, rfl, ?_⟩
  rw [Assoc.lookup_insert, if_neg hother.symm]

theorem Holds.spared (h : x.Holds s w) (hkey : x.Spares key) (new : Setting) :
    x.Holds (overlayAt (pathOf key) new s) w := by
  obtain ⟨fields, hsection, hfield⟩ := h
  by_cases henters : x.Enters key
  · obtain ⟨fields', hsection', hfield'⟩ := lookup_of_spares hkey henters new s
    refine ⟨fields', hsection', ?_⟩
    rw [hfield', Setting.entry, hsection]
    exact hfield
  · refine ⟨fields, ?_, hfield⟩
    rw [lookup_of_not_enters henters, hsection]

theorem holds_of_path (h : pathOf key = x.path) (hnew : ∀ old : Setting, old.overlay new = new) (s : Setting) :
    x.Holds (overlayAt (pathOf key) new s) (some new) := by
  rw [h, path]
  refine ⟨_, by rw [Setting.lookup_overlayAt, if_pos rfl]; rfl, ?_⟩
  rw [Assoc.lookup_insert, if_pos rfl, overlayAt, hnew]

theorem holds_of_mem {new : Setting} (hnew : ∀ old : Setting, old.overlay new = new)
    (hentries : ∀ e ∈ entries, x.Spares e.1 ∨ pathOf e.1 = x.path ∧ e.2 = new)
    (hmem : ∃ e ∈ entries, pathOf e.1 = x.path ∧ e.2 = new) (s : Setting) :
    x.Holds (overlayAll entries s) (some new) := by
  obtain ⟨e, hmem, hpath, rfl⟩ := hmem
  obtain ⟨before, after, rfl⟩ := List.append_of_mem hmem
  have hkeeps : ∀ d ∈ after, ∀ s, x.Holds s (some e.2) → x.Holds (overlayAt (pathOf d.1) d.2 s) (some e.2) := by
    intro d hd s hs
    rcases hentries d (by simp [hd]) with hspares | ⟨hpath, hvalue⟩
    · exact hs.spared hspares d.2
    · rw [hvalue]
      exact holds_of_path hpath hnew s
  rw [overlayAll, List.foldl_append, List.foldl_cons]
  exact Setting.overlayAll_keeps hkeeps (holds_of_path hpath hnew _)

theorem field?_overlayAll (hentries : ∀ e ∈ entries, x.Spares e.1) (hfield : x.field? s = some w)
    (hlist : ∀ items, Assoc.lookup x.sectionName s.entries = some (.list items) →
      ∀ e ∈ entries, ¬ x.Enters e.1) : x.field? (overlayAll entries s) = some w := by
  rcases hsection : Assoc.lookup x.sectionName s.entries with _ | old
  · obtain rfl : w = none := by
      rw [field?, hsection] at hfield
      exact (Option.some.inj hfield).symm
    have hkeeps : ∀ e ∈ entries, ∀ s,
        Assoc.lookup x.sectionName s.entries = none ∨ x.Holds s none →
        Assoc.lookup x.sectionName (overlayAt (pathOf e.1) e.2 s).entries = none ∨
          x.Holds (overlayAt (pathOf e.1) e.2 s) none := by
      rintro e he s (hnone | hholds)
      · by_cases henters : x.Enters e.1
        · obtain ⟨fields, hfields, hname⟩ := lookup_of_spares (hentries e he) henters e.2 s
          rw [Setting.entry, hnone] at hname
          exact .inr ⟨fields, hfields, hname⟩
        · rw [lookup_of_not_enters henters]
          exact .inl hnone
      · exact .inr (hholds.spared (hentries e he) e.2)
    rcases Setting.overlayAll_keeps hkeeps (.inl hsection) with hnone | hholds
    · rw [field?, hnone]
      rfl
    · exact hholds.field?
  · cases old with
    | table fields =>
      have hholds : x.Holds s w := by
        rw [field?, hsection] at hfield
        exact ⟨fields, hsection, Option.some.inj hfield⟩
      have hkeeps : ∀ e ∈ entries, ∀ s, x.Holds s w → x.Holds (overlayAt (pathOf e.1) e.2 s) w :=
        fun e he s hs => hs.spared (hentries e he) e.2
      exact (Setting.overlayAll_keeps hkeeps hholds).field?
    | list items =>
      have hkeeps : ∀ e ∈ entries, ∀ s, Assoc.lookup x.sectionName s.entries = some (.list items) →
          Assoc.lookup x.sectionName (overlayAt (pathOf e.1) e.2 s).entries = some (.list items) := by
        intro e he s hs
        rw [lookup_of_not_enters (hlist items hsection e he), hs]
      rw [field?, Setting.overlayAll_keeps hkeeps hsection, ← hsection]
      exact hfield
    | _ =>
      rw [field?, hsection] at hfield
      cases hfield

end TextSetting

namespace Environment

open Setting (pathOf overlayAll)

variable {env : Environment} {x : TextSetting} {key v : String} {w : Setting}

def addSetting (t : Assoc String Setting) (e : String × String) : Assoc String Setting :=
  match settingKey? e.1 with
  | some key => Assoc.insert key (settingOf e.2) t
  | none => t

theorem settings_eq (env : Environment) : env.settings = env.foldl addSetting [] := rfl

theorem mem_settings (h : (key, w) ∈ env.settings) :
    ∃ e ∈ env, settingKey? e.1 = some key ∧ w = settingOf e.2 := by
  have hfold : ∀ (env : Environment) (t : Assoc String Setting), (key, w) ∈ env.foldl addSetting t →
      (key, w) ∈ t ∨ ∃ e ∈ env, settingKey? e.1 = some key ∧ w = settingOf e.2 := by
    intro env
    induction env with
    | nil => exact fun t h => .inl h
    | cons e rest ih =>
      intro t h
      rcases ih _ h with hmem | ⟨d, hd, hkey⟩
      · rw [addSetting] at hmem
        split at hmem
        · rename_i k hk
          rcases Assoc.mem_of_mem_insert hmem with heq | hmem
          · cases heq
            exact .inr ⟨e, List.mem_cons_self, hk, rfl⟩
          · exact .inl hmem
        · exact .inl hmem
      · exact .inr ⟨d, List.mem_cons_of_mem _ hd, hkey⟩
  rw [settings_eq] at h
  exact (hfold env [] h).resolve_left List.not_mem_nil

theorem mem_keys_settings {e : String × String} (he : e ∈ env) (hkey : settingKey? e.1 = some key) :
    key ∈ Assoc.keys env.settings := by
  have hkept : ∀ (env : Environment) (t : Assoc String Setting), key ∈ Assoc.keys t →
      key ∈ Assoc.keys (env.foldl addSetting t) := by
    intro env
    induction env with
    | nil => exact fun t h => h
    | cons e rest ih =>
      intro t h
      apply ih
      rw [addSetting]
      split
      · rw [Assoc.keys_insert]
        split
        · exact h
        · exact List.mem_append_left _ h
      · exact h
  obtain ⟨before, after, rfl⟩ := List.append_of_mem he
  rw [settings_eq, List.foldl_append, List.foldl_cons]
  apply hkept
  rw [addSetting, hkey, Assoc.keys_insert]
  split
  · assumption
  · exact List.mem_append_right _ List.mem_cons_self

theorem overlay_settingOf (text : String) (old : Setting) : old.overlay (settingOf text) = settingOf text := by
  rw [settingOf]
  split
  · rfl
  · split
    · rfl
    · split
      · rfl
      · split <;> rfl

def Touches (x : TextSetting) (name : String) : Prop := ∃ key, settingKey? name = some key ∧ ¬ x.Spares key

/-- The environment gives the setting this text, in its own variable and nowhere else. -/
structure Sets (env : Environment) (x : TextSetting) (v : String) : Prop where
  mem : (x.variableName, v) ∈ env
  only : ∀ e ∈ env, Touches x e.1 → settingKey? e.1 = some x.key ∧ e.2 = v

/-- The environment leaves the setting as it is in these settings, and a section that is a list as well,
which would become a table. -/
structure Leaves (env : Environment) (x : TextSetting) (s : Setting) : Prop where
  untouched : ∀ e ∈ env, ¬ Touches x e.1
  list : ∀ items, Assoc.lookup x.sectionName s.entries = some (.list items) →
    ∀ e ∈ env, ∀ key, settingKey? e.1 = some key → ¬ x.Enters key

theorem settingKey?_variableName (x : TextSetting) : settingKey? x.variableName = some x.key := by
  cases x <;> decide +kernel

theorem not_touches_variableName {y : TextSetting} (h : y ≠ x) : ¬ Touches x y.variableName := by
  rintro ⟨key, hkey, hspares⟩
  rw [settingKey?_variableName] at hkey
  cases hkey
  exact hspares (TextSetting.spares_key h)

theorem leaves_of_sections {s : Setting}
    (h : ∀ e ∈ env, ∃ y : TextSetting, e.1 = y.variableName ∧ y.sectionName ≠ x.sectionName) : env.Leaves x s where
  untouched e he := by
    obtain ⟨y, hy, hsection⟩ := h e he
    rw [hy]
    exact not_touches_variableName fun hsame => hsection (by rw [hsame])
  list _ _ e he key hkey := by
    obtain ⟨y, hy, hsection⟩ := h e he
    rw [hy, settingKey?_variableName] at hkey
    cases hkey
    exact TextSetting.not_enters_key hsection

theorem Sets.holds (h : env.Sets x v) (s : Setting) :
    x.Holds (overlayAll env.settings s) (some (settingOf v)) := by
  have hentries : ∀ e ∈ env.settings, x.Spares e.1 ∨ Setting.pathOf e.1 = x.path ∧ e.2 = settingOf v := by
    rintro ⟨key, w⟩ hmem
    obtain ⟨e, he, hkey, rfl⟩ := mem_settings hmem
    by_cases hspares : x.Spares key
    · exact .inl hspares
    · obtain ⟨hown, hvalue⟩ := h.only e he ⟨key, hkey, hspares⟩
      rw [hkey] at hown
      cases hown
      exact .inr ⟨x.pathOf_key, by rw [hvalue]⟩
  have hkey := mem_keys_settings h.mem (settingKey?_variableName x)
  obtain ⟨⟨key, w⟩, hmem, rfl⟩ := List.mem_map.mp hkey
  refine TextSetting.holds_of_mem (overlay_settingOf v) hentries ⟨_, hmem, x.pathOf_key, ?_⟩ s
  rcases hentries _ hmem with hspares | ⟨-, hvalue⟩
  · exact absurd hspares x.not_spares_key
  · exact hvalue

theorem Leaves.field? {s : Setting} {w : Option Setting} (h : env.Leaves x s) (hfield : x.field? s = some w) :
    x.field? (overlayAll env.settings s) = some w := by
  apply TextSetting.field?_overlayAll _ hfield
  · intro items hitems e he
    obtain ⟨d, hd, hkey, -⟩ := mem_settings he
    exact h.list items hitems d hd e.1 hkey
  · intro e he
    obtain ⟨d, hd, hkey, -⟩ := mem_settings he
    exact not_not.mp fun hspares => h.untouched d hd ⟨e.1, hkey, hspares⟩

end Environment

end TemplateTrace
