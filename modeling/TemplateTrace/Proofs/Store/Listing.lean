import Mathlib.Data.List.Pairwise
import TemplateTrace.Proofs.Store.Fresh
import TemplateTrace.Proofs.Store.Isolation

/-!
The keys that a store lists, and the entries that are there. A name is read back more freely than
it is written, so that a file of another name can be listed as the entry of a key. Main statement:
`keys_exact_iff`.
-/

namespace TemplateTrace

namespace Key

variable {name key : String} {a b c : Char} {n : UInt8} {d : Nat}

/-- The character is not one of those that only reading takes. -/
def Strict (c : Char) : Prop := c ≠ '+' ∧ ¬ ('A' ≤ c ∧ c ≤ 'F')

instance (c : Char) : Decidable (Strict c) := inferInstanceAs (Decidable (_ ∧ _))

theorem strict_of_all {l : List Char} (h : (l.all fun c => decide (Strict c)) = true) :
    ∀ c ∈ l, Strict c := fun c hc => of_decide_eq_true (List.all_eq_true.mp h c hc)

theorem lt_of_digit? (h : digit? c = some d) : c.toNat < 128 := by
  have hbound : ∀ {last : Char}, last.toNat < 128 → c ≤ last → c.toNat < 128 :=
    fun hlast hle => Nat.lt_of_le_of_lt (UInt32.le_iff_toNat_le.mp hle) hlast
  rw [digit?] at h
  split at h
  · rename_i hc
    exact hbound (by decide) hc.2
  · split at h
    · rename_i hc
      exact hbound (by decide) hc.2
    · split at h
      · rename_i hc
        exact hbound (by decide) hc.2
      · cases h

theorem digitChar_of_digit? (h : digit? c = some d) (hc : Strict c) : d < 16 ∧ Nat.digitChar d = c := by
  have hchars : ∀ i < 128, ∀ d ∈ digit? (Char.ofNat i), Strict (Char.ofNat i) →
      d < 16 ∧ Nat.digitChar d = Char.ofNat i := by decide +kernel
  have hchar := hchars c.toNat (lt_of_digit? h) d
  rw [Char.ofNat_toNat] at hchar
  exact hchar h hc

theorem encodeByte_of_byte? (h : byte? a b = some n) (ha : Strict a) (hb : Strict b) :
    encodeByte n = [a, b] := by
  rw [byte?] at h
  split at h
  · cases h
  · rename_i low hlow
    rw [if_neg ha.1, Option.map_eq_some_iff] at h
    obtain ⟨high, hhigh, rfl⟩ := h
    obtain ⟨hlt, hlow⟩ := digitChar_of_digit? hlow hb
    obtain ⟨hlt', hhigh⟩ := digitChar_of_digit? hhigh ha
    have hnat : (high * 16 + low).toUInt8.toNat = high * 16 + low := by
      rw [Nat.toUInt8_eq, UInt8.toNat_ofNat']
      exact Nat.mod_eq_of_lt (by omega)
    have hdiv : (high * 16 + low) / 16 = high := by omega
    have hmod : (high * 16 + low) % 16 = low := by omega
    rw [encodeByte, hnat, hdiv, hmod, hlow, hhigh]

theorem flatMap_of_bytes? {l : List Char} {bs : Bytes} (h : bytes? l = some bs)
    (hl : ∀ c ∈ l, Strict c) : bs.flatMap encodeByte = l := by
  induction l using bytes?.induct generalizing bs with
  | case1 =>
    cases h
    rfl
  | case2 c => cases h
  | case3 a b rest ih =>
    rw [bytes?, Option.bind_eq_bind, Option.bind_eq_some_iff] at h
    obtain ⟨n, hn, h⟩ := h
    rw [Option.bind_eq_bind, Option.bind_eq_some_iff] at h
    obtain ⟨more, hmore, h⟩ := h
    cases h
    simp only [List.forall_mem_cons] at hl
    rw [List.flatMap_cons, ih hmore hl.2.2, encodeByte_of_byte? hn hl.1 hl.2.1]
    rfl

theorem strict_of_mem_encode (h : c ∈ (encode key).toList) : Strict c := by
  rw [encode, String.toList_ofList] at h
  obtain ⟨n, -, hn⟩ := List.mem_flatMap.mp h
  have hdigits : ∀ d : Fin 16, Strict (Nat.digitChar d.val) := by decide +kernel
  have hlt := n.toNat_lt
  simp only [encodeByte, List.mem_cons, List.not_mem_nil, or_false] at hn
  rcases hn with rfl | rfl
  · exact hdigits ⟨n.toNat / 16, by omega⟩
  · exact hdigits ⟨n.toNat % 16, by omega⟩

theorem eq_encode_iff (h : decode? name = some key) :
    name = encode key ↔ ∀ c ∈ name.toList, Strict c := by
  constructor
  · rintro rfl c hc
    exact strict_of_mem_encode hc
  · intro hname
    obtain ⟨bs, hbs, hkey⟩ := Option.bind_eq_some_iff.mp h
    rw [encode, Text.bytes_of_ofBytes? hkey, flatMap_of_bytes? hbs hname, String.ofList_toList]

end Key

namespace DirectoryStore

open FileTree (maxName maxPath checkPath nextOf)

variable {s : DirectoryStore} {key name : String} {t : FileTree} {c : List String}

theorem of_stripSuffix? {stem : String} (h : stripSuffix? name = some stem) : name = stem ++ entrySuffix := by
  rw [stripSuffix?] at h
  split at h
  · rename_i hdrop
    cases h
    rw [← String.toList_inj, String.toList_append, String.toList_ofList, ← hdrop, List.take_append_drop]
  · cases h

theorem eq_entryName_iff (h : keyOfName? name = some key) :
    name = entryName key ↔ ∀ c ∈ name.toList, Key.Strict c := by
  obtain ⟨stem, hstem, hkey⟩ := Option.bind_eq_some_iff.mp h
  have hsuffix : ∀ c ∈ entrySuffix.toList, Key.Strict c := Key.strict_of_all (by decide)
  rw [of_stripSuffix? hstem, entryName, String.append_left_inj, Key.eq_encode_iff hkey,
    String.toList_append, List.forall_mem_append, and_iff_left hsuffix]

def files (s : DirectoryStore) (t : FileTree) : List String :=
  match t.fileNames s.dir with
  | .ok names => names
  | .error _ => []

theorem At.files_eq (h : s.At t c) : s.files t = t.filesIn c := by
  obtain ⟨time, hnode⟩ := FileTree.look?_eq_dir_iff.mp h.dir
  rw [files, FileTree.fileNames, FileTree.find_of_place h.place, hnode, ok_bind, h.place]
  rfl

theorem files_of_missing (h : t.isDir s.dir = false) : s.files t = [] := by
  rw [files, FileTree.fileNames]
  rw [FileTree.isDir] at h
  rcases hfind : t.find s.dir with e | ⟨content, time⟩ | time
  · rfl
  · rfl
  · rw [hfind] at h
    cases h

theorem files_cases (s : DirectoryStore) (t : FileTree) :
    (∃ c, s.At t c ∧ s.files t = t.filesIn c) ∨ (t.isDir s.dir = false ∧ s.files t = []) := by
  by_cases hdir : t.isDir s.dir = true
  · obtain ⟨c, hplace, hlook⟩ := FileTree.isDir_iff.mp hdir
    have hat : s.At t c := ⟨hplace, hlook⟩
    exact .inl ⟨c, hat, hat.files_eq⟩
  · rw [Bool.not_eq_true] at hdir
    exact .inr ⟨hdir, files_of_missing hdir⟩

theorem runFrom_keys (s : DirectoryStore) (t : FileTree) :
    runFrom (s.keys : ExceptT Error (StateM FileTree) (List String)) t =
      (.ok (MapStore.sortKeys ((s.files t).filterMap keyOfName?)), t) := by
  obtain ⟨c, hat, hfiles⟩ | ⟨hdir, hfiles⟩ := s.files_cases t
  · rw [hat.keys_eq, hfiles]
  · rw [keys_of_missing hdir, hfiles, List.filterMap_nil, List.perm_nil.mp (MapStore.perm_sortKeys [])]

theorem mem_files_iff (hsound : t.Sound) :
    name ∈ s.files t ↔ ∃ c, s.At t c ∧ ∃ b, t.look? (c ++ [name]) = some (some b) := by
  constructor
  · intro hname
    obtain ⟨c, hat, hfiles⟩ | ⟨-, hfiles⟩ := s.files_cases t
    · rw [hfiles, FileTree.mem_filesIn_iff hsound] at hname
      exact ⟨c, hat, hname⟩
    · rw [hfiles] at hname
      cases hname
  · rintro ⟨c, hat, hfile⟩
    rwa [hat.files_eq, FileTree.mem_filesIn_iff hsound]

theorem nodup_files (hsound : t.Sound) (s : DirectoryStore) : (s.files t).Nodup := by
  obtain ⟨c, -, hfiles⟩ | ⟨-, hfiles⟩ := s.files_cases t
  · rw [hfiles]
    exact FileTree.nodup_filesIn hsound c
  · rw [hfiles]
    exact List.nodup_nil

structure Nameable (s : DirectoryStore) (key : String) : Prop where
  name : Text.size (entryName key) ≤ maxName
  path : Text.size (s.entryPath key) ≤ maxPath

theorem at_of_reaches (hdir : s.dir ≠ "") (hcheck : checkPath (s.entryPath key) = .ok ())
    (h : s.Reaches t c) : s.At t c := by
  have hbase := FileTree.checkPath_of_join (isName_entryName key) hdir hcheck
  exact ⟨(FileTree.place_of_check t hbase).trans h.walk, h.dir⟩

theorem isFile_entryPath_iff (hdir : s.dir ≠ "") (hsound : t.Sound) :
    t.isFile (s.entryPath key) = true ↔ entryName key ∈ s.files t ∧ s.Nameable key := by
  have hname := isName_entryName key
  rw [mem_files_iff hsound, FileTree.isFile_iff]
  constructor
  · rintro ⟨content, hread⟩
    obtain ⟨p, hplace, hfile, -⟩ := FileTree.readBytes_eq_ok_iff.mp hread
    obtain ⟨c, hreaches, rfl⟩ := Reaches.of_place hname hplace
    have hcheck := FileTree.checkPath_of_place hplace
    rw [entryPath, hreaches.place_child hname] at hplace
    obtain ⟨_, -, hnext⟩ := ok_of_bind hplace
    exact ⟨⟨c, at_of_reaches hdir hcheck hreaches, content, hfile⟩,
      FileTree.size_le_of_nextOf hname hnext, (FileTree.checkPath_eq_ok_iff.mp hcheck).2.2⟩
  · rintro ⟨⟨c, hat, content, hfile⟩, hsize, hpath⟩
    have hcheck : checkPath (Path.join s.dir (entryName key)) = .ok () :=
      FileTree.checkPath_join hname (FileTree.checkPath_of_place hat.place) hpath
    have hplace : t.place (s.entryPath key) = .ok (c ++ [entryName key]) := by
      rw [entryPath, hat.reaches.place_child hname, hcheck, ok_bind, FileTree.nextOf_name c hname hsize]
    exact ⟨content, FileTree.readBytes_eq_ok_iff.mpr ⟨_, hplace, hfile, s.endsWithSlash_entryPath key⟩⟩

theorem operations_of_isFile (h : t.isFile (s.entryPath key) = true) :
    ∃ content, t.readBytes (s.entryPath key) = .ok content ∧
      (∀ text, content = Text.bytes text → s.found t key = .ok (some text) ∧
        ∃ time, t.modified? (s.entryPath key) = some time ∧
          runFrom (s.isFresh key : ExceptT Error (StateM FileTree) Bool) t = (.ok (verdict t time text), t)) ∧
      ∃ u, runFrom (s.remove key : ExceptT Error (StateM FileTree) Unit) t = (.ok (), u) ∧
        u.isFile (s.entryPath key) = false := by
  obtain ⟨content, hread⟩ := FileTree.isFile_iff.mp h
  obtain ⟨u, hremove, hgone, -⟩ := remove_of_read hread
  refine ⟨content, hread, ?_, u, hremove, ?_⟩
  · rintro text rfl
    have hanswer : s.answer key (t.readBytes (s.entryPath key)) = .ok (some text) :=
      answer_eq_text_iff.mpr hread
    obtain ⟨node, hfind, -⟩ := ok_of_bind hread
    have htime : t.modified? (s.entryPath key) = some node.modified := by
      rw [FileTree.modified?, hfind]
    refine ⟨by rw [found_eq_answer, hanswer], node.modified, htime, ?_⟩
    rw [runFrom_isFresh, htime, hanswer]
    rfl
  · rw [Bool.eq_false_iff]
    intro hfile
    obtain ⟨content', hread'⟩ := FileTree.isFile_iff.mp hfile
    cases hgone.symm.trans hread'

/-- The name is as it is written for a key, and short enough to be found under it. -/
structure Written (s : DirectoryStore) (name : String) : Prop where
  strict : ∀ c ∈ name.toList, Key.Strict c
  name_short : Text.size name ≤ maxName
  path_short : Text.size (Path.join s.dir name) ≤ maxPath

theorem written_iff (h : keyOfName? name = some key) :
    s.Written name ↔ name = entryName key ∧ s.Nameable key := by
  constructor
  · rintro ⟨hstrict, hname, hpath⟩
    obtain rfl := (eq_entryName_iff h).mpr hstrict
    exact ⟨rfl, hname, hpath⟩
  · rintro ⟨rfl, hname, hpath⟩
    exact ⟨(eq_entryName_iff h).mp rfl, hname, hpath⟩

theorem mem_keys_iff (hdir : s.dir ≠ "") (hsound : t.Sound) :
    key ∈ MapStore.sortKeys ((s.files t).filterMap keyOfName?) ↔ t.isFile (s.entryPath key) = true ∨
      ∃ name ∈ s.files t, keyOfName? name = some key ∧ ¬ s.Written name := by
  rw [(MapStore.perm_sortKeys _).mem_iff, List.mem_filterMap, isFile_entryPath_iff hdir hsound]
  constructor
  · rintro ⟨name, hname, hkey⟩
    by_cases hwritten : s.Written name
    · obtain ⟨rfl, hnameable⟩ := (written_iff hkey).mp hwritten
      exact .inl ⟨hname, hnameable⟩
    · exact .inr ⟨name, hname, hkey, hwritten⟩
  · rintro (⟨hname, -⟩ | ⟨name, hname, hkey, -⟩)
    · exact ⟨entryName key, hname, keyOfName?_entryName key⟩
    · exact ⟨name, hname, hkey⟩

theorem nodup_keys (hsound : t.Sound)
    (h : ∀ name ∈ s.files t, ∀ key, keyOfName? name = some key → name = entryName key) :
    ((s.files t).filterMap keyOfName?).Nodup := by
  refine List.pairwise_filterMap.mpr ((nodup_files hsound s).imp_of_mem ?_)
  rintro name other hname hother hne key hkey _ hkey' rfl
  exact hne ((h name hname key hkey).trans (h other hother key hkey').symm)

theorem eq_of_nodup_keys {other : String} (h : ((s.files t).filterMap keyOfName?).Nodup)
    (hname : name ∈ s.files t) (hother : other ∈ s.files t) (hkey : keyOfName? name = some key)
    (hkey' : keyOfName? other = some key) : name = other := by
  have hpairs := List.pairwise_filterMap.mp h
  have hsymm : Std.Symm fun a b : String =>
      ∀ x, keyOfName? a = some x → ∀ y, keyOfName? b = some y → x ≠ y :=
    ⟨fun a b hab x hx y hy => (hab y hy x hx).symm⟩
  by_contra hne
  exact hpairs.forall hname hother hne key hkey key hkey' rfl

/-- The keys are sorted, and the entries that are there are among them. They are nothing else, and
none is listed twice, just where each name that can be read as a key's is as it is written for one. -/
theorem keys_exact_iff (hdir : s.dir ≠ "") (hsound : t.Sound) :
    ∃ keys, runFrom (s.keys : ExceptT Error (StateM FileTree) (List String)) t = (.ok keys, t) ∧
      keys.Pairwise (· ≤ ·) ∧
      (∀ key, key ∈ keys ↔ t.isFile (s.entryPath key) = true ∨
        ∃ name ∈ s.files t, keyOfName? name = some key ∧ ¬ s.Written name) ∧
      ((keys.Nodup ∧ ∀ key ∈ keys, t.isFile (s.entryPath key) = true) ↔
        ∀ name ∈ s.files t, ∀ key, keyOfName? name = some key → s.Written name) ∧
      ∀ key, t.isFile (s.entryPath key) = true → ∃ content, t.readBytes (s.entryPath key) = .ok content ∧
        (∀ text, content = Text.bytes text → s.found t key = .ok (some text) ∧
          ∃ time, t.modified? (s.entryPath key) = some time ∧
            runFrom (s.isFresh key : ExceptT Error (StateM FileTree) Bool) t =
              (.ok (verdict t time text), t)) ∧
        ∃ u, runFrom (s.remove key : ExceptT Error (StateM FileTree) Unit) t = (.ok (), u) ∧
          u.isFile (s.entryPath key) = false := by
  have hmem : ∀ key, key ∈ MapStore.sortKeys ((s.files t).filterMap keyOfName?) ↔
      t.isFile (s.entryPath key) = true ∨
        ∃ name ∈ s.files t, keyOfName? name = some key ∧ ¬ s.Written name :=
    fun key => mem_keys_iff hdir hsound
  refine ⟨_, runFrom_keys s t, MapStore.pairwise_sortKeys _, hmem, ⟨?_, ?_⟩,
    fun key => operations_of_isFile⟩
  -- A name that is not the entry's would list the key of an entry that is there once more.
  · rintro ⟨hnodup, hfiles⟩ name hname key hkey
    rw [(MapStore.perm_sortKeys _).nodup_iff] at hnodup
    have hlisted : key ∈ MapStore.sortKeys ((s.files t).filterMap keyOfName?) :=
      (MapStore.perm_sortKeys _).mem_iff.mpr (List.mem_filterMap.mpr ⟨name, hname, hkey⟩)
    obtain ⟨hentry, hnameable⟩ := (isFile_entryPath_iff hdir hsound).mp (hfiles key hlisted)
    exact (written_iff hkey).mpr
      ⟨eq_of_nodup_keys hnodup hname hentry hkey (keyOfName?_entryName key), hnameable⟩
  · intro hwritten
    constructor
    · rw [(MapStore.perm_sortKeys _).nodup_iff]
      refine nodup_keys hsound fun name hname key hkey => ?_
      exact ((written_iff hkey).mp (hwritten name hname key hkey)).1
    · intro key hkey
      obtain hfile | ⟨name, hname, hread, hforeign⟩ := (hmem key).mp hkey
      · exact hfile
      · exact absurd (hwritten name hname key hread) hforeign

def shelf (names : List String) : FileTree where
  nodes := (["cache"], .dir 0) :: names.map fun name => (["cache", name], .file (Text.bytes "\x7b\x7d") 0)
  currentDir := []
  now := 1

theorem keys_exact_on_shelf :
    let s : DirectoryStore := ⟨"cache"⟩
    let t := shelf ["zz.map.json", "4a.map.json", "4A.map", "README"]
    s.dir ≠ "" ∧ t.Sound ∧
      ∃ keys, runFrom (s.keys : ExceptT Error (StateM FileTree) (List String)) t = (.ok keys, t) ∧
        keys.Nodup ∧ "J" ∈ keys ∧ ∀ key ∈ keys, t.isFile (s.entryPath key) = true := by
  intro s t
  have hsound : t.Sound := by decide +kernel
  obtain ⟨keys, hkeys, -, hmem, hexact, -⟩ := keys_exact_iff (s := s) (by decide) hsound
  have hfiles : s.files t = ["zz.map.json", "4a.map.json", "4A.map", "README"] := by decide +kernel
  have hentry : t.isFile (s.entryPath "J") = true := by decide +kernel
  have hwritten : ∀ name ∈ s.files t, ∀ key, keyOfName? name = some key → s.Written name := by
    have hforeign : ∀ name ∈ ["zz.map.json", "4A.map", "README"], keyOfName? name = none := by
      decide +kernel
    intro name hname key hkey
    by_cases hown : name = "4a.map.json"
    · rw [hown]
      exact ⟨Key.strict_of_all (by decide), by decide, by decide⟩
    · rw [hfiles] at hname
      rw [hforeign name (by simp_all)] at hkey
      cases hkey
  obtain ⟨hnodup, hlisted⟩ := hexact.mpr hwritten
  exact ⟨by decide, hsound, keys, hkeys, hnodup, (hmem "J").mpr (.inl hentry), hlisted⟩

/-- A file of another name is listed as an entry that is not there, also after the key is removed,
and twice beside the entry. -/
theorem keys_inexact :
    let s : DirectoryStore := ⟨"cache"⟩
    let foreign := shelf ["4A.map.json"]
    let both := shelf ["4A.map.json", "4a.map.json"]
    s.listed foreign = .ok ["J"] ∧ foreign.isFile (s.entryPath "J") = false ∧
      s.found foreign "J" = .ok none ∧
      s.listed (runFrom (s.remove "J" : ExceptT Error (StateM FileTree) Unit) foreign).2 = .ok ["J"] ∧
      s.listed both = .ok ["J", "J"] := by
  intro s foreign both
  have hboth : (s.files both).filterMap keyOfName? = List.replicate 2 "J" := by decide +kernel
  refine ⟨by decide +kernel, by decide +kernel, by decide +kernel, by decide +kernel, ?_⟩
  rw [listed, runFrom_keys, hboth, List.perm_replicate.mp (MapStore.perm_sortKeys _)]
  rfl

end DirectoryStore

end TemplateTrace
