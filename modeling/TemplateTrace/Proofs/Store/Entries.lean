import TemplateTrace.Proofs.Files.Directories
import TemplateTrace.Proofs.Json.Texts
import TemplateTrace.Store.Directory

namespace TemplateTrace

namespace DirectoryStore

open FileTree (maxName maxPath)

theorem encode_chars {key : String} {c : Char} (h : c ∈ (Key.encode key).toList) :
    c ≠ '/' ∧ c ≠ '.' ∧ c ≠ '\x00' ∧ c.toNat ≤ 0x7f := by
  rw [Key.encode, String.toList_ofList] at h
  obtain ⟨b, -, hb⟩ := List.mem_flatMap.mp h
  have hdigits : ∀ n : Fin 16, (fun c : Char => c ≠ '/' ∧ c ≠ '.' ∧ c ≠ '\x00' ∧ c.toNat ≤ 0x7f)
      (Nat.digitChar n.val) := by decide +kernel
  have hlt := b.toNat_lt
  simp only [Key.encodeByte, List.mem_cons, List.not_mem_nil, or_false] at hb
  rcases hb with rfl | rfl
  · exact hdigits ⟨b.toNat / 16, by omega⟩
  · exact hdigits ⟨b.toNat % 16, by omega⟩

theorem size_encode (key : String) : Text.size (Key.encode key) = 2 * Text.size key := by
  have hchars : ∀ c ∈ (Text.bytes key).flatMap Key.encodeByte, c.toNat ≤ 0x7f := by
    intro c hc
    have hmem : c ∈ (Key.encode key).toList := by rwa [Key.encode, String.toList_ofList]
    exact (encode_chars hmem).2.2.2
  rw [Text.size, Key.encode, Text.bytes_ofList_ascii hchars, List.length_map, Text.size]
  clear hchars
  induction Text.bytes key with
  | nil => rfl
  | cons b rest ih =>
    have hbyte : (Key.encodeByte b).length = 2 := rfl
    rw [List.flatMap_cons, List.length_append, ih, List.length_cons, hbyte]
    omega

def stagingName (key : String) : String := entryName key ++ stagingSuffix

theorem size_entryName (key : String) : Text.size (entryName key) = 2 * Text.size key + 9 := by
  rw [Text.size, entryName, Text.bytes_append, List.length_append, ← Text.size, size_encode]
  rfl

theorem size_stagingName (key : String) : Text.size (stagingName key) = 2 * Text.size key + 13 := by
  rw [Text.size, stagingName, Text.bytes_append, List.length_append, ← Text.size, size_entryName]
  rfl

theorem isName_of_size {name : String} (hsize : 2 < Text.size name) (hslash : '/' ∉ name.toList)
    (hnul : '\x00' ∉ name.toList) : Path.IsName name := by
  refine ⟨?_, hslash, hnul, ?_, ?_⟩
  · rintro rfl
    exact absurd hsize (by decide)
  · rintro rfl
    exact absurd hsize (by decide)
  · rintro rfl
    exact absurd hsize (by decide)

theorem isName_entryName (key : String) : Path.IsName (entryName key) := by
  apply isName_of_size
  · rw [size_entryName]
    omega
  · rw [entryName, String.toList_append, List.mem_append, not_or]
    exact ⟨fun h => (encode_chars h).1 rfl, by decide⟩
  · rw [entryName, String.toList_append, List.mem_append, not_or]
    exact ⟨fun h => (encode_chars h).2.2.1 rfl, by decide⟩

theorem isName_stagingName (key : String) : Path.IsName (stagingName key) := by
  apply isName_of_size
  · rw [size_stagingName]
    omega
  · rw [stagingName, String.toList_append, List.mem_append, not_or]
    exact ⟨(isName_entryName key).no_slash, by decide⟩
  · rw [stagingName, String.toList_append, List.mem_append, not_or]
    exact ⟨(isName_entryName key).no_nul, by decide⟩

theorem stagingPath_eq (s : DirectoryStore) (key : String) :
    s.stagingPath key = Path.join s.dir (stagingName key) :=
  Path.join_append (isName_entryName key) s.dir stagingSuffix

theorem keyOfName?_entryName (key : String) : keyOfName? (entryName key) = some key := by
  have hlength : entrySuffix.toList.length = entrySuffix.length := by decide
  have hdrop : (entryName key).toList.length - entrySuffix.length = (Key.encode key).toList.length := by
    rw [entryName, String.toList_append, List.length_append, hlength, Nat.add_sub_cancel]
  rw [keyOfName?, stripSuffix?]
  simp only [hdrop]
  rw [entryName, String.toList_append, List.drop_left, if_pos rfl, List.take_left,
    String.ofList_toList, Option.bind_some, Key.decode?_encode]

theorem entryName_injective {key other : String} (h : entryName key = entryName other) : key = other := by
  have hkey := keyOfName?_entryName key
  rw [h, keyOfName?_entryName] at hkey
  exact (Option.some.inj hkey).symm

theorem getLast?_stagingName (key : String) : (stagingName key).toList.getLast? = some 'p' := by
  rw [stagingName, String.toList_append, List.getLast?_append]
  rfl

theorem stagingName_ne_entryName (key other : String) : stagingName key ≠ entryName other := by
  intro h
  have hlast := congrArg (fun name => name.toList.getLast?) h
  have hentry : (entryName other).toList.getLast? = some 'n' := by
    rw [entryName, String.toList_append, List.getLast?_append]
    rfl
  rw [getLast?_stagingName, hentry] at hlast
  exact absurd hlast (by decide)

theorem keyOfName?_stagingName (key : String) : keyOfName? (stagingName key) = none := by
  rw [keyOfName?, stripSuffix?]
  rw [if_neg, Option.bind_none]
  intro h
  have hlast := congrArg List.getLast? h
  have hentry : entrySuffix.toList.getLast? = some 'n' := rfl
  rw [hentry, List.getLast?_drop, getLast?_stagingName] at hlast
  split at hlast
  · cases hlast
  · exact absurd hlast (by decide)

variable {s : DirectoryStore} {key text : String} {t u : FileTree}

def failure (s : DirectoryStore) (key : String) (e : FileError) : Error :=
  .store key s!"{e.message} ({s.dir})"

theorem runFrom_onFiles {α : Type} (act : ExceptT FileError (StateM FileTree) α) (t : FileTree) :
    runFrom (s.onFiles key act) t =
      ((runFrom act t).1.mapError (s.failure key), (runFrom act t).2) :=
  runFrom_adapt _ _ _

/-- What a successful write through a staging file does: the text is at the place of the entry, and
nothing is at that of the staging file. Nothing else has changed but for directories that were
missing. -/
structure Stored (s : DirectoryStore) (key text : String) (made u : FileTree) (p q : List String) :
    Prop where
  staging : made.place (s.stagingPath key) = .ok p
  staging_not_dir : made.look? p ≠ some none
  entry : u.place (s.entryPath key) = .ok q
  entry_not_dir : made.look? q ≠ some none
  currentDir : u.currentDir = made.currentDir
  look : ∀ r, u.look? r = if r = q then some (some (Text.bytes text)) else if r = p then none
    else made.look? r

theorem Stored.dirsKept {made : FileTree} {p q : List String} (h : Stored s key text made u p q) :
    FileTree.DirsKept made u := by
  refine ⟨h.currentDir, fun r hr => ?_⟩
  have hrq : r ≠ q := fun heq => h.entry_not_dir (heq ▸ hr)
  have hrp : r ≠ p := fun heq => h.staging_not_dir (heq ▸ hr)
  rw [h.look, if_neg hrq, if_neg hrp, hr]

theorem of_put (h : runFrom (s.put key text : ExceptT Error (StateM FileTree) Unit) t = (.ok (), u)) :
    ∃ made p q, runFrom (Files.ensureDirs s.dir) t = (.ok (), made) ∧ Stored s key text made u p q := by
  obtain ⟨_, made, hmade, hrun⟩ := runFrom_bind_eq_ok (runFrom_adapt_eq_ok_iff.mp h)
  obtain ⟨_, written, hwrite, hrun⟩ := runFrom_bind_eq_ok hrun
  have hwritten := FileTree.of_change_ok hwrite
  have hrenamed := FileTree.of_change_ok hrun
  obtain ⟨p, hp, -, hpdir, hwcurrent, hwlook⟩ := FileTree.look?_of_writeBytes hwritten
  obtain ⟨p', q, b, hp', hq, hpfile, hqdir, hucurrent, hulook⟩ := FileTree.look?_of_rename hrenamed
  cases ((FileTree.dirsKept_of_writeBytes hwritten).place hp).symm.trans hp'
  rw [hwlook, if_pos rfl] at hpfile
  cases hpfile
  have hkept := FileTree.dirsKept_of_rename hrenamed
  refine ⟨made, p, q, hmade, hp, hpdir, hkept.place hq, ?_, hucurrent.trans hwcurrent, fun r => ?_⟩
  · by_cases hqp : q = p
    · rw [hqp]
      exact hpdir
    · rwa [hwlook, if_neg hqp] at hqdir
  · rw [hulook, hwlook]
    split
    · rfl
    · split <;> rfl

theorem kindsKept_of_put (h : runFrom (s.put key text : ExceptT Error (StateM FileTree) Unit) t = (.ok (), u)) :
    FileTree.KindsKept t u := by
  obtain ⟨made, p, q, hmade, hstored⟩ := of_put h
  have hextends := FileTree.extends_ensureDirs s.dir t
  rw [hmade] at hextends
  refine hextends.kindsKept ⟨hstored.dirsKept, fun r b hr => ?_⟩
  rw [hstored.look, hr]
  split
  · nofun
  · split <;> nofun

theorem preserves_put (s : DirectoryStore) (key text : String) :
    Preserves FileTree.Sound (s.put key text : ExceptT Error (StateM FileTree) Unit) := by
  have hwrite : Preserves FileTree.Sound (Files.writeText (s.stagingPath key) text :
      ExceptT FileError (StateM FileTree) Unit) :=
    FileTree.preserves_change fun _ _ h hwrite => h.writeBytes hwrite
  have hrename : Preserves FileTree.Sound (Files.rename (s.stagingPath key) (s.entryPath key) :
      ExceptT FileError (StateM FileTree) Unit) :=
    FileTree.preserves_change fun _ _ h hrename => h.rename hrename
  exact ((FileTree.Sound.preserves_ensureDirs s.dir).bind fun _ => hwrite.bind fun _ => hrename).adapt _

theorem preserves_remove (s : DirectoryStore) (key : String) :
    Preserves FileTree.Sound (s.remove key : ExceptT Error (StateM FileTree) Unit) := by
  have hremove : Preserves FileTree.Sound (Files.removeFile (s.entryPath key) :
      ExceptT FileError (StateM FileTree) Unit) :=
    FileTree.preserves_change fun _ _ h hremove => h.removeFile hremove
  refine (hremove.tryCatch fun e => ?_).adapt _
  split
  · exact .pure ()
  · exact .throw e

end DirectoryStore

end TemplateTrace
