import TemplateTrace.Proofs.Command.Building
import TemplateTrace.Proofs.LocationText

namespace TemplateTrace

namespace Command

variable {t : FileTree} {s : Settings} {target : CommandLine.MapTarget} {map : SourceMap}

def serviceAt (t : FileTree) (s : Settings) : TraceService (StateM FileTree) :=
  ((service s : StateM FileTree (TraceService (StateM FileTree))) t).1

theorem openMap_cached (h : target.isCached = true) :
    runFrom (openMap target s : CommandT (StateM FileTree) SourceMap) t =
      runFrom (traced ((serviceAt t s).load target.map)) t := by
  have hservice : runFrom (liftM (service s : StateM FileTree (TraceService (StateM FileTree))) :
      CommandT (StateM FileTree) (TraceService (StateM FileTree))) t = (.ok (serviceAt t s), t) := rfl
  rw [openMap, if_pos h, runFrom_bind_ok hservice]

theorem openMap_file (h : target.isCached = false) {text : String}
    (hread : t.readBytes target.map = .ok (Text.bytes text)) :
    runFrom (openMap target s : CommandT (StateM FileTree) SourceMap) t =
      ((SourceMap.deserialize (Text.bytes text)).mapError fun e => .error (.core (.map e)), t) := by
  have hinput : runFrom (readInput target.map : CommandT (StateM FileTree) String) t = (.ok text, t) :=
    runFrom_adapt_eq_ok_iff.mpr (FileTree.readText_eq_ok_iff.mpr ⟨hread, rfl⟩)
  rw [openMap, h, if_neg Bool.false_ne_true, runFrom_bind_ok hinput]
  rcases SourceMap.deserialize (Text.bytes text) with e | map <;> rfl

theorem openMap_readable {text : String}
    (hread : t.readBytes (mapPath s target) = .ok (Text.bytes text))
    (hmap : SourceMap.deserialize (Text.bytes text) = .ok map) :
    runFrom (openMap target s : CommandT (StateM FileTree) SourceMap) t = (.ok map, t) := by
  rcases hcached : target.isCached with _ | _
  · rw [mapPath, hcached, if_neg Bool.false_ne_true] at hread
    rw [openMap_file hcached hread, hmap]
    rfl
  · rw [mapPath, if_pos hcached] at hread
    have hget : runFrom ((serviceAt t s).store.get target.map) t = (.ok (some text), t) :=
      DirectoryStore.get_of_text hread
    rw [openMap_cached hcached]
    exact runFrom_adapt_eq_ok_iff.mpr (TraceService.load_readable hget hmap)

theorem openMap_unreadable {text : String} {e : MapError}
    (hread : t.readBytes (mapPath s target) = .ok (Text.bytes text))
    (hmap : SourceMap.deserialize (Text.bytes text) = .error e) :
    ∃ u, runFrom (openMap target s : CommandT (StateM FileTree) SourceMap) t =
        (.error (.error (.core (.map e))), u) ∧
      (u.readBytes (mapPath s target) =
        if target.isCached then .error .notFound else .ok (Text.bytes text)) ∧ FileTree.DirsKept t u := by
  rcases hcached : target.isCached with _ | _
  · refine ⟨t, ?_, hread, (FileTree.Extends.refl t).dirsKept⟩
    rw [mapPath, hcached, if_neg Bool.false_ne_true] at hread
    rw [openMap_file hcached hread, hmap]
    rfl
  · rw [mapPath, if_pos hcached] at hread ⊢
    have hget : runFrom ((serviceAt t s).store.get target.map) t = (.ok (some text), t) :=
      DirectoryStore.get_of_text hread
    obtain ⟨u, hremove, hgone, hkept⟩ := DirectoryStore.remove_of_read hread
    have hload := TraceService.load_unreadable (s := serviceAt t s) hget hmap hremove
    refine ⟨u, ?_, hgone, hkept⟩
    rw [openMap_cached hcached, traced, runFrom_adapt, hload]
    rfl

end Command

namespace Program

open Command (target? mapPath Built)
open SourceMap (maxLinks)

variable {env : Environment} {words : List String} {host : Host} {t u v : FileTree}
  {i j : CommandLine.Invocation} {s : Settings} {r : CommandLine.BuildRequest}
  {target : CommandLine.MapTarget} {line : Nat}
  {content text : String} {table : Table Location} {map : SourceMap}

/-- The log file is none of those that a map goes through on its way to the target: the file that it is asked
for in, and the one where an entry is staged. -/
structure LogApart (s : Settings) (target : CommandLine.MapTarget) (t : FileTree) : Prop where
  map : Unlogged s (mapPath s target) t
  staging : target.isCached = true → Unlogged s ((Command.cache s).stagingPath target.map) t

theorem logApart_of_none (h : s.logFile = none) (target : CommandLine.MapTarget) (t : FileTree) :
    LogApart s target t :=
  ⟨unlogged_of_none h _ t, fun _ => unlogged_of_none h _ t⟩

theorem build_of_put (h : Understands env words t i s) (hi : i.request = .build r)
    (hlog : runFrom (makeLog s) t = (.ok (), v)) (hbuilt : Built v r s content table map) {key : String}
    (hkey : r.key = some key)
    (hput : runFrom ((Command.cache s).put key map.serialize : ExceptT Error (StateM FileTree) Unit) v =
      (.ok (), u)) (host : Host) :
    ∃ out, runIn host env words t = (.finished 0 out "", logged host s u) :=
  ⟨_, finished_of_perform h hi hlog fun _ => Command.build_key hbuilt hkey hput⟩

theorem stack_of_readable (h : Understands env words t j s) (hj : j.request = .stack target line)
    (hlog : runFrom (makeLog s) t = (.ok (), v))
    (hread : v.readBytes (mapPath s target) = .ok (Text.bytes text))
    (hmap : SourceMap.deserialize (Text.bytes text) = .ok map) (host : Host) :
    runIn host env words t =
      (.finished 0 ((console host.toTerminal j s).stack (map.stack line)) "", logged host s v) :=
  finished_of_perform h hj hlog fun _ => runFrom_bind_ok (Command.openMap_readable hread hmap)

theorem stack_of_unreadable (h : Understands env words t j s) (hj : j.request = .stack target line)
    (hlog : runFrom (makeLog s) t = (.ok (), v))
    (hread : v.readBytes (mapPath s target) = .ok (Text.bytes text)) {reason : String}
    (hmap : SourceMap.deserialize (Text.bytes text) = .error (.malformed reason)) (host : Host) :
    ∃ report w, runIn host env words t = (.finished 2 "" report, logged host s w) ∧
      (w.readBytes (mapPath s target) =
        if target.isCached then .error .notFound else .ok (Text.bytes text)) ∧ FileTree.DirsKept v w := by
  obtain ⟨filled, hrun⟩ := runIn_of_log h hlog host
  obtain ⟨w, hopen, hleft, hkept⟩ := Command.openMap_unreadable hread hmap
  have hstack : runFrom (perform host filled s (console host.toTerminal j s) (.stack target line)) v =
      (.error (.error (.core (.map (.malformed reason)))), w) := runFrom_bind_error hopen
  rw [hj, hstack] at hrun
  exact ⟨_, w, hrun, hleft, hkept⟩

/-- A run that asks for a map after it has been built prints the frames of that map, if no winning
location has more sites than a stored map may have links; otherwise it fails, and a map in the cache
is lost. -/
theorem stack_after_build (hbuild : Understands env words t i s) (hr : i.request = .build r)
    (htarget : target? r = some target) (hfits : t.Fits) {out err : String}
    (hrun : runIn host env words t = (.finished 0 out err, u)) (hother : LogApart s target u) :
    ∃ start content table map, runFrom (makeLog s) t = (.ok (), start) ∧
      Built start r s content table map ∧
      ∀ (host' : Host) (env' : Environment) (words' : List String) (j : CommandLine.Invocation)
        (line : Nat), Understands env' words' u j s → j.request = .stack target line →
        ((∀ e ∈ SourceMap.winning (Text.bytes content) table.entries, e.2.depth ≤ maxLinks) →
          ∃ v, runIn host' env' words' u =
              (.finished 0 ((console host'.toTerminal j s).stack (map.stack line)) "", v) ∧
            v.readBytes (mapPath s target) = .ok (Text.bytes map.serialize)) ∧
        ((∃ e ∈ SourceMap.winning (Text.bytes content) table.entries, maxLinks < e.2.depth) →
          ∃ report v, runIn host' env' words' u = (.finished 2 "" report, v) ∧
            v.readBytes (mapPath s target) =
              if target.isCached then .error .notFound else .ok (Text.bytes map.serialize)) := by
  obtain ⟨filled, start, w, hlog, hperform, rfl⟩ := of_runIn_finished hbuild hrun
  rw [hr] at hperform
  obtain ⟨content, table, map, hbuilt, hread, hkept⟩ := Command.of_build htarget hperform
  have hmap := hbuilt.fits (hfits.makeLog hlog)
  have hother' := (unlogged_iff_of_kept hlog hkept (dirsKept_logged host s w) hread).mp hother.map
  obtain ⟨v, hlog', hread', hleft⟩ := next_makeLog hlog hkept hread hother' host
  refine ⟨start, content, table, map, hlog, hbuilt, ?_⟩
  intro host' env' words' j line hstack hj
  refine ⟨fun hdepth => ?_, fun hdepth => ?_⟩
  · have hreadable := SourceMap.read_built hbuilt.calculated hmap hdepth
    refine ⟨_, stack_of_readable hstack hj hlog' hread' hreadable host', ?_⟩
    rw [hleft v (FileTree.Extends.refl v).dirsKept, hread']
  · obtain ⟨e, -, hdecode⟩ := SourceMap.read_built_tooDeep hbuilt.calculated hmap hdepth
    obtain ⟨report, w', hfails, hgone, hdirs⟩ := stack_of_unreadable hstack hj hlog' hread' hdecode host'
    refine ⟨report, _, hfails, ?_⟩
    rw [hleft w' hdirs, hgone]

def deep (enclosing : Nat) : Table Location :=
  ⟨[(0, ⟨⟨"page", 0⟩, List.replicate enclosing ⟨"page", 0⟩⟩)], List.pairwise_singleton _ _⟩

def project (enclosing : Nat) : FileTree where
  nodes :=
    [(["work"], .dir 0), (["work", ".env"], .file [] 0), (["work", "tplmap.toml"], .file [] 0),
      (["work", ".tplmap-cache"], .dir 0), (["work", "templates"], .dir 0),
      (["work", "templates", "page"], .file (Text.bytes "one\n") 0),
      (["work", "page.out"], .file (Text.bytes "one\n") 0),
      (["work", "page.locations"], .file (Text.bytes (Location.encodeTable (deep enclosing)).compact) 0)]
  currentDir := ["work"]
  now := 1

def pageBuild : CommandLine.BuildRequest :=
  ⟨"page.out", "page.locations", some "templates", none, none, some "page"⟩

def pageTarget : CommandLine.MapTarget := ⟨"page", true⟩

def asked (r : CommandLine.Request) : CommandLine.Invocation :=
  ⟨0, false, false, some "tplmap.toml", .auto, r⟩

def printWords : List String :=
  ["--config", "tplmap.toml", "build", "--content", "page.out", "--locations", "page.locations",
    "--root", "templates"]

def writeWords : List String := printWords ++ ["--out", "page.map"]

def buildWords : List String := printWords ++ ["--key", "page"]

def stackWords : List String := ["--config", "tplmap.toml", "stack", "--cached", "page", "1"]

theorem understands_asked {r : CommandLine.Request} (hhere : t.currentPath? = some "/work")
    (hfile : t.readBytes "/work/.env" = .ok []) (hconfig : t.readBytes "/work/tplmap.toml" = .ok [])
    (hparse : CommandLine.parse none words = .ok (asked r)) : Understands [] words t (asked r) {} := by
  have hfilled : Environment.assignLines [] [] (Assignment.linesOf []) = some [] := rfl
  exact understands_of_files hhere hfile hfilled hparse rfl rfl hconfig rfl

theorem understands_build (enclosing : Nat) :
    Understands [] buildWords (project enclosing) (asked (.build pageBuild)) {} :=
  understands_asked rfl rfl rfl (by decide +kernel)

theorem understands_write (enclosing : Nat) :
    Understands [] writeWords (project enclosing)
      (asked (.build { pageBuild with out := some "page.map", key := none })) {} :=
  understands_asked rfl rfl rfl (by decide +kernel)

theorem put_project (enclosing : Nat) (text : String) :
    ∃ u, runFrom ((Command.cache {}).put "page" text : ExceptT Error (StateM FileTree) Unit)
        (project enclosing) = (.ok (), u) ∧
      Understands [] stackWords u (asked (.stack pageTarget 1)) {} := by
  have hat : (Command.cache {}).At (project enclosing) ["work", ".tplmap-cache"] := ⟨rfl, rfl⟩
  have haccepts : (Command.cache {}).Accepts "page" := by decide +kernel
  obtain ⟨u, hput, hextends⟩ := hat.put_new haccepts text rfl rfl
  refine ⟨u, hput, ?_⟩
  exact understands_asked (hextends.dirsKept.currentPath? rfl) (hextends.readBytes rfl) (hextends.readBytes rfl)
    (by decide +kernel)

theorem decodeTable_deep {enclosing : Nat} (hsites : enclosing < Location.maxSites) :
    Location.decodeTable (Text.bytes (Location.encodeTable (deep enclosing)).compact) =
      .ok (deep enclosing) := by
  apply Location.decodeTable_encodeTable
  · intro e he
    cases List.mem_singleton.mp he
    refine ⟨Nat.zero_le _, fun site hsite => ?_⟩
    rcases List.mem_cons.mp hsite with rfl | hsite
    · exact Nat.zero_le _
    · cases List.eq_of_mem_replicate hsite
      exact Nat.zero_le _
  · intro e he
    cases List.mem_singleton.mp he
    have hdepth : Chain.depth (⟨⟨"page", 0⟩, List.replicate enclosing ⟨"page", 0⟩⟩ : Location) =
        enclosing + 1 := by simp [Chain.depth, Chain.links]
    rw [hdepth]
    exact hsites

theorem built_project {enclosing : Nat} (hsites : enclosing < Location.maxSites) {good : SourceMap → Bool}
    (hmap : ((runFrom (SourceMap.calculate (m := StateM FileTree)
      (Command.loaderAt (project enclosing) (Command.buildSettings pageBuild {})).load "one\n"
      (deep enclosing)) (project enclosing)).1.toOption.any good) = true) :
    ∃ map, Built (project enclosing) pageBuild {} "one\n" (deep enclosing) map ∧ good map = true := by
  rcases hrun : runFrom (SourceMap.calculate (m := StateM FileTree)
    (Command.loaderAt (project enclosing) (Command.buildSettings pageBuild {})).load "one\n"
    (deep enclosing)) (project enclosing) with ⟨e | map, u⟩
  · rw [hrun] at hmap
    cases hmap
  · rw [hrun] at hmap
    cases DirectoryLoader.calculate_reads hrun
    exact ⟨map, ⟨rfl, ⟨_, rfl, decodeTable_deep hsites⟩, hrun⟩, hmap⟩

theorem run_pageBuild {enclosing : Nat} {map : SourceMap}
    (h : Built (project enclosing) pageBuild {} "one\n" (deep enclosing) map) :
    ∃ out u, Understands [] buildWords (project enclosing) (asked (.build pageBuild)) {} ∧
      runIn {} [] buildWords (project enclosing) = (.finished 0 out "", u) ∧
      Understands [] stackWords u (asked (.stack pageTarget 1)) {} ∧
      u.readBytes (mapPath {} pageTarget) = .ok (Text.bytes map.serialize) := by
  obtain ⟨u, hput, hstack⟩ := put_project enclosing map.serialize
  obtain ⟨out, hrun⟩ := build_of_put (understands_build enclosing) rfl rfl h rfl hput {}
  have hpath : mapPath {} pageTarget = (Command.cache {}).entryPath "page" := if_pos rfl
  refine ⟨out, u, understands_build enclosing, hrun, hstack, ?_⟩
  rw [hpath]
  exact DirectoryStore.read_of_put hput

/-- A chain of one link more than a stored map may have is built, but is lost when it is asked for. -/
theorem stack_fails_after_build :
    ∃ out u report v, Understands [] buildWords (project 125) (asked (.build pageBuild)) {} ∧
      runIn {} [] buildWords (project 125) = (.finished 0 out "", u) ∧
      Understands [] stackWords u (asked (.stack pageTarget 1)) {} ∧
      runIn {} [] stackWords u = (.finished 2 "" report, v) ∧
      u.readBytes (mapPath {} pageTarget) ≠ .error .notFound ∧
      v.readBytes (mapPath {} pageTarget) = .error .notFound := by
  obtain ⟨map, hbuilt, hmap⟩ := @built_project 125 (by decide) (fun map => decide map.Fits)
    (by decide +kernel)
  obtain ⟨out, u, hbuild, hrun, hstack, hread⟩ := run_pageBuild hbuilt
  have hdeep : ∃ e ∈ SourceMap.winning (Text.bytes "one\n") (deep 125).entries, maxLinks < e.2.depth := by
    decide +kernel
  obtain ⟨e, -, hdecode⟩ := SourceMap.read_built_tooDeep hbuilt.calculated (of_decide_eq_true hmap) hdeep
  obtain ⟨report, v, hfail, hgone, -⟩ := stack_of_unreadable hstack rfl rfl hread hdecode {}
  refine ⟨out, u, report, v, hbuild, hrun, hstack, hfail, ?_, hgone⟩
  rw [hread]
  nofun

theorem stack_after_pageBuild :
    ∃ out u v, runIn {} [] buildWords (project 1) = (.finished 0 out "", u) ∧
      runIn {} [] stackWords u =
        (.finished 0 "/work/templates/page:1\n/work/templates/page:1\n" "", v) ∧
      v.readBytes (mapPath {} pageTarget) = u.readBytes (mapPath {} pageTarget) := by
  have hfits : (project 1).Fits := FileTree.fits_of_nodes (by decide +kernel)
  obtain ⟨found, hbuilt, hframes⟩ := @built_project 1 (by decide)
    (fun map => decide ((console {} (asked (.stack pageTarget 1)) {}).stack (map.stack 1) =
      "/work/templates/page:1\n/work/templates/page:1\n")) (by decide +kernel)
  obtain ⟨out, u, hbuild, hrun, hstack, hread⟩ := run_pageBuild hbuilt
  obtain ⟨start, content, table, map, hlog, hagain, hquery⟩ :=
    stack_after_build hbuild rfl rfl hfits hrun (logApart_of_none rfl _ u)
  cases hlog
  obtain ⟨rfl, rfl, rfl⟩ := hbuilt.unique hagain
  have hdepth : ∀ e ∈ SourceMap.winning (Text.bytes "one\n") (deep 1).entries, e.2.depth ≤ maxLinks := by
    decide +kernel
  obtain ⟨v, hfound, hkept⟩ := (hquery {} [] stackWords _ 1 hstack rfl).1 hdepth
  rw [of_decide_eq_true hframes] at hfound
  exact ⟨out, u, v, hrun, hfound, hkept.trans hread.symm⟩

end Program

end TemplateTrace
