import VSwarm.Lib.FileTree
import VSwarm.Defs.Analysis.CheckSimulations
import VSwarm.Defs.Analysis.FindStats

namespace VSwarm.Analysis

open VSwarm.Lib

inductive Content
  | text (cs : List Char)
  | pickle (stats : Option (List Stats))

structure ResultFile where
  mtime : Nat
  content : Content

abbrev Results := FileTree ResultFile

def ResultFile.entry (file : ResultFile) : Entry where
  mtime := file.mtime
  body :=
    match file.content with
    | .text cs => .text cs
    | .pickle stats => .pickle stats

def folder (root : Results) (dir : List FileName) : Folder := fun name =>
  (root.find (dir ++ [name])).map fun
    | .file file => file.entry
    | .dir .. => ⟨0, .dir⟩

def collect {α β : Type} (body : α → Option (Option β)) : List α → Option (List (α × β))
  | [] => some []
  | a :: as =>
    match body a with
    | none => none
    | some none => collect body as
    | some (some b) => (collect body as).map ((a, b) :: ·)

section Scripts

variable (root : Results) (cwd : List FileName)

/-- `[s for s in listdir(dir) if isdir(dir + s)]`, sorted; there is no result if the
directory cannot be listed. -/
def subdirs (dir : List Char) : Option (List FileName) :=
  ((root.lookup cwd dir).bind FileTree.listing?).map fun names =>
    Listing.sort (names.filter fun s => root.isDir cwd (dir ++ s))

def gem5Log : FileName := "gem5.log".toList

def logName (dir : List Char) (subdir : FileName) : List Char :=
  dir ++ '/' :: (subdir ++ '/' :: gem5Log)

/-- What is found in the log; opening a directory and decoding a cache file raise. -/
def readLog : FileTree ResultFile → Option Checked
  | .file ⟨_, .text log⟩ => some (checkLog log)
  | _ => none

def checkSubdir (dir : List Char) (subdir : FileName) : Option (Option Checked) :=
  match root.lookup cwd (logName dir subdir) with
  | none => some none
  | some log => (readLog log).map some

structure Report where
  subdir : FileName
  checked : Checked
  printed : List Char
  rerun : List Char

def report (dir : List Char) (e : FileName × Checked) : Report where
  subdir := e.1
  checked := e.2
  printed := e.2.report (String.ofList e.1)
  rerun := e.2.rerun (String.ofList (logName dir e.1))

def checkSimulations (dir : List Char) : Option (List Report) :=
  (subdirs root cwd dir).bind fun ss =>
    (collect (checkSubdir root cwd dir) ss).map (List.map (report dir))

/-- `path.join`, for a relative second part. -/
def pathJoin (a b : List Char) : List Char :=
  if a.getLast? = some '/' then a ++ b else a ++ '/' :: b

def statsTxt : FileName := "stats.txt".toList

def nonEmpty : Option (List Stats) → Option (List Stats)
  | some (s :: ss) => some (s :: ss)
  | _ => none

/-- `find_stats` on a directory; without the directory the cache file cannot be
written. -/
def statsOf (dir : List FileName) : Option (Option (List Stats)) :=
  if root.isDirAt dir then ((findStats ⟨folder root dir, 0⟩ statsTxt).1).map nonEmpty else none

/-- The body of the loop of `find_stats_group`.  A call changes only the cache file
of its own directory, so that the calls do not see each other. -/
def findStatsSubdir (dir : List Char) (subdir : FileName) : Option (Option (List Stats)) :=
  (root.resolve cwd (pathJoin dir subdir)).bind (statsOf root)

def findStatsGroup (dir : List Char) : Option (List (FileName × List Stats)) :=
  (subdirs root cwd dir).bind (collect (findStatsSubdir root cwd dir))

end Scripts

structure ResultsDir where
  root : Results
  cwd : List FileName
  path : List Char
  nonempty : path ≠ []
  bare : path.getLast? ≠ some '/'
  place : List FileName
  resolved : root.resolve cwd path = some place
  names : List FileName
  listed : (root.find place).bind FileTree.listing? = some names

section Coverage

variable (d : ResultsDir)

def ResultsDir.spellings : List (List Char) := [d.path, d.path ++ ['/']]

def ResultsDir.isSubdir (s : FileName) : Bool := d.root.isDirAt (d.place ++ [s])

def ResultsDir.subdirs : List FileName := Listing.sort (d.names.filter d.isSubdir)

def ResultsDir.log? (s : FileName) : Option Checked :=
  (d.root.find (d.place ++ [s, gem5Log])).bind readLog

def ResultsDir.stats? (s : FileName) : Option (List Stats) :=
  (statsOf d.root (d.place ++ [s])).join

structure ResultsDir.Covered : Prop where
  checked : ∀ path ∈ d.spellings, checkSimulations d.root d.cwd path =
    some ((d.subdirs.filterMap fun s => (d.log? s).map (s, ·)).map (report path))
  grouped : ∀ path ∈ d.spellings, findStatsGroup d.root d.cwd path =
    some (d.subdirs.filterMap fun s => (d.stats? s).map (s, ·))

/-- What the plain concatenation of the path and a name finds is right, and no
subdirectory makes the scripts raise. -/
structure ResultsDir.Scannable : Prop where
  logs : ∀ s ∈ d.names, d.isSubdir s → ∀ log, d.root.find (d.place ++ [s, gem5Log]) = some log →
    (readLog log).isSome
  stats : ∀ s ∈ d.names, d.isSubdir s → (statsOf d.root (d.place ++ [s])).isSome
  found : ∀ s ∈ d.names, d.isSubdir s → ((d.log? s).isSome ∨ (d.stats? s).isSome) →
    d.root.isDir d.cwd (d.path ++ s)
  others : ∀ s ∈ d.names, d.root.isDir d.cwd (d.path ++ s) → d.isSubdir s

end Coverage

section Collect

variable {β : Type} {body : FileName → Option (Option β)} {names : List FileName}

theorem collect_eq_none {α : Type} {body : α → Option (Option β)} {l : List α}
    (h : ∃ a ∈ l, body a = none) : collect body l = none := by
  induction l with
  | nil => obtain ⟨a, ha, -⟩ := h; cases ha
  | cons a l ih =>
    rw [collect]
    obtain ⟨c, hc, hnone⟩ := h
    rcases List.mem_cons.mp hc with rfl | hc
    · rw [hnone]
    · cases hb : body a with
      | none => rfl
      | some b => cases b <;> simp [ih ⟨c, hc, hnone⟩]

theorem collect_eq_some {α : Type} {body : α → Option (Option β)} {l : List α}
    (h : ∀ a ∈ l, (body a).isSome) :
    collect body l = some (l.filterMap fun a => (body a).join.map (a, ·)) := by
  induction l with
  | nil => rfl
  | cons a l ih =>
    obtain ⟨hhead, htail⟩ := List.forall_mem_cons.mp h
    obtain ⟨b, hb⟩ := Option.isSome_iff_exists.mp hhead
    rw [collect, hb, ih htail]
    cases b <;> simp [hb]

theorem mem_entries {p : FileName → Bool} {f : FileName → Option β} {s : FileName} {b : β} :
    (s, b) ∈ ((names.filter p).filterMap fun s => (f s).map (s, ·)) ↔
      s ∈ names ∧ p s = true ∧ f s = some b := by
  simp only [List.mem_filterMap, List.mem_filter, Option.map_eq_some_iff, Prod.mk.injEq]
  constructor
  · rintro ⟨s', ⟨hmem, hp⟩, b', hb, rfl, rfl⟩
    exact ⟨hmem, hp, hb⟩
  · rintro ⟨hmem, hp, hb⟩
    exact ⟨s, ⟨hmem, hp⟩, b, hb, rfl, rfl⟩

theorem filterMap_filter_eq_iff (p q : FileName → Bool) (f : FileName → Option β) :
    ((names.filter p).filterMap fun s => (f s).map (s, ·)) =
        ((names.filter q).filterMap fun s => (f s).map (s, ·)) ↔
      ∀ s ∈ names, (f s).isSome → p s = q s := by
  constructor
  · intro h s hs hsome
    obtain ⟨b, hb⟩ := Option.isSome_iff_exists.mp hsome
    have hboth : (s ∈ names ∧ p s = true ∧ f s = some b) ↔
        s ∈ names ∧ q s = true ∧ f s = some b := by
      rw [← mem_entries, ← mem_entries, h]
    rw [Bool.eq_iff_iff]
    simpa [hs, hb] using hboth
  · intro h
    rw [List.filterMap_filter, List.filterMap_filter]
    refine List.filterMap_congr fun s hs => ?_
    cases hf : f s with
    | none => simp
    | some b => rw [h s hs (by simp [hf])]

theorem collect_sort_iff (p q : FileName → Bool) :
    collect body (Listing.sort (names.filter p)) =
        some ((Listing.sort (names.filter q)).filterMap fun s => (body s).join.map (s, ·)) ↔
      (∀ s ∈ names, p s → (body s).isSome) ∧ ∀ s ∈ names, (body s).join.isSome → p s = q s := by
  have hmem : ∀ s, s ∈ Listing.sort names ↔ s ∈ names := fun s => (Listing.sort_perm names).mem_iff
  rw [Listing.sort_filter, Listing.sort_filter]
  by_cases hraise : ∀ s ∈ names, p s → (body s).isSome
  · have hall : ∀ s ∈ (Listing.sort names).filter p, (body s).isSome := by
      intro s hs
      obtain ⟨hs, hp⟩ := List.mem_filter.mp hs
      exact hraise s ((hmem s).mp hs) hp
    rw [collect_eq_some hall, Option.some.injEq, filterMap_filter_eq_iff]
    simp only [hmem]
    exact (and_iff_right hraise).symm
  · refine iff_of_false (fun h => ?_) (fun h => hraise h.1)
    have hnone : ∃ s ∈ (Listing.sort names).filter p, body s = none := by
      simpa [hmem, and_assoc] using hraise
    rw [collect_eq_none hnone] at h
    cases h

end Collect

section Paths

variable (d : ResultsDir) {s : FileName} {path : List Char}

theorem ResultsDir.isDirAt_place : d.root.isDirAt d.place = true := by
  rw [FileTree.isDirAt, d.listed]
  rfl

theorem ResultsDir.resolve_spelling (h : path ∈ d.spellings) :
    path ≠ [] ∧ d.root.resolve d.cwd path = some d.place := by
  rcases List.mem_pair.mp h with rfl | rfl
  · exact ⟨d.nonempty, d.resolved⟩
  · have hwalk : d.root.walk d.place [[]] = some d.place := by
      rw [FileTree.walk_nil_of_dir d.isDirAt_place, FileTree.walk,
        if_pos (FileTree.isSome_of_isDirAt d.isDirAt_place)]
    refine ⟨by simp, ?_⟩
    rw [FileTree.resolve_append d.nonempty, d.resolved]
    exact hwalk

theorem ResultsDir.isEntryName (h : s ∈ d.names) : Lib.isEntryName s = true := by
  have hlisted := d.listed
  obtain ⟨t, ht, hnames⟩ := Option.bind_eq_some_iff.mp hlisted
  cases t with
  | file => cases hnames
  | dir names nodup plain child =>
    obtain rfl := Option.some.inj hnames
    exact List.all_eq_true.mp plain s h

theorem ResultsDir.splitOn_eq (h : s ∈ d.names) : s.splitOn '/' = [s] := by
  have hs := d.isEntryName h
  simp only [Lib.isEntryName, Bool.and_eq_true, decide_eq_true_eq] at hs
  exact List.splitOn_eq_singleton hs.2

theorem ResultsDir.subdirs_spelling (h : path ∈ d.spellings) :
    Analysis.subdirs d.root d.cwd path =
      some (Listing.sort (d.names.filter fun s => d.root.isDir d.cwd (path ++ s))) := by
  rw [Analysis.subdirs, FileTree.lookup, (d.resolve_spelling h).2, Option.bind_some, d.listed]
  rfl

theorem ResultsDir.resolve_entry (hs : s ∈ d.names) (hpath : path ∈ d.spellings) :
    d.root.resolve d.cwd (path ++ '/' :: s) = d.root.walk (d.place ++ [s]) [] := by
  obtain ⟨hne, hresolve⟩ := d.resolve_spelling hpath
  rw [FileTree.resolve_append hne, hresolve, Option.bind_some, d.splitOn_eq hs,
    FileTree.walk_cons_of_dir d.isDirAt_place (d.isEntryName hs)]

theorem ResultsDir.isDir_slash (hs : s ∈ d.names) :
    d.root.isDir d.cwd ((d.path ++ ['/']) ++ s) = d.isSubdir s := by
  rw [List.append_assoc, List.singleton_append, FileTree.isDir, FileTree.lookup,
    d.resolve_entry hs (by simp [spellings]), FileTree.walk_eq]
  rfl

theorem ResultsDir.findStatsSubdir_eq (hs : s ∈ d.names) (hpath : path ∈ d.spellings) :
    findStatsSubdir d.root d.cwd path s = statsOf d.root (d.place ++ [s]) := by
  have hjoin : pathJoin path s = d.path ++ '/' :: s := by
    rcases List.mem_pair.mp hpath with rfl | rfl
    · rw [pathJoin, if_neg d.bare]
    · rw [pathJoin, if_pos (by simp)]
      simp
  rw [findStatsSubdir, hjoin, d.resolve_entry hs (by simp [spellings]), FileTree.walk]
  split
  · rfl
  · rename_i hnone
    have hdir : ¬d.root.isDirAt (d.place ++ [s]) = true :=
      fun h => hnone (FileTree.isSome_of_isDirAt h)
    rw [statsOf, if_neg hdir]
    rfl

theorem ResultsDir.checkSubdir_eq (hs : s ∈ d.names) (hpath : path ∈ d.spellings) :
    checkSubdir d.root d.cwd path s =
      if d.isSubdir s then
        match d.root.find (d.place ++ [s, gem5Log]) with
        | none => some none
        | some log => (readLog log).map some
      else some none := by
  obtain ⟨hne, hresolve⟩ := d.resolve_spelling hpath
  have hsplit : (s ++ '/' :: gem5Log).splitOn '/' = [s, gem5Log] := by
    rw [List.splitOn_append_cons_self, d.splitOn_eq hs, List.splitOn_eq_singleton (by decide)]
    rfl
  have hlookup : d.root.lookup d.cwd (logName path s) =
      (d.root.walk (d.place ++ [s]) [gem5Log]).bind d.root.find := by
    rw [FileTree.lookup, logName, FileTree.resolve_append hne, hresolve, Option.bind_some, hsplit,
      FileTree.walk_cons_of_dir d.isDirAt_place (d.isEntryName hs)]
  rw [checkSubdir, hlookup]
  by_cases hsub : d.isSubdir s = true
  · rw [if_pos hsub, FileTree.walk_cons_of_dir hsub (by decide), FileTree.walk_eq,
      List.append_assoc]
    rfl
  · have hdir : ¬d.root.isDirAt (d.place ++ [s]) = true := hsub
    rw [if_neg hsub, FileTree.walk, if_neg hdir]
    rfl

end Paths

section Scan

variable (d : ResultsDir) {path : List Char}

theorem report_injective (path : List Char) : Function.Injective (report path) := by
  intro e e' h
  exact Prod.ext (congrArg Report.subdir h) (congrArg Report.checked h)

def ResultsDir.Readable (s : FileName) : Prop :=
  ∀ log, d.root.find (d.place ++ [s, gem5Log]) = some log → (readLog log).isSome

theorem ResultsDir.checkSubdir_isSome {s : FileName} (hs : s ∈ d.names)
    (hpath : path ∈ d.spellings) :
    (checkSubdir d.root d.cwd path s).isSome ↔ (d.isSubdir s → d.Readable s) := by
  rw [d.checkSubdir_eq hs hpath, Readable]
  split
  · rename_i hsub
    cases d.root.find (d.place ++ [s, gem5Log]) <;> simp [hsub]
  · rename_i hsub
    simp [hsub]

theorem ResultsDir.checkSubdir_join {s : FileName} (hs : s ∈ d.names)
    (hpath : path ∈ d.spellings) :
    (checkSubdir d.root d.cwd path s).join = if d.isSubdir s then d.log? s else none := by
  rw [d.checkSubdir_eq hs hpath, log?]
  split
  · cases d.root.find (d.place ++ [s, gem5Log]) with
    | none => rfl
    | some log => cases h : readLog log <;> simp [h]
  · rfl

theorem ResultsDir.mem_subdirs {s : FileName} :
    s ∈ d.subdirs ↔ s ∈ d.names ∧ d.isSubdir s = true := by
  rw [ResultsDir.subdirs, (Listing.sort_perm _).mem_iff, List.mem_filter]

theorem ResultsDir.checkSimulations_iff (hpath : path ∈ d.spellings) :
    checkSimulations d.root d.cwd path =
        some ((d.subdirs.filterMap fun s => (d.log? s).map (s, ·)).map (report path)) ↔
      (∀ s ∈ d.names, d.root.isDir d.cwd (path ++ s) → d.isSubdir s → d.Readable s) ∧
        ∀ s ∈ d.names, d.isSubdir s → (d.log? s).isSome →
          d.root.isDir d.cwd (path ++ s) := by
  have hexpected : (d.subdirs.filterMap fun s => (d.log? s).map (s, ·)) =
      d.subdirs.filterMap fun s => (checkSubdir d.root d.cwd path s).join.map (s, ·) := by
    refine List.filterMap_congr fun s hs => ?_
    obtain ⟨hs, hsub⟩ := d.mem_subdirs.mp hs
    rw [d.checkSubdir_join hs hpath, if_pos hsub]
  have hinj : Function.Injective (Option.map (List.map (report path))) :=
    Option.map_injective (List.map_injective_iff.mpr (report_injective path))
  rw [checkSimulations, d.subdirs_spelling hpath, Option.bind_some, hexpected, ← Option.map_some,
    hinj.eq_iff, ResultsDir.subdirs, collect_sort_iff]
  refine and_congr ?_ ?_
  · refine forall₂_congr fun s hs => ?_
    rw [d.checkSubdir_isSome hs hpath]
  · refine forall₂_congr fun s hs => ?_
    rw [d.checkSubdir_join hs hpath]
    cases hsub : d.isSubdir s <;> simp

theorem ResultsDir.isSubdir_of_statsOf {s : FileName}
    (h : (statsOf d.root (d.place ++ [s])).isSome) : d.isSubdir s = true := by
  rw [statsOf] at h
  split at h
  · rename_i hdir
    exact hdir
  · cases h

theorem ResultsDir.findStatsGroup_iff (hpath : path ∈ d.spellings) :
    findStatsGroup d.root d.cwd path =
        some (d.subdirs.filterMap fun s => (d.stats? s).map (s, ·)) ↔
      (∀ s ∈ d.names, d.root.isDir d.cwd (path ++ s) →
        (statsOf d.root (d.place ++ [s])).isSome) ∧
        ∀ s ∈ d.names, d.isSubdir s → (d.stats? s).isSome →
          d.root.isDir d.cwd (path ++ s) := by
  have hexpected : (d.subdirs.filterMap fun s => (d.stats? s).map (s, ·)) =
      d.subdirs.filterMap fun s => (findStatsSubdir d.root d.cwd path s).join.map (s, ·) := by
    refine List.filterMap_congr fun s hs => ?_
    rw [d.findStatsSubdir_eq (d.mem_subdirs.mp hs).1 hpath, stats?]
  rw [findStatsGroup, d.subdirs_spelling hpath, Option.bind_some, hexpected, ResultsDir.subdirs,
    collect_sort_iff]
  refine and_congr ?_ ?_
  · refine forall₂_congr fun s hs => ?_
    rw [d.findStatsSubdir_eq hs hpath]
  · refine forall₂_congr fun s hs => ?_
    rw [d.findStatsSubdir_eq hs hpath, ← stats?]
    cases hsub : d.isSubdir s with
    | true => simp
    | false =>
      have hdir : ¬d.root.isDirAt (d.place ++ [s]) = true := by simpa [isSubdir] using hsub
      simp [stats?, statsOf, hdir]

theorem ResultsDir.covered_iff : d.Covered ↔ d.Scannable := by
  have hbare : d.path ∈ d.spellings := List.mem_cons_self
  have hslash : d.path ++ ['/'] ∈ d.spellings := List.mem_cons_of_mem _ List.mem_cons_self
  constructor
  · intro h
    obtain ⟨-, hlogs⟩ := (d.checkSimulations_iff hbare).mp (h.checked _ hbare)
    obtain ⟨hraise, hgroups⟩ := (d.findStatsGroup_iff hbare).mp (h.grouped _ hbare)
    obtain ⟨hreadable, -⟩ := (d.checkSimulations_iff hslash).mp (h.checked _ hslash)
    obtain ⟨hstats, -⟩ := (d.findStatsGroup_iff hslash).mp (h.grouped _ hslash)
    refine ⟨fun s hs hsub => ?_, fun s hs hsub => ?_, fun s hs hsub hentry => ?_,
      fun s hs hdir => ?_⟩
    · exact hreadable s hs (by rw [d.isDir_slash hs]; exact hsub) hsub
    · exact hstats s hs (by rw [d.isDir_slash hs]; exact hsub)
    · exact hentry.elim (hlogs s hs hsub) (hgroups s hs hsub)
    · exact d.isSubdir_of_statsOf (hraise s hs hdir)
  · intro h
    have hdir : ∀ path ∈ d.spellings, ∀ s ∈ d.names, d.root.isDir d.cwd (path ++ s) →
        d.isSubdir s := by
      intro path hpath s hs hfound
      rcases List.mem_pair.mp hpath with rfl | rfl
      · exact h.others s hs hfound
      · rwa [d.isDir_slash hs] at hfound
    have hfound : ∀ path ∈ d.spellings, ∀ s ∈ d.names, d.isSubdir s →
        ((d.log? s).isSome ∨ (d.stats? s).isSome) → d.root.isDir d.cwd (path ++ s) := by
      intro path hpath s hs hsub hentry
      rcases List.mem_pair.mp hpath with rfl | rfl
      · exact h.found s hs hsub hentry
      · rwa [d.isDir_slash hs]
    refine ⟨fun path hpath => ?_, fun path hpath => ?_⟩
    · refine (d.checkSimulations_iff hpath).mpr ⟨fun s hs _ hsub => h.logs s hs hsub, ?_⟩
      exact fun s hs hsub hlog => hfound path hpath s hs hsub (.inl hlog)
    · refine (d.findStatsGroup_iff hpath).mpr ⟨fun s hs hdir' => ?_, ?_⟩
      · exact h.stats s hs (hdir path hpath s hs hdir')
      · exact fun s hs hsub hstats => hfound path hpath s hs hsub (.inr hstats)

def directory (name : FileName) (plain : isEntryName name = true) (child : Results) : Results :=
  .dir [name] (List.nodup_singleton name) (by simpa using plain) fun _ => child

def oneResult : ResultsDir where
  root := directory "results".toList (by decide) (directory "fibonacci-go".toList (by decide)
    (directory gem5Log (by decide) (.file ⟨0, .text "Simulation done".toList⟩)))
  cwd := []
  path := "results".toList
  nonempty := by decide
  bare := by decide
  place := ["results".toList]
  resolved := by decide
  names := ["fibonacci-go".toList]
  listed := rfl

theorem not_covered_oneResult : ¬oneResult.Covered := by
  intro h
  have hbare : oneResult.path ∈ oneResult.spellings := List.mem_cons_self
  obtain ⟨-, hfound⟩ := (oneResult.checkSimulations_iff hbare).mp (h.checked _ hbare)
  have hdir := hfound "fibonacci-go".toList List.mem_cons_self (by decide) (by decide)
  revert hdir
  decide

end Scan

end VSwarm.Analysis
