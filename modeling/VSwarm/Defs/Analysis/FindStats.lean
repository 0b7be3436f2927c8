import VSwarm.Lib.FileSystem
import VSwarm.Lib.Transition
import VSwarm.Defs.Analysis.ReadStats

namespace VSwarm.Analysis

open VSwarm.Lib

abbrev FileName := List Char

inductive Body
  | text (cs : List Char)
  | pickle (stats : Option (List Stats))
  | dir

structure Entry where
  mtime : Nat
  body : Body

abbrev Folder := FileSystem FileName Entry

def isDirName (name : FileName) : Bool := name = [] || name = ['.'] || name = ['.', '.']

def lookup (d : Folder) (name : FileName) : Option Entry :=
  if isDirName name then some ⟨0, .dir⟩ else d name

/-- `read_stats`: there are no statistics if the file cannot be opened or decoded. -/
def readStatsFile (d : Folder) (name : FileName) : Option (List Stats) :=
  match lookup d name with
  | some ⟨_, .text cs⟩ => readStats cs
  | _ => none

/-- `stats_file_name[:-5]`. -/
def cacheName (name : FileName) : FileName := name.take (name.length - 5)

structure Directory where
  files : Folder := fun _ => none
  clock : Nat := 0

def store (v : Directory) (name : FileName) : Option (List Stats) × Directory :=
  let tmp := readStatsFile v.files name
  (tmp, ⟨v.files.write (cacheName name) ⟨v.clock, .pickle tmp⟩, v.clock + 1⟩)

def findStats (v : Directory) (name : FileName) : Option (Option (List Stats)) × Directory :=
  match lookup v.files (cacheName name) with
  -- a directory can be opened neither for writing nor for reading
  | some ⟨_, .dir⟩ => (none, v)
  | none => (some (store v name).1, (store v name).2)
  | some ⟨t, cache⟩ =>
    match lookup v.files name with
    | none => (none, v)
    | some file =>
      if file.mtime > t then (some (store v name).1, (store v name).2)
      else
        match cache with
        | .pickle stats => (some stats, v)
        | _ => (none, v)

inductive Event
  | write (name : FileName) (text : List Char)
  | find (name : FileName)

def Event.name : Event → FileName
  | .write name _ => name
  | .find name => name

structure Session extends Directory where
  written : List FileName := []
  calls : List FileName := []

def Session.step (v : Session) : Event → Option Session
  | .write name text =>
    if isDirName name then none
    else
      some { v with
        files := v.files.write name ⟨v.clock, .text text⟩
        clock := v.clock + 1
        written := name :: v.written }
  | .find name =>
    if (v.files name).isSome then
      some { v with toDirectory := (findStats v.toDirectory name).2, calls := name :: v.calls }
    else none

def Separate (v : Session) : Event → Prop
  | .write name _ => name ∉ v.calls.map cacheName
  | .find name => name ∉ v.calls.map cacheName ∧ cacheName name ∉ v.written

/-- A call whose cache file is a file, and was last used for the same stats file
unless the stats file is newer. -/
def Unshared (v : Session) : Event → Prop
  | .write _ _ => True
  | .find name => isDirName (cacheName name) = false ∧
      ∀ other, v.calls.find? (cacheName · = cacheName name) = some other → other = name ∨
        ∃ file cache, v.files name = some file ∧ v.files (cacheName name) = some cache ∧
          cache.mtime < file.mtime

/-- The stats files and the cache files are told apart, and a cache file that is
not older than the stats file it was last used for holds what is in it. -/
structure Coherent (v : Session) : Prop where
  past : ∀ {name file}, v.files name = some file → file.mtime < v.clock
  text : ∀ {name}, name ∈ v.written → ∃ t cs, v.files name = some ⟨t, .text cs⟩
  named : ∀ {name}, (v.files name).isSome → isDirName name = false ∧
    (name ∈ v.written ∨ name ∈ v.calls.map cacheName)
  cached : ∀ {cache name}, v.calls.find? (cacheName · = cache) = some name → name ∈ v.written ∧
    ∃ t stats t' cs, v.files cache = some ⟨t, .pickle stats⟩ ∧
      v.files name = some ⟨t', .text cs⟩ ∧ (t' ≤ t → stats = readStats cs)

section Laws

variable {v v' : Session} {name : FileName} {text : List Char}

theorem coherent_init : Coherent {} := by
  constructor <;> simp

theorem lookup_of_file {d : Folder} (h : isDirName name = false) : lookup d name = d name := by
  simp [lookup, h]

theorem find?_of_mem_cacheName (h : name ∈ v.calls.map cacheName) :
    ∃ other, v.calls.find? (cacheName · = name) = some other := by
  obtain ⟨call, hcall, rfl⟩ := List.mem_map.mp h
  exact Option.isSome_iff_exists.mp (List.find?_isSome.mpr ⟨call, hcall, by simp⟩)

theorem Coherent.statsFile (hv : Coherent v) (hsep : Separate v (.find name))
    (hex : (v.files name).isSome) :
    name ∈ v.written ∧ ∃ t cs, v.files name = some ⟨t, .text cs⟩ ∧
      readStatsFile v.files name = readStats cs := by
  obtain ⟨hfile, howned⟩ := hv.named hex
  have hwritten : name ∈ v.written := howned.resolve_right hsep.1
  obtain ⟨t, cs, hcs⟩ := hv.text hwritten
  refine ⟨hwritten, t, cs, hcs, ?_⟩
  rw [readStatsFile, lookup_of_file hfile, hcs]

theorem Coherent.find (hv : Coherent v) (hsep : Separate v (.find name))
    (hun : Unshared v (.find name)) (hex : (v.files name).isSome) :
    (findStats v.toDirectory name).1 = some (readStatsFile v.files name) ∧
      ((findStats v.toDirectory name).2 = (store v.toDirectory name).2 ∨
        (findStats v.toDirectory name).2 = v.toDirectory ∧
          v.calls.find? (cacheName · = cacheName name) = some name) := by
  obtain ⟨hwritten, t', cs, hcs, hread⟩ := hv.statsFile hsep hex
  obtain ⟨hdir, hshared⟩ := hun
  have hname := lookup_of_file (d := v.files) (hv.named hex).1
  cases hc : v.files (cacheName name) with
  | none => simp [findStats, lookup_of_file hdir, hc, store]
  | some cache =>
    have hcall : cacheName name ∈ v.calls.map cacheName :=
      ((hv.named (by simp [hc])).2).resolve_left hsep.2
    obtain ⟨other, hother⟩ := find?_of_mem_cacheName hcall
    obtain ⟨-, t, stats, t₁, cs₁, hstats, hcs₁, hfresh⟩ := hv.cached hother
    obtain rfl : cache = ⟨t, .pickle stats⟩ := Option.some.inj (hc.symm.trans hstats)
    by_cases hnewer : t < t'
    · simp [findStats, lookup_of_file hdir, hc, hname, hcs, hnewer, store]
    · have hsame : other = name := by
        refine (hshared other hother).resolve_right ?_
        rintro ⟨file, cache, hfile, hcache, hlt⟩
        rw [hcs, Option.some.injEq] at hfile
        rw [hc, Option.some.injEq] at hcache
        subst hfile hcache
        exact hnewer hlt
      subst hsame
      obtain ⟨rfl, rfl⟩ : t' = t₁ ∧ cs = cs₁ := by simpa [hcs] using hcs₁
      have hstats' : stats = readStatsFile v.files other :=
        (hfresh (Nat.le_of_not_lt hnewer)).trans hread.symm
      simp [findStats, lookup_of_file hdir, hc, hname, hcs, hnewer, hstats', hother]

theorem past_write {d : Folder} {clock : Nat} {body : Body} {other : FileName} {file : Entry}
    (hpast : ∀ {name file}, d name = some file → file.mtime < clock)
    (hother : d.write name ⟨clock, body⟩ other = some file) : file.mtime < clock + 1 := by
  by_cases hne : other = name
  · subst hne
    rw [FileSystem.write_same, Option.some.injEq] at hother
    subst hother
    exact Nat.lt_succ_self _
  · rw [FileSystem.write_of_ne hne] at hother
    exact (hpast hother).trans (Nat.lt_succ_self _)

theorem Coherent.step_write (hv : Coherent v) (hsep : Separate v (.write name text))
    (h : v.step (.write name text) = some v') : Coherent v' := by
  simp only [Session.step] at h
  split at h
  · cases h
  rename_i hfile
  obtain rfl := Option.some.inj h
  have hsame := FileSystem.write_same v.files name ⟨v.clock, .text text⟩
  have hframe : ∀ {other}, other ≠ name →
      v.files.write name ⟨v.clock, .text text⟩ other = v.files other :=
    fun hne => FileSystem.write_of_ne hne _
  refine ⟨past_write hv.past, fun {other} hother => ?_, fun {other} hother => ?_,
    fun {cache other} hother => ?_⟩
  · by_cases hne : other = name
    · exact ⟨v.clock, text, hne ▸ hsame⟩
    · obtain ⟨t, cs, hcs⟩ := hv.text ((List.mem_cons.mp hother).resolve_left hne)
      exact ⟨t, cs, (hframe hne).trans hcs⟩
  · by_cases hne : other = name
    · subst hne
      exact ⟨by simpa using hfile, .inl (List.mem_cons_self ..)⟩
    · obtain ⟨hdir, howned⟩ := hv.named ((congrArg Option.isSome (hframe hne)).symm.trans hother)
      exact ⟨hdir, howned.imp_left (List.mem_cons_of_mem _)⟩
  · obtain ⟨hwritten, t, stats, t', cs, hstats, hcs, hfresh⟩ := hv.cached hother
    have hcache : cache ≠ name := by
      rintro rfl
      have hmem := List.mem_of_find?_eq_some hother
      have hname : cacheName other = cache := by simpa using List.find?_some hother
      exact hsep (List.mem_map.mpr ⟨other, hmem, hname⟩)
    refine ⟨List.mem_cons_of_mem _ hwritten, ?_⟩
    by_cases hne : other = name
    · -- the stats file is now newer than its cache file
      refine ⟨t, stats, v.clock, text, (hframe hcache).trans hstats, hne ▸ hsame, fun hle => ?_⟩
      exact absurd (hv.past hstats) (Nat.not_lt.mpr hle)
    · exact ⟨t, stats, t', cs, (hframe hcache).trans hstats, (hframe hne).trans hcs, hfresh⟩

theorem Coherent.step_store (hv : Coherent v) (hsep : Separate v (.find name))
    (hdir : isDirName (cacheName name) = false) (hex : (v.files name).isSome) :
    Coherent { v with toDirectory := (store v.toDirectory name).2, calls := name :: v.calls } := by
  obtain ⟨hwritten, t', cs, hcs, hread⟩ := hv.statsFile hsep hex
  have hsame := FileSystem.write_same v.files (cacheName name)
    ⟨v.clock, .pickle (readStatsFile v.files name)⟩
  have hframe : ∀ {other}, other ≠ cacheName name →
      (store v.toDirectory name).2.files other = v.files other :=
    fun hne => FileSystem.write_of_ne hne _
  have hstats : ∀ {other}, other ∈ v.written → other ≠ cacheName name := by
    rintro other hother rfl
    exact hsep.2 hother
  refine ⟨past_write hv.past, fun {other} hother => ?_, fun {other} hother => ?_,
    fun {cache other} hother => ?_⟩
  · obtain ⟨t, cs, hcs⟩ := hv.text hother
    exact ⟨t, cs, (hframe (hstats hother)).trans hcs⟩
  · by_cases hne : other = cacheName name
    · subst hne
      exact ⟨hdir, .inr (List.mem_map_of_mem (List.mem_cons_self ..))⟩
    · obtain ⟨hfile, howned⟩ := hv.named ((congrArg Option.isSome (hframe hne)).symm.trans hother)
      exact ⟨hfile, howned.imp_right (List.mem_cons_of_mem _)⟩
  · by_cases hne : cacheName name = cache
    · subst hne
      rw [List.find?_cons_of_pos (by simp), Option.some.injEq] at hother
      subst hother
      exact ⟨hwritten, v.clock, readStatsFile v.files name, t', cs, hsame,
        (hframe (hstats hwritten)).trans hcs, fun _ => hread⟩
    · rw [List.find?_cons_of_neg (by simpa using hne)] at hother
      obtain ⟨hother', t, stats, t₁, cs₁, hold, hcs₁, hfresh⟩ := hv.cached hother
      exact ⟨hother', t, stats, t₁, cs₁, (hframe (Ne.symm hne)).trans hold,
        (hframe (hstats hother')).trans hcs₁, hfresh⟩

theorem Coherent.step_hit (hv : Coherent v)
    (hcall : v.calls.find? (cacheName · = cacheName name) = some name) :
    Coherent { v with calls := name :: v.calls } := by
  refine ⟨hv.past, hv.text, fun hother => ?_, fun {cache other} hother => ?_⟩
  · obtain ⟨hfile, howned⟩ := hv.named hother
    exact ⟨hfile, howned.imp_right (List.mem_cons_of_mem _)⟩
  · by_cases hne : cacheName name = cache
    · subst hne
      rw [List.find?_cons_of_pos (by simp), Option.some.injEq] at hother
      subst hother
      exact hv.cached hcall
    · rw [List.find?_cons_of_neg (by simpa using hne)] at hother
      exact hv.cached hother

theorem Coherent.step (e : Event) (hv : Coherent v) (hok : Separate v e ∧ Unshared v e)
    (h : v.step e = some v') : Coherent v' := by
  obtain ⟨hsep, hun⟩ := hok
  cases e with
  | write name text => exact hv.step_write hsep h
  | find name =>
    obtain ⟨hex, rfl⟩ := Transition.guarded_eq_some.mp h
    -- either the file is parsed and its result kept, or an earlier call has kept it
    obtain ⟨-, hstore | ⟨hhit, hcall⟩⟩ := hv.find hsep hun hex
    · rw [hstore]
      exact hv.step_store hsep hun.1 hex
    · rw [hhit]
      exact hv.step_hit hcall

theorem reaches_findStats
    (h : Transition.Reaches Session.step (fun v e => Separate v e ∧ Unshared v e) {} v)
    (hsep : Separate v (.find name)) (hun : Unshared v (.find name))
    (hex : (v.files name).isSome) :
    (findStats v.toDirectory name).1 = some (readStatsFile v.files name) := by
  have hv : Coherent v :=
    h.invariant coherent_init fun _ e _ hv hok hs => hv.step e hok hs
  exact (hv.find hsep hun hex).1

theorem reaches_findStats_rewritten :
    ∃ v, Transition.Reaches Session.step (fun v e => Separate v e ∧ Unshared v e) {} v ∧
      v.calls = ["stats.txt".toList] ∧ v.written = ["stats.txt".toList, "stats.txt".toList] ∧
      (findStats v.toDirectory "stats.txt".toList).1 =
        some (readStatsFile v.files "stats.txt".toList) := by
  let ticks (n : Char) : Event := .write "stats.txt".toList ("sim_ticks ".toList ++ [n, '\n'])
  have hstats : "stats.txt".toList ∉ ["stats.txt".toList].map cacheName := by decide
  have hcache : cacheName "stats.txt".toList ∉ ["stats.txt".toList, "stats.txt".toList] := by decide
  have hdir : isDirName (cacheName "stats.txt".toList) = false := by decide
  have h₁ : Transition.Reaches Session.step (fun v e => Separate v e ∧ Unshared v e) {} _ :=
    .step .init (l := ticks '1') ⟨List.not_mem_nil, trivial⟩ rfl
  have h₂ := h₁.step (l := Event.find "stats.txt".toList)
    ⟨⟨List.not_mem_nil, fun h => hcache (.tail _ h)⟩, hdir, fun _ hother => nomatch hother⟩ rfl
  have h₃ := h₂.step (l := ticks '2') ⟨hstats, trivial⟩ rfl
  refine ⟨_, h₃, rfl, rfl, reaches_findStats h₃ ⟨hstats, hcache⟩ ⟨hdir, ?_⟩ rfl⟩
  intro other hother
  exact .inl (Option.some.inj hother).symm

/-- The last character before the suffix is cut off too, so that these two files
share their cache file. -/
theorem not_findStats_shared :
    ¬∀ v name,
      Transition.Reaches Session.step (fun v e => Separate v e ∧ ".txt".toList <:+ e.name) {} v →
      Separate v (.find name) → ".txt".toList <:+ name → (v.files name).isSome →
      (findStats v.toDirectory name).1 = some (readStatsFile v.files name) := by
  intro h
  have h₁ : Transition.Reaches Session.step
      (fun v e => Separate v e ∧ ".txt".toList <:+ e.name) {} _ :=
    .step .init (l := Event.write "state.txt".toList "host_ticks 2\n".toList)
      ⟨by simp [Separate], by decide⟩ rfl
  have h₂ := h₁.step (l := Event.write "stats.txt".toList "sim_ticks 1\n".toList)
    ⟨by simp [Separate], by decide⟩ rfl
  have h₃ := h₂.step (l := Event.find "stats.txt".toList)
    ⟨by simp [Separate, cacheName], by decide⟩ rfl
  have hwrong := h _ "state.txt".toList h₃ (by simp [Separate, cacheName]) (by decide) rfl
  revert hwrong
  decide +kernel

end Laws

end VSwarm.Analysis
