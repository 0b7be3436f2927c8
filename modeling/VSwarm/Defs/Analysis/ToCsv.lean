import VSwarm.Lib.Csv
import VSwarm.Defs.Analysis.ParseResult

namespace VSwarm.Analysis

open VSwarm.Lib

/-- The delimiter and the quote character that `to_csv` asks for. -/
def excel : Csv.Dialect where
  delimiter := ','
  quotechar := '"'
  quote_ne_delimiter := by decide
  quote_ne_newline := by decide
  delimiter_ne_newline := by decide

/-- `csv.field_size_limit()`, unless it was set. -/
def fieldSizeLimit : Nat := 131072

def Floats.csvText (p : Floats) : Option Value → List Char
  | none => []
  | some (.str s) => s
  | some (.int n) => (toString n).toList
  | some (.float x) => p.repr x

structure Column (ρ : Type) where
  name : List Char
  extract : ρ → Option (Option Value)

structure Written where
  text : List Char
  raised : Bool

section Write

variable {ρ : Type} (p : Floats) (fields : List (Column ρ))

def cell (f : Column ρ) (r : ρ) : Option (List Char) := (f.extract r).map p.csvText

def csvRows : List ρ → Written
  | [] => ⟨[], false⟩
  | r :: results =>
    match fields.mapM fun f => cell p f r with
    | none => ⟨[], true⟩
    | some row =>
      let w := csvRows results
      ⟨Csv.writeRow excel row ++ w.text, w.raised⟩

/-- `to_csv`; closing the file keeps the rows before an exception. -/
def toCsv (results : List ρ) : Written :=
  let w := csvRows p fields results
  ⟨Csv.writeRow excel (fields.map Column.name) ++ w.text, w.raised⟩

def extractable (r : ρ) : Bool := fields.all fun f => (f.extract r).isSome

end Write

section Laws

variable {ρ : Type} {p : Floats} {fields : List (Column ρ)}

theorem csvRows_map {σ : Type} {f : σ → ρ} {ok : σ → Bool} {row : σ → Csv.Row}
    (h : ∀ a, (fields.mapM fun c => cell p c (f a)) = if ok a then some (row a) else none)
    (l : List σ) :
    csvRows p fields (l.map f) =
      ⟨Csv.write excel ((l.takeWhile ok).map row), l.any (!ok ·)⟩ := by
  induction l with
  | nil => rfl
  | cons a l ih =>
    rw [List.map_cons, csvRows, h]
    cases hok : ok a with
    | false => simp [hok, Csv.write]
    | true =>
      rw [List.takeWhile_cons_of_pos hok, ih]
      simp [hok, Csv.write]

theorem read_toCsv {table : List Csv.Row} {raised : Bool} {results : List ρ}
    (h : csvRows p fields results = ⟨Csv.write excel table, raised⟩) (limit : Nat) :
    Csv.read excel limit (toCsv p fields results).text =
      if Csv.fits limit (fields.map Column.name :: table) then
        some (fields.map Column.name :: table) else none := by
  have htext : (toCsv p fields results).text =
      Csv.write excel (fields.map Column.name :: table) := by
    rw [toCsv, h]
    rfl
  rw [htext, Csv.read_write]

def table (p : Floats) (fields : List (Column ρ)) (results : List ρ) : List Csv.Row :=
  fields.map Column.name ::
    (results.takeWhile (extractable fields)).map fun r => fields.filterMap (cell p · r)

end Laws

structure Run where
  benchmark : List Char
  files : Folder
  dumps : List Dump
  written : ∃ t, files "stats.txt".toList = some ⟨t, .text (dumps.flatMap Dump.text)⟩
  distinct : ∀ d ∈ dumps, (d.map (·.name)).Nodup

section Analysis

variable {κ : Type} (loadJson : List Char → Option κ)

def benchmarkProps (benchmark : List Char) : OrderedDict String Value :=
  OrderedDict.empty.insert "benchmark" (.str benchmark)

/-- The loop over the benchmarks in `analyze_results.ipynb`. -/
def rawData (runs : List Run) : Option (List (ExperimentResults κ)) :=
  runs.mapM fun run =>
    parseResult loadJson run.files "config.json".toList "stats.txt".toList
      (benchmarkProps run.benchmark)

def benchmarkField : Column (ExperimentResults κ) where
  name := "Benchmark".toList
  extract r := (r.props.get? "benchmark").map some

/-- `lambda r: r.stats[dump_number][stat]`; a statistic that is missing is `None`. -/
def statField (dumpNumber : Nat) (stat : Token) : Column (ExperimentResults κ) where
  name := stat
  extract r := (r.stats[dumpNumber]?).map fun s => (s.get? stat).map Value.str

def statFields (dumpNumber : Nat) (stats : List Token) : List (Column (ExperimentResults κ)) :=
  benchmarkField :: stats.map (statField dumpNumber)

/-- The cell of a statistic: what gem5 has printed for it, or nothing if that is a
negative or infinite value, which `read_stats` passes over. -/
def Dump.cell (d : Dump) (stat : Token) : List Char :=
  match d.find? (·.name = stat) with
  | some l => if l.value.readable then l.value.text else []
  | none => []

theorem parseResult_run (run : Run) :
    parseResult loadJson run.files "config.json".toList "stats.txt".toList
        (benchmarkProps run.benchmark) =
      some ⟨readConfigs loadJson run.files "config.json".toList, run.dumps.map Dump.table,
        benchmarkProps run.benchmark⟩ := by
  obtain ⟨t, hfile⟩ := run.written
  have hlookup : lookup run.files "stats.txt".toList =
      some ⟨t, .text (run.dumps.flatMap Dump.text)⟩ := by
    rw [lookup_of_file (by decide), hfile]
  rw [parseResult, readStatsFile, hlookup]
  simp only
  rw [readStats_dumps]
  rfl

theorem Dump.get?_table {d : Dump} (h : (d.map (·.name)).Nodup) (stat : Token) :
    (d.table.get? stat).getD [] = d.cell stat := by
  have hnodup : ((d.filter (·.value.readable)).map (·.name)).Nodup :=
    h.sublist (List.filter_sublist.map _)
  have hmissing : (∀ l ∈ d, l.value.readable = true → l.name ≠ stat) →
      d.table.get? stat = none := by
    intro hno
    rw [Dump.table, OrderedDict.get?_foldl_of_notMem]
    · rfl
    · intro hmem
      obtain ⟨l, hl, hname⟩ := List.mem_map.mp hmem
      exact hno l (List.mem_filter.mp hl).1 (List.mem_filter.mp hl).2 hname
  rw [Dump.cell]
  cases hfind : d.find? (·.name = stat) with
  | none =>
    have hnone : ∀ l ∈ d, l.name ≠ stat := by simpa using hfind
    rw [hmissing fun l hl _ => hnone l hl]
    rfl
  | some l =>
    have hl := List.mem_of_find?_eq_some hfind
    obtain rfl : l.name = stat := by simpa using List.find?_some hfind
    cases hr : l.value.readable with
    | true =>
      rw [Dump.table, OrderedDict.get?_foldl_of_mem hnodup (List.mem_filter.mpr ⟨hl, hr⟩)]
      simp [hr]
    | false =>
      rw [hmissing]
      · simp [hr]
      · intro l' hl' hr' hname
        obtain rfl := List.inj_on_of_nodup_map h hl' hl hname
        rw [hr] at hr'
        cases hr'

def Run.result (run : Run) : ExperimentResults κ :=
  ⟨readConfigs loadJson run.files "config.json".toList, run.dumps.map Dump.table,
    benchmarkProps run.benchmark⟩

theorem rawData_eq (runs : List Run) :
    rawData loadJson runs = some (runs.map (Run.result loadJson)) := by
  induction runs with
  | nil => rfl
  | cons run runs ih =>
    rw [rawData] at ih ⊢
    rw [List.mapM_cons, parseResult_run, ih]
    rfl

def Run.complete (dumpNumber : Nat) (stats : List Token) (run : Run) : Bool :=
  stats.isEmpty || dumpNumber < run.dumps.length

def Run.row (dumpNumber : Nat) (stats : List Token) (run : Run) : Csv.Row :=
  run.benchmark :: stats.map (run.dumps.getD dumpNumber []).cell

def runTable (dumpNumber : Nat) (stats : List Token) (runs : List Run) : List Csv.Row :=
  ("Benchmark".toList :: stats) ::
    (runs.takeWhile (Run.complete dumpNumber stats)).map (Run.row dumpNumber stats)

theorem mapM_cell_result (p : Floats) (dumpNumber : Nat) (stats : List Token) (run : Run) :
    ((statFields dumpNumber stats).mapM fun f => cell p f (run.result loadJson)) =
      if run.complete dumpNumber stats then some (run.row dumpNumber stats) else none := by
  have hbenchmark : cell p benchmarkField (run.result loadJson) = some run.benchmark := rfl
  rw [statFields, List.mapM_cons, hbenchmark]
  have hstats : ((stats.map (statField dumpNumber)).mapM fun f => cell p f (run.result loadJson)) =
      if run.complete dumpNumber stats then
        some (stats.map (run.dumps.getD dumpNumber []).cell) else none := by
    induction stats with
    | nil => rfl
    | cons stat stats ih =>
      rw [List.map_cons, List.mapM_cons]
      cases hd : run.dumps[dumpNumber]? with
      | none =>
        have hlength : ¬dumpNumber < run.dumps.length := by simpa using hd
        simp [cell, statField, Run.result, Run.complete, hlength]
      | some d =>
        have hlength : dumpNumber < run.dumps.length := (List.getElem?_eq_some_iff.mp hd).1
        have hcell : cell p (statField dumpNumber stat) (run.result loadJson) =
            some (d.cell stat) := by
          have htable := Dump.get?_table (run.distinct d (List.mem_of_getElem? hd)) stat
          rw [← htable]
          simp only [cell, statField, Run.result, List.getElem?_map, hd, Option.map_some]
          cases d.table.get? stat <;> rfl
        have hall : run.complete dumpNumber stats = true := by simp [Run.complete, hlength]
        have hget : run.dumps.getD dumpNumber [] = d := by simp [List.getD, hd]
        rw [hcell, ih, hall, hget]
        simp [Run.complete, hlength]
  rw [hstats]
  cases run.complete dumpNumber stats <;> rfl

theorem toCsv_rawData (p : Floats) (runs : List Run) (dumpNumber : Nat) (stats : List Token) :
    ∃ raw, rawData loadJson runs = some raw ∧
      (toCsv p (statFields dumpNumber stats) raw).raised =
        runs.any (!Run.complete dumpNumber stats ·) ∧
      Csv.read excel fieldSizeLimit (toCsv p (statFields dumpNumber stats) raw).text =
        if Csv.fits fieldSizeLimit (runTable dumpNumber stats runs) then
          some (runTable dumpNumber stats runs) else none := by
  have hrows := csvRows_map (mapM_cell_result loadJson p dumpNumber stats) runs
  have hnames :
      (statFields dumpNumber stats : List (Column (ExperimentResults κ))).map Column.name =
        "Benchmark".toList :: stats := by
    rw [statFields, List.map_cons, List.map_map]
    exact congrArg (_ :: ·) (List.map_id stats)
  refine ⟨_, rawData_eq loadJson runs, ?_, ?_⟩
  · rw [toCsv, hrows]
  · rw [read_toCsv hrows, hnames, runTable]

end Analysis

end VSwarm.Analysis
