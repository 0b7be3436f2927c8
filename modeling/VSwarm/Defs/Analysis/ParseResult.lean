import VSwarm.Defs.Analysis.FindStats
import VSwarm.Defs.Analysis.StatLines
import VSwarm.Defs.Analysis.ToPandas

namespace VSwarm.Analysis

open VSwarm.Lib

structure ExperimentResults (κ : Type) where
  configs : Option κ
  stats : List Stats
  props : OrderedDict String Value

section Parse

variable {κ : Type} (loadJson : List Char → Option κ)

def readConfigs (d : Folder) (name : FileName) : Option κ :=
  match lookup d name with
  | some ⟨_, .text cs⟩ => loadJson cs
  | _ => none

/-- `parse_result`; there is no result if it raises, which it does on statistics
that could not be read. -/
def parseResult (d : Folder) (configJsonFileName statsFileName : FileName)
    (props : OrderedDict String Value) : Option (ExperimentResults κ) :=
  (readStatsFile d statsFileName).map fun stats =>
    ⟨readConfigs loadJson d configJsonFileName, stats, props⟩

end Parse

structure DumpLine extends StatLine where
  comment : List Char
  rest_eq : rest = comment ++ ['\n']
  comment_line : '\n' ∉ comment ∧ '\r' ∉ comment
  not_ends : endsBlock (name ++ (gap ++ (value.text ++ rest))) = false

abbrev Dump := List DumpLine

def Dump.lines (d : Dump) : List Line :=
  .blank :: .begins :: (d.map fun l => .stat l.toStatLine) ++ [.blank, .ends]

def Dump.text (d : Dump) : List Char := d.lines.flatMap Line.text

def Dump.table (d : Dump) : Stats :=
  (d.filter (·.value.readable)).foldl (fun t l => t.insert l.name l.value.text) .empty

section Format

theorem foldl_assign_stats (d : Dump) (block : Stats) :
    ((d.map fun l => Line.stat l.toStatLine).map Line.text).foldl assign block =
      (d.filter (·.value.readable)).foldl (fun t l => t.insert l.name l.value.text) block := by
  induction d generalizing block with
  | nil => rfl
  | cons l d ih =>
    have hrule : statRule (Line.stat l.toStatLine).text =
        if l.value.readable then some (l.name, l.value.text) else none := statRule_text l.toStatLine
    rw [List.map_cons, List.map_cons, List.foldl_cons, assign, hrule]
    cases hr : l.value.readable with
    | true =>
      rw [List.filter_cons_of_pos (p := fun l : DumpLine => l.value.readable) hr, List.foldl_cons]
      exact ih _
    | false =>
      rw [List.filter_cons_of_neg (by simp [hr])]
      exact ih _

theorem Dump.record_lines (d : Dump) : record (d.lines.map Line.text) = d.table := by
  have hmarkers : (∀ t, assign t Line.blank.text = t) ∧ (∀ t, assign t Line.begins.text = t) ∧
      ∀ t, assign t Line.ends.text = t := by
    have hrules : statRule Line.blank.text = none ∧ statRule Line.begins.text = none ∧
        statRule Line.ends.text = none := by decide
    simp only [assign, hrules, implies_true, and_self]
  obtain ⟨hblank, hbegins, hends⟩ := hmarkers
  rw [record, Dump.lines, Dump.table, List.cons_append, List.cons_append, List.map_cons,
    List.map_cons, List.map_append, List.foldl_cons, List.foldl_cons, List.foldl_append, hblank,
    hbegins, foldl_assign_stats]
  simp [hblank, hends]

theorem Dump.segments_lines (ds : List Dump) :
    segments Line.endsBlock (ds.flatMap Dump.lines) = ds.map Dump.lines := by
  have hmarkers : Line.blank.endsBlock = false ∧ Line.begins.endsBlock = false ∧
      Line.ends.endsBlock = true := by decide
  obtain ⟨hblank, hbegins, hends⟩ := hmarkers
  induction ds with
  | nil => rfl
  | cons d ds ih =>
    have hlines : d.lines =
        (.blank :: .begins :: (d.map fun l => .stat l.toStatLine) ++ [.blank]) ++ [.ends] := by
      simp [Dump.lines]
    have hlast : d.lines = [] ∨ ∃ l ∈ d.lines.getLast?, l.endsBlock = true := by
      rw [hlines, List.getLast?_concat]
      exact .inr ⟨_, rfl, hends⟩
    have hone : segments Line.endsBlock d.lines = [d.lines] := by
      apply Segments.singleton (by simp [Dump.lines])
      rw [hlines, List.dropLast_concat]
      intro l hl
      simp only [List.cons_append, List.mem_cons, List.mem_append, List.mem_map,
        List.not_mem_nil, or_false] at hl
      rcases hl with rfl | rfl | ⟨s, -, rfl⟩ | rfl
      · exact hblank
      · exact hbegins
      · exact s.not_ends
      · exact hblank
    rw [List.flatMap_cons, Segments.append hlast, hone, ih]
    rfl

theorem Printed.newline_notMem (v : Printed) : '\n' ∉ v.text ∧ '\r' ∉ v.text := by
  cases v with
  | nan => decide
  | inf => decide
  | decimal d =>
    have hno : ∀ c ∈ d.magnitude, c.isDigit = true ∨ c = '.' := by
      intro c hc
      rcases List.mem_append.mp hc with hc | hc
      · exact .inl (List.all_eq_true.mp d.whole_digits c hc)
      · cases hf : d.fraction with
        | none => simp [hf] at hc
        | some f =>
          have hdigits : f.all Char.isDigit = true := by simpa [hf] using d.fraction_digits
          rw [hf, Option.elim_some] at hc
          rcases List.mem_cons.mp hc with rfl | hc
          · exact .inr rfl
          · exact .inl (List.all_eq_true.mp hdigits c hc)
    have hnot : ∀ c, c.isDigit = false → c ≠ '.' → c ≠ '-' → c ∉ (Printed.decimal d).text := by
      intro c hdigit hdot hsign hc
      have hc' : c ∈ d.magnitude := by
        rw [Printed.text] at hc
        split at hc
        · exact (List.mem_cons.mp hc).resolve_left hsign
        · exact hc
      rcases hno c hc' with h | h
      · rw [hdigit] at h
        cases h
      · exact hdot h
    exact ⟨hnot _ (by decide) (by decide) (by decide), hnot _ (by decide) (by decide) (by decide)⟩

theorem DumpLine.text_eq (l : DumpLine) :
    ∃ cs, (Line.stat l.toStatLine).text = cs ++ ['\n'] ∧ '\n' ∉ cs ∧ '\r' ∉ cs := by
  have hname : ∀ c ∈ l.name, isPrintable c = true := List.all_eq_true.mp l.name_printable
  have hgap : ∀ c ∈ l.gap, c = ' ' ∨ c = '\t' := by
    intro c hc
    simpa using List.all_eq_true.mp l.gap_blank c hc
  have hnot : ∀ c, isPrintable c = false → c ≠ ' ' → c ≠ '\t' → c ∉ l.value.text → c ∉ l.comment →
      c ∉ l.name ++ (l.gap ++ (l.value.text ++ l.comment)) := by
    intro c hprintable hspace htab hvalue hcomment hc
    rcases List.mem_append.mp hc with hc | hc
    · rw [hname c hc] at hprintable
      cases hprintable
    · rcases List.mem_append.mp hc with hc | hc
      · exact (hgap c hc).elim hspace htab
      · exact (List.mem_append.mp hc).elim hvalue hcomment
  refine ⟨l.name ++ (l.gap ++ (l.value.text ++ l.comment)), ?_, ?_, ?_⟩
  · show l.name ++ (l.gap ++ (l.value.text ++ l.rest)) = _
    rw [l.rest_eq]
    simp
  · exact hnot _ (by decide) (by decide) (by decide) l.value.newline_notMem.1 l.comment_line.1
  · exact hnot _ (by decide) (by decide) (by decide) l.value.newline_notMem.2 l.comment_line.2

theorem Dump.text_eq {ds : List Dump} {l : Line} (h : l ∈ ds.flatMap Dump.lines) :
    ∃ cs, l.text = cs ++ ['\n'] ∧ '\n' ∉ cs ∧ '\r' ∉ cs := by
  obtain ⟨d, -, hl⟩ := List.mem_flatMap.mp h
  simp only [Dump.lines, List.cons_append, List.mem_cons, List.mem_append, List.mem_map,
    List.not_mem_nil, or_false] at hl
  rcases hl with rfl | rfl | ⟨s, -, rfl⟩ | rfl | rfl
  · exact ⟨[], rfl, by decide, by decide⟩
  · exact ⟨"---------- Begin Simulation Statistics ----------".toList, by decide⟩
  · exact s.text_eq
  · exact ⟨[], rfl, by decide, by decide⟩
  · exact ⟨"---------- End Simulation Statistics   ----------".toList, by decide⟩

theorem lines_flatMap_text {file : List Line}
    (h : ∀ l ∈ file, ∃ cs, l.text = cs ++ ['\n'] ∧ '\n' ∉ cs ∧ '\r' ∉ cs) :
    Text.lines (Text.universalNewlines (file.flatMap Line.text)) = file.map Line.text := by
  have hreturn : '\r' ∉ file.flatMap Line.text := by
    intro hmem
    obtain ⟨l, hl, hr⟩ := List.mem_flatMap.mp hmem
    obtain ⟨cs, htext, -, hcs⟩ := h l hl
    rw [htext] at hr
    simp [hcs] at hr
  rw [Text.universalNewlines_of_notMem hreturn]
  clear hreturn
  induction file with
  | nil => rfl
  | cons l file ih =>
    obtain ⟨cs, htext, hcs, -⟩ := h l List.mem_cons_self
    rw [List.flatMap_cons, htext, List.append_assoc, List.singleton_append,
      Text.lines_append_newline hcs, ih fun l' hl' => h l' (List.mem_cons_of_mem l hl'),
      List.map_cons, htext]

theorem readStats_dumps (ds : List Dump) :
    readStats (ds.flatMap Dump.text) = some (ds.map Dump.table) := by
  have htext : ds.flatMap Dump.text = (ds.flatMap Dump.lines).flatMap Line.text :=
    List.flatMap_assoc.symm
  rw [readStats, htext, lines_flatMap_text fun l hl => Dump.text_eq hl, readLines_map_text,
    Dump.segments_lines, List.map_map]
  apply congrArg some
  apply List.map_congr_left
  intro d _
  exact d.record_lines

end Format

end VSwarm.Analysis
