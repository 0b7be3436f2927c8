import Mathlib
import VSwarm.Lib.Meter
import VSwarm.Defs.Analysis.ParseResult
import VSwarm.Defs.RunSim.Evaluation

namespace VSwarm.RunSim

open VSwarm.Lib VSwarm.Analysis

structure Counter where
  name : Token
  gap : List Char
  comment : List Char
  name_ne : name ≠ []
  name_printable : name.all isPrintable = true
  gap_ne : gap ≠ []
  gap_blank : gap.all (fun c => c = ' ' || c = '\t') = true
  comment_blank : (comment ++ ['\n']).head?.all isBlank = true
  comment_line : '\n' ∉ comment ∧ '\r' ∉ comment
  not_ends : ∀ n : ℕ,
    endsBlock (name ++ (gap ++ ((toString n).toList ++ (comment ++ ['\n'])))) = false

def decimal (n : ℕ) : Decimal where
  whole := (toString n).toList
  whole_ne := by simp
  whole_digits := by
    rw [List.all_eq_true]
    intro c hc
    by_contra hdigit
    exact Text.notMem_toString_nat (Bool.of_not_eq_true hdigit) n hc
  fraction_digits := rfl

theorem text_decimal (n : ℕ) : (Printed.decimal (decimal n)).text = (toString n).toList :=
  List.append_nil _

def Counter.line (c : Counter) (n : ℕ) : DumpLine where
  name := c.name
  gap := c.gap
  value := .decimal (decimal n)
  rest := c.comment ++ ['\n']
  name_ne := c.name_ne
  name_printable := c.name_printable
  gap_ne := c.gap_ne
  gap_blank := c.gap_blank
  rest_blank := c.comment_blank
  comment := c.comment
  rest_eq := rfl
  comment_line := c.comment_line
  not_ends := by
    rw [text_decimal]
    exact c.not_ends n

structure Layout where
  counters : List Counter
  distinct : (counters.map Counter.name).Nodup

abbrev Counts := Token → ℕ

def Layout.dump (layout : Layout) (v : Counts) : Dump :=
  layout.counters.map fun c => c.line (v c.name)

def Layout.statsFile (layout : Layout) (written : List Counts) (rest : List Dump) : List Char :=
  (written.map layout.dump ++ rest).flatMap Dump.text

section Reading

theorem Layout.get?_table (layout : Layout) (v : Counts) {c : Counter} (h : c ∈ layout.counters) :
    (layout.dump v).table.get? c.name = some (toString (v c.name)).toList := by
  have hall : (layout.dump v).filter (·.value.readable) = layout.dump v := by
    rw [List.filter_eq_self]
    intro l hl
    obtain ⟨c, -, rfl⟩ := List.mem_map.mp hl
    rfl
  have hnames : (layout.dump v).map (·.name) = layout.counters.map Counter.name := by
    rw [Layout.dump, List.map_map]
    rfl
  have hmem : c.line (v c.name) ∈ layout.dump v := List.mem_map.mpr ⟨c, h, rfl⟩
  rw [Dump.table, hall, ← text_decimal]
  exact OrderedDict.get?_foldl_of_mem (hnames ▸ layout.distinct) hmem

end Reading

section Window

variable {t : Template} {root : String} {args : Args} {W M j k : ℕ} {es : List ExitEvent}

end Window

end VSwarm.RunSim
