import Mathlib.Data.List.DropRight
import VSwarm.Lib.Text

namespace VSwarm.Analysis

open VSwarm.Lib

def isSpace (c : Char) : Bool :=
  c ∈ ['\t', '\n', '\x0b', '\x0c', '\r', '\x1c', '\x1d', '\x1e', '\x1f', ' ', '\x85', '\xa0',
    '\u1680', '\u2028', '\u2029', '\u202f', '\u205f', '\u3000'] ||
    decide ('\u2000' ≤ c ∧ c ≤ '\u200a')

def strip (cs : List Char) : List Char := (cs.dropWhile isSpace).rdropWhile isSpace

def simulationDone : List Char := "Simulation done".toList

structure Checked where
  cmd : List Char := []
  success : Bool := false
  count : Nat := 0
  deriving DecidableEq

def Checked.readCmd (c : Checked) (line : List Char) : Checked :=
  if line.take 14 = "command line: ".toList then { c with cmd := strip (line.drop 14) } else c

def Checked.countEnd (c : Checked) (line : List Char) : Checked :=
  if Text.contains "End invokation:".toList line then { c with count := c.count + 1 } else c

/-- The loop; it breaks at the first line that says the simulation is done. -/
def scan (c : Checked) : List (List Char) → Checked
  | [] => c
  | line :: rest =>
    if Text.contains simulationDone line then { c.readCmd line with success := true }
    else scan ((c.readCmd line).countEnd line) rest

def checkLog (log : List Char) : Checked := scan {} (Text.lines (Text.universalNewlines log))

def Checked.status (c : Checked) : String :=
  if c.success then
    if c.count < 20 then "\x1b[93m WARN\x1b[00m" else "\x1b[92m succeed\x1b[00m"
  else "\x1b[91m fail\x1b[00m"

def Checked.report (subdir : String) (c : Checked) : List Char :=
  subdir.toList.leftpad 25 ' ' ++ (" > " ++ toString c.count ++ " : " ++ c.status).toList

def Checked.rerun (filename : String) (c : Checked) : List Char :=
  (if c.success then "# " else "").toList ++ " sudo ".toList ++ c.cmd ++
    (" > " ++ filename ++ " 2>&1 & \n").toList

def commented (line : List Char) : Bool := line.head? = some '#'

theorem commented_rerun (filename : String) (c : Checked) :
    commented (c.rerun filename) = c.success := by
  cases hc : c.success <;> simp [commented, Checked.rerun, hc]

theorem success_countEnd_readCmd (c : Checked) (line : List Char) :
    ((c.readCmd line).countEnd line).success = c.success := by
  unfold Checked.countEnd Checked.readCmd
  split <;> split <;> rfl

theorem scan_success (c : Checked) (ls : List (List Char)) :
    (scan c ls).success = true ↔ c.success = true ∨ ∃ l ∈ ls, simulationDone <:+: l := by
  induction ls generalizing c with
  | nil => simp [scan]
  | cons line ls ih =>
    by_cases h : simulationDone <:+: line
    · simp [scan, Text.contains, h]
    · rw [scan, if_neg (by simp [Text.contains, h]), ih, success_countEnd_readCmd]
      simp [h]

theorem checkLog_success (log : List Char) :
    (checkLog log).success = true ↔ simulationDone <:+: log := by
  rw [checkLog, scan_success, Text.infix_lines (by decide) (by decide),
    Text.infix_universalNewlines (by decide) (by decide) (by decide)]
  simp

end VSwarm.Analysis
