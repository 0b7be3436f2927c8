import Mathlib.Data.List.TakeWhile
import VSwarm.Lib.OrderedDict
import VSwarm.Lib.Segments
import VSwarm.Lib.Text

namespace VSwarm.Analysis

open VSwarm.Lib

abbrev Token := List Char

abbrev Stats := OrderedDict Token Token

def isBlank (c : Char) : Bool := c ∈ [' ', '\t', '\n', '\r']

def isPrintable (c : Char) : Bool := 33 ≤ c.toNat && c.toNat ≤ 126

/-- `'nan.%' + nums`. -/
def isValueChar (c : Char) : Bool := c ∈ "nan.%".toList || c.isDigit

def word (p : Char → Bool) (cs : List Char) : Option (Token × List Char) :=
  let cs := cs.dropWhile isBlank
  if cs.takeWhile p = [] then none else some (cs.takeWhile p, cs.dropWhile p)

/-- `stat_rule`; the rest of the line always matches. -/
def statRule (line : List Char) : Option (Token × Token) :=
  match word isPrintable line with
  | none => none
  | some (key, rest) => (word isValueChar rest).map fun (value, _) => (key, value)

def endsBlock (line : List Char) : Bool := Text.contains "End Simulation Statistics".toList line

structure Reading where
  stats : List Stats := []
  i : Nat := 0
  deriving DecidableEq

/-- One iteration of the loop; there is no result if `stats[i]` is out of range. -/
def readLine (s : Reading) (line : List Char) : Option Reading :=
  let stats := if s.stats.length ≤ s.i then s.stats ++ [.empty] else s.stats
  let i := if endsBlock line then s.i + 1 else s.i
  match statRule line with
  | none => some ⟨stats, i⟩
  | some (key, value) =>
    stats[s.i]?.map fun block => ⟨stats.set s.i (block.insert key value), i⟩

def readLines (lines : List (List Char)) : Option (List Stats) :=
  (lines.foldlM readLine {}).map Reading.stats

def readStats (text : List Char) : Option (List Stats) :=
  readLines (Text.lines (Text.universalNewlines text))

def assign (block : Stats) (line : List Char) : Stats :=
  match statRule line with
  | none => block
  | some (key, value) => block.insert key value

def record (lines : List (List Char)) : Stats := lines.foldl assign .empty

def lastValue (key : Token) (lines : List (List Char)) : Option Token :=
  (((lines.filterMap statRule).filter (·.1 = key)).getLast?).map Prod.snd

section Laws

variable {finished : List Stats} {block : Stats} {line : List Char} {lines : List (List Char)}

theorem readLine_open :
    readLine ⟨finished ++ [block], finished.length⟩ line =
      some ⟨finished ++ [assign block line],
        if endsBlock line then finished.length + 1 else finished.length⟩ := by
  have hlength : ¬(finished ++ [block]).length ≤ finished.length := by simp
  simp only [readLine, assign, if_neg hlength]
  cases statRule line <;> simp

theorem readLine_fresh :
    readLine ⟨finished, finished.length⟩ line =
      readLine ⟨finished ++ [.empty], finished.length⟩ line := by
  have hlength : ¬(finished ++ [OrderedDict.empty]).length ≤ finished.length := by simp
  simp only [readLine, Nat.le_refl, if_true, if_neg hlength]

def readOn (finished : List Stats) (block : Stats) (lines : List (List Char)) : List Stats :=
  match segments endsBlock lines with
  | [] => finished ++ [block]
  | s :: ss => finished ++ s.foldl assign block :: ss.map record

theorem foldlM_readLine_fresh
    (h : (lines.foldlM readLine ⟨finished ++ [.empty], finished.length⟩).map Reading.stats =
      some (readOn finished .empty lines)) :
    (lines.foldlM readLine ⟨finished, finished.length⟩).map Reading.stats =
      some (finished ++ (segments endsBlock lines).map record) := by
  cases lines with
  | nil => simp [segments]
  | cons line lines =>
    have hne := Segments.ne_nil (p := endsBlock) (List.cons_ne_nil line lines)
    obtain ⟨s, ss, hs⟩ := List.exists_cons_of_ne_nil hne
    rw [List.foldlM_cons, readLine_fresh, ← List.foldlM_cons, h, readOn, hs]
    rfl

theorem foldlM_readLine_open (lines : List (List Char)) (finished : List Stats) (block : Stats) :
    (lines.foldlM readLine ⟨finished ++ [block], finished.length⟩).map Reading.stats =
      some (readOn finished block lines) := by
  induction lines generalizing finished block with
  | nil => rfl
  | cons line lines ih =>
    rw [List.foldlM_cons, readLine_open]
    cases hend : endsBlock line with
    | true =>
      have hfresh := foldlM_readLine_fresh (ih (finished ++ [assign block line]) .empty)
      rw [readOn, Segments.cons_of_end hend]
      simpa using hfresh
    | false =>
      have hopen := ih finished (assign block line)
      rw [readOn] at hopen ⊢
      cases hs : segments endsBlock lines with
      | nil =>
        rw [hs] at hopen
        rw [Segments.cons_of_nil hend hs]
        simpa using hopen
      | cons s ss =>
        rw [hs] at hopen
        rw [Segments.cons_of_cons hend hs]
        simpa using hopen

theorem readLines_eq (lines : List (List Char)) :
    readLines lines = some ((segments endsBlock lines).map record) :=
  @foldlM_readLine_fresh [] lines (foldlM_readLine_open lines [] .empty)

theorem get?_foldl_assign (lines : List (List Char)) (block : Stats) (key : Token) :
    (lines.foldl assign block).get? key = (lastValue key lines).or (block.get? key) := by
  induction lines generalizing block with
  | nil => rfl
  | cons line lines ih =>
    rw [List.foldl_cons, ih]
    unfold assign lastValue
    cases hrule : statRule line with
    | none => simp [hrule]
    | some kv =>
      obtain ⟨k, v⟩ := kv
      rw [OrderedDict.get?_insert, List.filterMap_cons_some hrule]
      by_cases hk : k = key
      · rw [List.filter_cons_of_pos (by simpa using hk), List.getLast?_cons, if_pos hk.symm]
        cases (List.filter (·.1 = key) (List.filterMap statRule lines)).getLast? <;> rfl
      · rw [List.filter_cons_of_neg (by simpa using hk), if_neg (Ne.symm hk)]

theorem get?_record (lines : List (List Char)) (key : Token) :
    (record lines).get? key = lastValue key lines := by
  rw [record, get?_foldl_assign]
  simp [OrderedDict.get?, OrderedDict.empty]

theorem readLines_blocks :
    (∀ lines, ∃ blocks, Segmentation endsBlock lines blocks) ∧
    (∀ lines blocks, Segmentation endsBlock lines blocks →
      readLines lines = some (blocks.map record)) ∧
    (∀ block key, (record block).get? key = lastValue key block) ∧
    ∀ f₁ f₂, (f₁ = [] ∨ ∃ line ∈ f₁.getLast?, endsBlock line = true) →
      ∃ s₁ s₂, readLines f₁ = some s₁ ∧ readLines f₂ = some s₂ ∧
        readLines (f₁ ++ f₂) = some (s₁ ++ s₂) := by
  refine ⟨fun lines => ⟨_, Segments.segmentation endsBlock lines⟩, ?_, get?_record, ?_⟩
  · intro lines blocks h
    rw [readLines_eq, Segments.eq_of_segmentation h]
  · intro f₁ f₂ h
    refine ⟨_, _, readLines_eq f₁, readLines_eq f₂, ?_⟩
    rw [readLines_eq, Segments.append h, List.map_append]

end Laws

end VSwarm.Analysis
