import VSwarm.Lib.Text

namespace VSwarm.Lib.Shell

def isSpace (c : Char) : Bool := c ∈ [' ', '\t', '\n', '\x0b', '\x0c', '\r']

def isIfs (c : Char) : Bool := c ∈ [' ', '\t', '\n']

/-- `sed '/^\s*#/d;/^\s*$/d'`. -/
def sedComments (text : List Char) : List Char :=
  ((Text.lines text).filter fun l =>
    (l.dropWhile isSpace).head? ≠ some '#' ∧ l.dropWhile isSpace ≠ []).flatten

def isListed (l : List Char) : Bool :=
  (l.dropWhile isSpace).head? ≠ some '#' ∧ l.dropWhile isSpace ≠ []

def wcLines (text : List Char) : Nat := text.count '\n'

def grepCount (p text : List Char) : Nat := (Text.lines text).countP (Text.contains p)

/-- The words of an unquoted expansion, before pathname expansion.  The newlines
that a command substitution strips from the end separate no words. -/
def words (text : List Char) : List (List Char) := (text.splitOnP isIfs).filter (· ≠ [])

def isGlob (c : Char) : Bool := c ∈ ['*', '?', '[', '\\']

/-- A word that stands for itself in a list file: it is not a comment, and
neither word splitting nor pathname expansion changes it. -/
structure Name where
  text : List Char
  nonempty : text ≠ []
  comment : text.head? ≠ some '#'
  space : text.all (!isSpace ·) = true
  glob : text.all (!isGlob ·) = true

def listFile (names : List Name) : List Char := Text.unlines (names.map Name.text)

structure Output (p : List Char) where
  lines : List (List Char)
  whole : ∀ l ∈ lines, '\n' ∉ l
  other : ∀ l ∈ lines, ¬p <:+: l

def Output.none (p : List Char) : Output p := ⟨[], by simp, by simp⟩

section Laws

variable {p : List Char} {ls : List (List Char)}

theorem Name.isSpace_eq_false (n : Name) {c : Char} (h : c ∈ n.text) : isSpace c = false := by
  simpa using List.all_eq_true.mp n.space c h

theorem Name.notMem_newline (n : Name) : '\n' ∉ n.text := by
  intro h
  have hspace := n.isSpace_eq_false h
  contradiction

theorem wcLines_unlines (h : ∀ l ∈ ls, '\n' ∉ l) : wcLines (Text.unlines ls) = ls.length := by
  induction ls with
  | nil => rfl
  | cons l ls ih =>
    have hl := List.count_eq_zero_of_not_mem (h l List.mem_cons_self)
    have hls := ih fun l' hl' => h l' (List.mem_cons_of_mem l hl')
    unfold wcLines Text.unlines at hls ⊢
    rw [List.flatMap_cons, List.count_append, List.count_append, hl, hls]
    simp [Nat.add_comm]

theorem grepCount_unlines (hp : p ≠ []) (hn : '\n' ∉ p) (h : ∀ l ∈ ls, '\n' ∉ l) :
    grepCount p (Text.unlines ls) = ls.countP (Text.contains p) := by
  rw [grepCount, Text.lines_unlines h, List.countP_map]
  congr 1
  funext l
  have hend : p <:+: l ++ ['\n'] ↔ p <:+: l := by
    rw [Text.infix_append_cons hn]
    simp [hp]
  simp [Text.contains, hend]

theorem Output.countP_lines (o : Output p) : o.lines.countP (Text.contains p) = 0 := by
  rw [List.countP_eq_zero]
  intro l hl
  exact mt of_decide_eq_true (o.other l hl)

theorem sedComments_unlines_append (h : ∀ l ∈ ls, '\n' ∉ l) (cs : List Char) :
    sedComments (Text.unlines ls ++ cs) =
      Text.unlines (ls.filter fun l => isListed (l ++ ['\n'])) ++ sedComments cs := by
  have hsed : ∀ text, sedComments text = ((Text.lines text).filter isListed).flatten :=
    fun _ => rfl
  rw [hsed, hsed, Text.lines_unlines_append h, List.filter_append, List.flatten_append,
    List.filter_map, Text.unlines, List.flatMap]
  rfl

theorem sedComments_of_notMem {l : List Char} (h : '\n' ∉ l) :
    sedComments l = if isListed l then l else [] := by
  have hsed : sedComments l = ((Text.lines l).filter isListed).flatten := rfl
  rw [hsed, Text.lines_of_notMem h]
  cases l with
  | nil => rfl
  | cons c l => cases hl : isListed (c :: l) <;> simp [hl]

theorem wcLines_listFile (names : List Name) : wcLines (listFile names) = names.length := by
  rw [listFile, wcLines_unlines (by simpa using fun n _ => Name.notMem_newline n), List.length_map]

theorem sedComments_listFile (names : List Name) :
    sedComments (listFile names) = listFile names := by
  have hwhole : ∀ l ∈ names.map Name.text, '\n' ∉ l := by
    simpa using fun n _ => Name.notMem_newline n
  have hsed := sedComments_unlines_append hwhole []
  rw [List.append_nil, List.filter_eq_self.mpr] at hsed
  · exact hsed.trans (List.append_nil _)
  · intro l hl
    obtain ⟨n, -, rfl⟩ := List.mem_map.mp hl
    obtain ⟨c, cs, hc⟩ := List.exists_cons_of_ne_nil n.nonempty
    have hspace := n.isSpace_eq_false (c := c) (by simp [hc])
    have hcomment := n.comment
    rw [hc] at hcomment ⊢
    simpa [isListed, hspace] using hcomment

theorem words_append_cons {c : Char} (hc : isIfs c = true) (a b : List Char) :
    words (a ++ c :: b) = words a ++ words b := by
  rw [words, List.splitOnP_append_cons a b hc, List.filter_append]
  rfl

theorem words_cons {c : Char} (hc : isIfs c = true) (b : List Char) : words (c :: b) = words b :=
  words_append_cons hc [] b

theorem words_unlines_append (ls : List (List Char)) (cs : List Char) :
    words (Text.unlines ls ++ cs) = ls.flatMap words ++ words cs := by
  induction ls with
  | nil => rfl
  | cons l ls ih =>
    rw [Text.unlines, List.flatMap_cons, List.append_assoc, List.append_assoc,
      List.singleton_append, words_append_cons (by decide), ← Text.unlines, ih, List.flatMap_cons,
      List.append_assoc]

theorem words_blanks_append {blanks : List Char} (h : ∀ c ∈ blanks, isIfs c = true)
    (b : List Char) : words (blanks ++ b) = words b := by
  induction blanks with
  | nil => rfl
  | cons c blanks ih =>
    obtain ⟨hc, hblanks⟩ := List.forall_mem_cons.mp h
    rw [List.cons_append, words_cons hc, ih hblanks]

theorem words_append_blanks {blanks : List Char} (h : ∀ c ∈ blanks, isIfs c = true)
    (a : List Char) : words (a ++ blanks) = words a := by
  cases blanks with
  | nil => rw [List.append_nil]
  | cons c blanks =>
    obtain ⟨hc, hblanks⟩ := List.forall_mem_cons.mp h
    have hnone := words_blanks_append hblanks []
    rw [List.append_nil] at hnone
    rw [words_append_cons hc, hnone]
    exact List.append_nil _

theorem Name.words_text (n : Name) : words n.text = [n.text] := by
  have hifs : ∀ c ∈ n.text, isIfs c = false := by
    intro c hc
    have hspace := n.isSpace_eq_false hc
    simp only [isSpace, isIfs, List.mem_cons, decide_eq_false_iff_not, not_or] at hspace ⊢
    simp [hspace]
  rw [words, List.splitOnP_eq_singleton hifs]
  simp [n.nonempty]

theorem words_listFile (names : List Name) : words (listFile names) = names.map Name.text := by
  have hwords := words_unlines_append (names.map Name.text) []
  rw [List.append_nil, List.flatMap_map] at hwords
  simp only [Name.words_text] at hwords
  rw [listFile, hwords, List.map_eq_flatMap]
  exact List.append_nil _

end Laws

end VSwarm.Lib.Shell
