import Mathlib.Data.List.TakeWhile
import VSwarm.Lib.Shell

namespace VSwarm.Install

open VSwarm.Lib

/-- `cat $(FUNCTIONS_LIST) | sed '/^\s*#/d;/^\s*$$/d' | wc -l`. -/
def fnInst (functionsList : List Char) : Nat := Shell.wcLines (Shell.sedComments functionsList)

/-- The iterations of `for f in $FUNCTIONS`. -/
def functions (functionsList : List Char) : List (List Char) :=
  Shell.words (Shell.sedComments functionsList)

def isPad (c : Char) : Bool := c = ' ' || c = '\t'

inductive ListLine
  | function (before : List Char) (name : Shell.Name) (after : List Char)
      (pad : (before ++ after).all isPad = true)
  | comment (before text : List Char) (space : before.all Shell.isSpace = true)
      (whole : '\n' ∉ before ++ text)
  | blank (spaces : List Char) (space : spaces.all Shell.isSpace = true) (whole : '\n' ∉ spaces)

def ListLine.text : ListLine → List Char
  | .function before name after _ => before ++ (name.text ++ after)
  | .comment before text _ _ => before ++ '#' :: text
  | .blank spaces _ _ => spaces

def ListLine.name? : ListLine → Option Shell.Name
  | .function _ name _ _ => some name
  | _ => none

structure ListFile where
  lines : List ListLine
  last : Option ListLine

def ListFile.text (f : ListFile) : List Char :=
  Text.unlines (f.lines.map ListLine.text) ++ f.last.elim [] ListLine.text

def ListFile.names (f : ListFile) : List (List Char) :=
  ((f.lines ++ f.last.toList).filterMap ListLine.name?).map Shell.Name.text

/-- Both readers see as many functions, and the loop sees their names in order. -/
def ListFile.Agree (f : ListFile) : Prop :=
  fnInst f.text = (functions f.text).length ∧ functions f.text = f.names

section Lines

theorem isSpace_of_isPad {c : Char} (h : isPad c = true) :
    Shell.isSpace c = true ∧ Shell.isIfs c = true ∧ c ≠ '\n' := by
  simp only [isPad, Bool.or_eq_true, decide_eq_true_eq] at h
  rcases h with rfl | rfl <;> decide

theorem ListLine.notMem_newline (l : ListLine) : '\n' ∉ l.text := by
  cases l with
  | function before name after pad =>
    rw [List.all_append, Bool.and_eq_true, List.all_eq_true, List.all_eq_true] at pad
    rw [text, List.mem_append, List.mem_append]
    rintro (h | h | h)
    · exact (isSpace_of_isPad (pad.1 _ h)).2.2 rfl
    · exact name.notMem_newline h
    · exact (isSpace_of_isPad (pad.2 _ h)).2.2 rfl
  | comment before text space whole =>
    rw [List.mem_append, not_or] at whole
    rw [ListLine.text, List.mem_append, List.mem_cons]
    rintro (h | h | h)
    · exact whole.1 h
    · cases h
    · exact whole.2 h
  | blank spaces space whole => exact whole

theorem ListLine.isListed (l : ListLine) {ending : List Char}
    (h : ∀ c ∈ ending, Shell.isSpace c = true) :
    Shell.isListed (l.text ++ ending) = l.name?.isSome := by
  rw [Shell.isListed]
  cases l with
  | function before name after pad =>
    rw [List.all_append, Bool.and_eq_true, List.all_eq_true] at pad
    have hbefore : ∀ c ∈ before, Shell.isSpace c = true :=
      fun c hc => (isSpace_of_isPad (pad.1 c hc)).1
    obtain ⟨c, cs, hc⟩ := List.exists_cons_of_ne_nil name.nonempty
    have hspace := name.isSpace_eq_false (c := c) (by simp [hc])
    have hcomment : c ≠ '#' := by simpa [hc] using name.comment
    rw [text, List.append_assoc, List.dropWhile_append_of_pos hbefore, hc]
    simp [hspace, hcomment, name?]
  | comment before text space whole =>
    have hbefore := List.all_eq_true.mp space
    have hhash : Shell.isSpace '#' = false := by decide
    rw [ListLine.text, List.append_assoc, List.dropWhile_append_of_pos hbefore]
    simp [hhash, name?]
  | blank spaces space whole =>
    have hall : ∀ c ∈ spaces ++ ending, Shell.isSpace c = true := by
      intro c hc
      rcases List.mem_append.mp hc with hc | hc
      · exact List.all_eq_true.mp space c hc
      · exact h c hc
    rw [text, List.dropWhile_eq_nil_iff.mpr hall]
    simp [name?]

theorem ListLine.words_text (l : ListLine) {n : Shell.Name} (h : l.name? = some n) :
    Shell.words l.text = [n.text] := by
  cases l with
  | function before name after pad =>
    obtain rfl := Option.some.inj h
    rw [List.all_append, Bool.and_eq_true, List.all_eq_true, List.all_eq_true] at pad
    rw [text, Shell.words_blanks_append fun c hc => (isSpace_of_isPad (pad.1 c hc)).2.1,
      Shell.words_append_blanks fun c hc => (isSpace_of_isPad (pad.2 c hc)).2.1, name.words_text]
  | comment => cases h
  | blank => cases h

end Lines

section Readers

variable (f : ListFile)

theorem sedComments_text : Shell.sedComments f.text =
    Text.unlines ((f.lines.filter (·.name?.isSome)).map ListLine.text) ++
      (f.last.filter (·.name?.isSome)).elim [] ListLine.text := by
  have hwhole : ∀ t ∈ f.lines.map ListLine.text, '\n' ∉ t := by
    intro t ht
    obtain ⟨l, -, rfl⟩ := List.mem_map.mp ht
    exact l.notMem_newline
  have hlines : f.lines.filter ((fun t => Shell.isListed (t ++ ['\n'])) ∘ ListLine.text) =
      f.lines.filter (·.name?.isSome) :=
    List.filter_congr fun l _ => @ListLine.isListed l ['\n'] (List.forall_mem_singleton.mpr rfl)
  rw [ListFile.text, Shell.sedComments_unlines_append hwhole, List.filter_map, hlines]
  congr 1
  cases f.last with
  | none => rfl
  | some l =>
    have hlast := @ListLine.isListed l [] (by simp)
    rw [List.append_nil] at hlast
    rw [Option.elim_some, Shell.sedComments_of_notMem l.notMem_newline, hlast, Option.filter_some]
    cases l.name?.isSome <;> rfl

theorem fnInst_text : fnInst f.text = (f.lines.filterMap ListLine.name?).length := by
  have hwhole : ∀ t ∈ (f.lines.filter (·.name?.isSome)).map ListLine.text, '\n' ∉ t := by
    intro t ht
    obtain ⟨l, -, rfl⟩ := List.mem_map.mp ht
    exact l.notMem_newline
  have hlast : '\n' ∉ (f.last.filter (·.name?.isSome)).elim [] ListLine.text := by
    cases f.last.filter (·.name?.isSome) with
    | none => simp
    | some l => exact l.notMem_newline
  have hlines := Shell.wcLines_unlines hwhole
  rw [Shell.wcLines] at hlines
  rw [fnInst, sedComments_text, Shell.wcLines, List.count_append, hlines,
    List.count_eq_zero_of_not_mem hlast, List.length_map, List.length_filterMap_eq_countP,
    List.countP_eq_length_filter, Nat.add_zero]

theorem flatMap_words (ls : List ListLine) :
    ((ls.filter (·.name?.isSome)).map ListLine.text).flatMap Shell.words =
      (ls.filterMap ListLine.name?).map Shell.Name.text := by
  induction ls with
  | nil => rfl
  | cons l ls ih =>
    cases h : l.name? with
    | none => rw [List.filter_cons_of_neg (by simp [h]), List.filterMap_cons_none h, ih]
    | some n =>
      rw [List.filter_cons_of_pos (by simp [h]), List.filterMap_cons_some h, List.map_cons,
        List.flatMap_cons, l.words_text h, ih]
      rfl

theorem functions_text : functions f.text = f.names := by
  rw [functions, sedComments_text, Shell.words_unlines_append, flatMap_words, ListFile.names,
    List.filterMap_append, List.map_append]
  congr 1
  cases f.last with
  | none => rfl
  | some l =>
    cases h : l.name? with
    | none => simp [Option.filter_some, h, Shell.words]
    | some n => simp [Option.filter_some, h, l.words_text h]

theorem ListFile.agree_iff : f.Agree ↔ ∀ l ∈ f.last, l.name? = none := by
  rw [ListFile.Agree, fnInst_text, functions_text, ListFile.names, List.filterMap_append]
  cases f.last with
  | none => simp
  | some l => cases h : l.name? <;> simp [h]

def unterminated : ListFile where
  lines := [.comment [] " Functions".toList rfl (by decide)]
  last := some (.function []
    ⟨"fibonacci-nodejs".toList, by decide, by decide, by decide, by decide⟩ [] rfl)

theorem not_agree_unterminated : ¬unterminated.Agree := by
  rw [ListFile.Agree, fnInst_text, functions_text]
  decide

end Readers

end VSwarm.Install
