import VSwarm.Defs.Analysis.ReadStats

namespace VSwarm.Analysis

open VSwarm.Lib

structure Decimal where
  negative : Bool := false
  whole : List Char
  fraction : Option (List Char) := none
  whole_ne : whole ≠ []
  whole_digits : whole.all Char.isDigit = true
  fraction_digits : fraction.all (·.all Char.isDigit) = true

def Decimal.magnitude (d : Decimal) : List Char := d.whole ++ d.fraction.elim [] ('.' :: ·)

inductive Printed
  | decimal (d : Decimal)
  | nan
  | inf

def Printed.text : Printed → Token
  | .decimal d => if d.negative then '-' :: d.magnitude else d.magnitude
  | .nan => "nan".toList
  | .inf => "inf".toList

/-- The values whose text begins with a character that the rule knows. -/
def Printed.readable : Printed → Bool
  | .decimal d => !d.negative
  | .nan => true
  | .inf => false

structure StatLine where
  name : Token
  gap : List Char
  value : Printed
  rest : List Char
  name_ne : name ≠ []
  name_printable : name.all isPrintable = true
  gap_ne : gap ≠ []
  gap_blank : gap.all (fun c => c = ' ' || c = '\t') = true
  rest_blank : rest.head?.all isBlank = true

def StatLine.text (l : StatLine) : List Char := l.name ++ (l.gap ++ (l.value.text ++ l.rest))

inductive Line
  | stat (l : StatLine)
  | begins
  | ends
  | blank

def Line.text : Line → List Char
  | .stat l => l.text
  | .begins => "---------- Begin Simulation Statistics ----------\n".toList
  | .ends => "---------- End Simulation Statistics   ----------\n".toList
  | .blank => ['\n']

def Line.endsBlock (l : Line) : Bool := Analysis.endsBlock l.text

/-- Every statistic is recorded in its block when its line is read, under its
name and with its value, and stays there unless a later line of the block has
the same name. -/
structure Faithful (file : List Line) : Prop where
  recorded : ∀ before l after, file = before ++ .stat l :: after →
    ∃ blocks : List Stats, readLines ((before ++ [.stat l]).map Line.text) = some blocks ∧
      ∃ block ∈ blocks.getLast?, block.get? l.name = some l.value.text
  kept : ∃ blocks : List Stats, readLines (file.map Line.text) = some blocks ∧
    ∀ (k : Nat) part, (segments Line.endsBlock file)[k]? = some part →
      ∀ before l after, part = before ++ .stat l :: after →
        (∀ l', .stat l' ∈ after → l'.name ≠ l.name) →
          ∃ block : Stats, blocks[k]? = some block ∧ block.get? l.name = some l.value.text

section Words

variable {p : Char → Bool} (blanks : List Char) {w rest : List Char}

theorem word_eq_some (hblanks : ∀ c ∈ blanks, isBlank c = true) (hne : w ≠ [])
    (hw : ∀ c ∈ w, p c = true ∧ isBlank c = false) (hrest : ∀ c ∈ rest.head?, p c = false) :
    word p (blanks ++ (w ++ rest)) = some (w, rest) := by
  obtain ⟨c, cs, rfl⟩ := List.exists_cons_of_ne_nil hne
  have hdrop : (blanks ++ ((c :: cs) ++ rest)).dropWhile isBlank = (c :: cs) ++ rest := by
    rw [List.dropWhile_append_of_pos hblanks, List.cons_append, List.dropWhile_cons_of_neg]
    simp [(hw c List.mem_cons_self).2]
  have htake : rest.takeWhile p = [] ∧ rest.dropWhile p = rest := by
    cases rest with
    | nil => exact ⟨rfl, rfl⟩
    | cons d ds => simp [hrest d rfl]
  have hp : ∀ d ∈ c :: cs, p d = true := fun d hd => (hw d hd).1
  simp only [word]
  rw [hdrop, List.takeWhile_append_of_pos hp, List.dropWhile_append_of_pos hp, htake.1, htake.2]
  simp

theorem word_eq_none (hblanks : ∀ c ∈ blanks, isBlank c = true) {c : Char}
    (hc : p c = false ∧ isBlank c = false) : word p (blanks ++ c :: rest) = none := by
  have hdrop : (blanks ++ c :: rest).dropWhile isBlank = c :: rest := by
    rw [List.dropWhile_append_of_pos hblanks, List.dropWhile_cons_of_neg]
    simp [hc.2]
  simp only [word]
  rw [hdrop]
  simp [hc.1]

end Words

section Rule

theorem isBlank_of_gap (l : StatLine) : ∀ c ∈ l.gap, isBlank c = true ∧ isPrintable c = false := by
  intro c hc
  have hblank := List.all_eq_true.mp l.gap_blank c hc
  simp only [Bool.or_eq_true, decide_eq_true_eq] at hblank
  rcases hblank with rfl | rfl <;> decide

theorem isBlank_eq_false {q : Char → Bool} (hq : [' ', '\t', '\n', '\r'].all (!q ·) = true)
    {c : Char} (h : q c = true) : isBlank c = false := by
  by_contra hblank
  have hmem : c ∈ [' ', '\t', '\n', '\r'] := of_decide_eq_true (Bool.of_not_eq_false hblank)
  have hnot := List.all_eq_true.mp hq c hmem
  simp [h] at hnot

theorem isValueChar_text {v : Printed} (h : v.readable = true) :
    v.text ≠ [] ∧ ∀ c ∈ v.text, isValueChar c = true := by
  cases v with
  | nan => exact ⟨by decide, List.all_eq_true.mp (by decide)⟩
  | inf => cases h
  | decimal d =>
    have hsign : d.negative = false := by simpa [Printed.readable] using h
    have hwhole := List.all_eq_true.mp d.whole_digits
    simp only [Printed.text, hsign, Bool.false_eq_true, if_false, Decimal.magnitude]
    refine ⟨by simp [d.whole_ne], fun c hc => ?_⟩
    rcases List.mem_append.mp hc with hc | hc
    · simp [isValueChar, hwhole c hc]
    · cases hf : d.fraction with
      | none => simp [hf] at hc
      | some f =>
        have hdigits : f.all Char.isDigit = true := by simpa [hf] using d.fraction_digits
        rw [hf, Option.elim_some] at hc
        rcases List.mem_cons.mp hc with rfl | hc
        · decide
        · simp [isValueChar, List.all_eq_true.mp hdigits c hc]

theorem exists_head_text {v : Printed} (h : v.readable = false) :
    ∃ c cs, v.text = c :: cs ∧ isValueChar c = false ∧ isBlank c = false := by
  cases v with
  | nan => cases h
  | inf => exact ⟨'i', ['n', 'f'], rfl, by decide, by decide⟩
  | decimal d =>
    have hsign : d.negative = true := by simpa [Printed.readable] using h
    exact ⟨'-', d.magnitude, by simp [Printed.text, hsign], by decide, by decide⟩

theorem word_name (l : StatLine) :
    word isPrintable l.text = some (l.name, l.gap ++ (l.value.text ++ l.rest)) := by
  have hprintable := List.all_eq_true.mp l.name_printable
  obtain ⟨g, gs, hg⟩ := List.exists_cons_of_ne_nil l.gap_ne
  refine word_eq_some [] (by simp) l.name_ne (fun c hc => ?_) ?_
  · exact ⟨hprintable c hc, isBlank_eq_false (by decide) (hprintable c hc)⟩
  · intro c hc
    rw [hg] at hc
    obtain rfl : g = c := by simpa using hc
    exact (isBlank_of_gap l g (by simp [hg])).2

theorem statRule_text (l : StatLine) :
    statRule l.text = if l.value.readable then some (l.name, l.value.text) else none := by
  have hgap : ∀ c ∈ l.gap, isBlank c = true := fun c hc => (isBlank_of_gap l c hc).1
  rw [statRule, word_name]
  cases hr : l.value.readable with
  | true =>
    obtain ⟨hne, hchars⟩ := isValueChar_text hr
    have hrest : ∀ c ∈ l.rest.head?, isValueChar c = false := by
      intro c hc
      have hblank : isBlank c = true := by simpa [Option.mem_def.mp hc] using l.rest_blank
      by_contra hvalue
      rw [isBlank_eq_false (by decide) (Bool.of_not_eq_false hvalue)] at hblank
      cases hblank
    have hvalue : ∀ c ∈ l.value.text, isValueChar c = true ∧ isBlank c = false := by
      intro c hc
      exact ⟨hchars c hc, isBlank_eq_false (by decide) (hchars c hc)⟩
    simp only
    rw [word_eq_some l.gap hgap hne hvalue hrest]
    rfl
  | false =>
    obtain ⟨c, cs, htext, hc⟩ := exists_head_text hr
    simp only [htext, List.cons_append]
    rw [word_eq_none l.gap hgap hc]
    rfl

theorem statRule_eq_some {l : Line} {kv : Token × Token} (h : statRule l.text = some kv) :
    ∃ s, l = .stat s ∧ s.value.readable = true ∧ kv = (s.name, s.value.text) := by
  have hother : statRule Line.begins.text = none ∧ statRule Line.ends.text = none ∧
      statRule Line.blank.text = none := by decide
  obtain ⟨hbegins, hends, hblank⟩ := hother
  cases l with
  | stat s =>
    have hrule : some kv = if s.value.readable then some (s.name, s.value.text) else none :=
      h.symm.trans (statRule_text s)
    cases hr : s.value.readable with
    | true =>
      rw [hr, if_pos rfl] at hrule
      exact ⟨s, rfl, hr, Option.some.inj hrule⟩
    | false =>
      rw [hr] at hrule
      cases hrule
  | begins =>
    rw [hbegins] at h
    cases h
  | ends =>
    rw [hends] at h
    cases h
  | blank =>
    rw [hblank] at h
    cases h

theorem readable_of_text_eq {v w : Printed} (hv : v.readable = true) (h : v.text = w.text) :
    w.readable = true := by
  by_contra hw
  obtain ⟨c, cs, htext, hc, -⟩ := exists_head_text (Bool.of_not_eq_true hw)
  have hall := (isValueChar_text hv).2 c (by rw [h, htext]; exact List.mem_cons_self)
  rw [hc] at hall
  cases hall

end Rule

section Files

variable {part : List Line} {l : StatLine}

theorem lastValue_eq_some {key v : Token} (h : lastValue key (part.map Line.text) = some v) :
    ∃ l, .stat l ∈ part ∧ l.value.readable = true ∧ l.name = key ∧ l.value.text = v := by
  obtain ⟨kv, hlast, rfl⟩ := Option.map_eq_some_iff.mp h
  obtain ⟨hmem, hkey⟩ := List.mem_filter.mp (List.mem_of_getLast? hlast)
  obtain ⟨line, hline, hrule⟩ := List.mem_filterMap.mp hmem
  obtain ⟨l, hl, rfl⟩ := List.mem_map.mp hline
  obtain ⟨s, rfl, hr, hkv⟩ := statRule_eq_some hrule
  refine ⟨s, hl, hr, ?_, by rw [hkv]⟩
  simpa [hkv] using hkey

theorem lastValue_of_last {before after : List Line} (hr : l.value.readable = true)
    (hafter : ∀ l', .stat l' ∈ after → l'.name ≠ l.name) :
    lastValue l.name ((before ++ .stat l :: after).map Line.text) = some l.value.text := by
  have hrule : statRule (Line.stat l).text = some (l.name, l.value.text) :=
    (statRule_text l).trans (if_pos hr)
  have hnone : ((after.map Line.text).filterMap statRule).filter (·.1 = l.name) = [] := by
    rw [List.filter_eq_nil_iff]
    intro kv hkv
    obtain ⟨line, hline, hrule⟩ := List.mem_filterMap.mp hkv
    obtain ⟨l', hl', rfl⟩ := List.mem_map.mp hline
    obtain ⟨s, rfl, -, rfl⟩ := statRule_eq_some hrule
    simpa using hafter s hl'
  rw [lastValue, List.map_append, List.map_cons, List.filterMap_append,
    List.filterMap_cons_some hrule, List.filter_append, List.filter_cons_of_pos (by simp), hnone]
  simp

theorem readLines_map_text (file : List Line) :
    readLines (file.map Line.text) =
      some ((segments Line.endsBlock file).map fun part => record (part.map Line.text)) := by
  rw [readLines_eq, Segments.map, List.map_map]
  rfl

theorem recorded_iff (before : List Line) (l : StatLine) :
    (∃ blocks : List Stats, readLines ((before ++ [Line.stat l]).map Line.text) = some blocks ∧
      ∃ block ∈ blocks.getLast?, block.get? l.name = some l.value.text) ↔
        l.value.readable = true := by
  obtain ⟨part, hpart⟩ := Segments.getLast?_concat Line.endsBlock before (.stat l)
  rw [readLines_map_text]
  constructor
  · rintro ⟨blocks, hblocks, block, hblock, hget⟩
    obtain rfl := Option.some.inj hblocks
    rw [List.getLast?_map, hpart, Option.map_some, Option.mem_some_iff] at hblock
    rw [← hblock, get?_record] at hget
    obtain ⟨s, -, hr, -, htext⟩ := lastValue_eq_some hget
    exact readable_of_text_eq hr htext
  · intro hr
    refine ⟨_, rfl, record ((part ++ [Line.stat l]).map Line.text), ?_, ?_⟩
    · rw [List.getLast?_map, hpart, Option.map_some, Option.mem_some_iff]
    · rw [get?_record]
      exact lastValue_of_last hr (by simp)

/-- What is lost is a value with a sign, and an infinite one. -/
theorem faithful_iff (file : List Line) :
    Faithful file ↔ ∀ l, .stat l ∈ file → l.value.readable = true := by
  constructor
  · intro h l hl
    obtain ⟨before, after, hfile⟩ := List.append_of_mem hl
    exact (recorded_iff before l).mp (h.recorded before l after hfile)
  · intro h
    refine ⟨?_, _, readLines_map_text file, ?_⟩
    · rintro before l after rfl
      exact (recorded_iff before l).mpr (h l (by simp))
    · rintro k part hk before l after rfl hafter
      have hl : .stat l ∈ file := by
        rw [← (Segments.segmentation Line.endsBlock file).flatten]
        exact List.mem_flatten_of_mem (List.mem_of_getElem? hk) (by simp)
      refine ⟨record ((before ++ .stat l :: after).map Line.text), ?_, ?_⟩
      · rw [List.getElem?_map, hk, Option.map_some]
      · rw [get?_record, lastValue_of_last (h l hl) hafter]

def drift : StatLine where
  name := "system.cpu.drift".toList
  gap := [' ', ' ']
  value := .decimal
    { negative := true, whole := ['1'], fraction := some ['5'], whole_ne := by decide,
      whole_digits := by decide, fraction_digits := by decide }
  rest := "  # signed\n".toList
  name_ne := by decide
  name_printable := by decide
  gap_ne := by decide
  gap_blank := by decide
  rest_blank := by decide

theorem not_faithful_drift : ¬Faithful [.stat drift] := by
  intro h
  have hr := (recorded_iff [] drift).mp (h.recorded [] drift [] rfl)
  exact absurd hr (by decide)

end Files

end VSwarm.Analysis
