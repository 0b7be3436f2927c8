import Mathlib.Data.List.Infix

/-! Text as lists of characters: lines, and the substring test.  A line keeps
its terminator, so that a file is the concatenation of its lines and a missing
final newline stays visible. -/

namespace VSwarm.Lib.Text

def lines : List Char → List (List Char)
  | [] => []
  | c :: cs =>
    if c = '\n' then ['\n'] :: lines cs
    else
      match lines cs with
      | [] => [[c]]
      | l :: ls => (c :: l) :: ls

def unlines (ls : List (List Char)) : List Char := ls.flatMap (· ++ ['\n'])

/-- `p in s`, for Python strings and for `grep` with a pattern free of operators. -/
def contains (p s : List Char) : Bool := decide (p <:+: s)

/-- Python's text mode: a carriage return, with or without a newline after it,
reads as a newline. -/
def universalNewlines : List Char → List Char
  | [] => []
  | '\r' :: '\n' :: cs => '\n' :: universalNewlines cs
  | c :: cs => (if c = '\r' then '\n' else c) :: universalNewlines cs

/-- The text behind `n` more characters of an occurrence of `p`, without its
occurrences. -/
def eraseFrom (p : List Char) : Nat → List Char → List Char
  | _, [] => []
  | n + 1, _ :: cs => eraseFrom p n cs
  | 0, c :: cs =>
    if p.isPrefixOf (c :: cs) then eraseFrom p (p.length - 1) cs else c :: eraseFrom p 0 cs

def erase (p s : List Char) : List Char := eraseFrom p 0 s

section Lines

variable {c : Char} {l cs : List Char}

theorem flatten_lines (cs : List Char) : (lines cs).flatten = cs := by
  induction cs with
  | nil => rfl
  | cons c cs ih =>
    rw [lines]
    split
    · simp [*]
    · cases h : lines cs with
      | nil => simp [h] at ih; simp [ih]
      | cons l ls => rw [h] at ih; simpa using ih

theorem lines_append_newline (h : '\n' ∉ l) :
    lines (l ++ '\n' :: cs) = (l ++ ['\n']) :: lines cs := by
  induction l with
  | nil => rfl
  | cons c l ih =>
    have hc : c ≠ '\n' := fun hc => h (hc ▸ List.mem_cons_self)
    rw [List.cons_append, lines, if_neg hc, ih (fun hl => h (List.mem_cons_of_mem c hl))]
    rfl

theorem lines_of_notMem (h : '\n' ∉ l) : lines l = if l = [] then [] else [l] := by
  induction l with
  | nil => rfl
  | cons c l ih =>
    have hc : c ≠ '\n' := fun hc => h (hc ▸ List.mem_cons_self)
    rw [lines, if_neg hc, ih fun hl => h (List.mem_cons_of_mem c hl)]
    cases l <;> simp

theorem newline_notMem_dropLast (h : l ∈ lines cs) : '\n' ∉ l.dropLast := by
  induction cs generalizing l with
  | nil => cases h
  | cons c cs ih =>
    rw [lines] at h
    split at h
    · rcases List.mem_cons.mp h with rfl | h
      · simp
      · exact ih h
    · rename_i hc
      cases hcs : lines cs with
      | nil =>
        rw [hcs] at h
        obtain rfl := List.mem_singleton.mp h
        simp
      | cons l' ls =>
        rw [hcs] at h ih
        rcases List.mem_cons.mp h with rfl | h
        · have htail : '\n' ∉ l'.dropLast := ih List.mem_cons_self
          cases l' with
          | nil => simp
          | cons x l' =>
            rw [List.dropLast_cons_of_ne_nil (List.cons_ne_nil x l'), List.mem_cons]
            exact not_or.mpr ⟨Ne.symm hc, htail⟩
        · exact ih (List.mem_cons_of_mem l' h)

theorem lines_unlines_append {ls : List (List Char)} (h : ∀ l ∈ ls, '\n' ∉ l) :
    lines (unlines ls ++ cs) = ls.map (· ++ ['\n']) ++ lines cs := by
  induction ls with
  | nil => rfl
  | cons l ls ih =>
    have hl := h l List.mem_cons_self
    have hls := fun l' hl' => h l' (List.mem_cons_of_mem l hl')
    rw [unlines, List.flatMap_cons, List.append_assoc, List.append_assoc, List.singleton_append,
      lines_append_newline hl, ← unlines, ih hls]
    rfl

theorem lines_unlines {ls : List (List Char)} (h : ∀ l ∈ ls, '\n' ∉ l) :
    lines (unlines ls) = ls.map (· ++ ['\n']) := by
  have hall := @lines_unlines_append [] ls h
  rwa [List.append_nil, lines, List.append_nil] at hall

theorem universalNewlines_of_notMem (h : '\r' ∉ cs) : universalNewlines cs = cs := by
  fun_induction universalNewlines cs with
  | case1 => rfl
  | case2 cs ih => exact absurd List.mem_cons_self h
  | case3 c cs hcs ih =>
    obtain ⟨hc, htail⟩ := not_or.mp (List.mem_cons.not.mp h)
    rw [if_neg (Ne.symm hc), ih htail]

end Lines

section Infix

variable {p a b : List Char} {x : Char}

theorem not_infix_of_notMem (hp : x ∈ p) (ha : x ∉ a) : ¬ p <:+: a :=
  fun h => ha (h.subset hp)

theorem infix_append_cons (hp : x ∉ p) : p <:+: a ++ x :: b ↔ p <:+: a ∨ p <:+: b := by
  have hx : ∀ q, q <:+ p → q <+: x :: b → q = [] := by
    intro q hq hpre
    cases q with
    | nil => rfl
    | cons y q =>
      obtain ⟨rfl, -⟩ := List.cons_prefix_cons.mp hpre
      exact absurd (hq.subset List.mem_cons_self) hp
  constructor
  · intro h
    rcases List.infix_append_iff.mp h with h | h | ⟨l, r, rfl, hl, hr⟩
    · exact Or.inl h
    · rcases List.infix_cons_iff.mp h with h | h
      · exact Or.inl (by simp [hx p List.suffix_rfl h])
      · exact Or.inr h
    · obtain rfl := hx r (List.suffix_append l r) hr
      exact Or.inl (by simpa using hl.isInfix)
  · rintro (h | h)
    · exact List.infix_append_of_infix_left h
    · exact List.infix_append_of_infix_right (List.infix_cons h)

theorem infix_cons_of_notMem (hp : p ≠ []) (hx : x ∉ p) : p <:+: x :: b ↔ p <:+: b := by
  simpa [hp] using @infix_append_cons p [] b x hx

theorem infix_append_of_head (hx : x ∉ a) : x :: p <:+: a ++ b ↔ x :: p <:+: b := by
  constructor
  · intro h
    rcases List.infix_append_iff.mp h with h | h | ⟨l, r, hlr, hl, hr⟩
    · exact absurd (h.subset List.mem_cons_self) hx
    · exact h
    · cases l with
      | nil =>
        obtain rfl : x :: p = r := hlr
        exact hr.isInfix
      | cons y l =>
        obtain ⟨rfl, -⟩ := List.cons.inj hlr
        exact absurd (hl.subset List.mem_cons_self) hx
  · exact List.infix_append_of_infix_right

theorem infix_unlines {ls : List (List Char)} (hp : p ≠ []) (hn : '\n' ∉ p) :
    p <:+: unlines ls ↔ ∃ l ∈ ls, p <:+: l := by
  induction ls with
  | nil => simp [unlines, hp]
  | cons l ls ih =>
    rw [unlines, List.flatMap_cons, List.append_assoc, List.singleton_append,
      infix_append_cons hn, ← unlines, ih]
    simp

theorem prefix_head_lines (hn : '\n' ∉ p) (h : p <+: a) :
    p = [] ∨ ∃ l ls, lines a = l :: ls ∧ p <+: l := by
  induction a generalizing p with
  | nil => exact Or.inl (List.prefix_nil.mp h)
  | cons c a ih =>
    cases p with
    | nil => exact Or.inl rfl
    | cons y p =>
      obtain ⟨rfl, hpa⟩ := List.cons_prefix_cons.mp h
      have hy : y ≠ '\n' := fun hy => hn (hy ▸ List.mem_cons_self)
      rw [lines, if_neg hy]
      rcases ih (fun hm => hn (List.mem_cons_of_mem y hm)) hpa with rfl | ⟨l, ls, hl, hpl⟩
      · cases lines a with
        | nil => exact Or.inr ⟨[y], [], rfl, by simp⟩
        | cons l ls => exact Or.inr ⟨y :: l, ls, rfl, by simp⟩
      · rw [hl]
        exact Or.inr ⟨y :: l, ls, rfl, List.cons_prefix_cons.mpr ⟨rfl, hpl⟩⟩

theorem infix_lines (hp : p ≠ []) (hn : '\n' ∉ p) :
    (∃ l ∈ lines a, p <:+: l) ↔ p <:+: a := by
  constructor
  · rintro ⟨l, hl, hpl⟩
    have := List.infix_of_mem_flatten hl
    rw [flatten_lines] at this
    exact hpl.trans this
  · intro h
    induction a with
    | nil => exact absurd (List.infix_nil.mp h) hp
    | cons c a ih =>
      rcases List.infix_cons_iff.mp h with h | h
      · obtain rfl | ⟨l, ls, hl, hpl⟩ := prefix_head_lines hn h
        · exact absurd rfl hp
        · exact ⟨l, by simp [hl], hpl.isInfix⟩
      · obtain ⟨l, hl, hpl⟩ := ih h
        rw [lines]
        split
        · exact ⟨l, List.mem_cons_of_mem _ hl, hpl⟩
        · cases hls : lines a with
          | nil => simp [hls] at hl
          | cons d ds =>
            rw [hls] at hl
            rcases List.mem_cons.mp hl with rfl | hl
            · exact ⟨c :: l, List.mem_cons_self, List.infix_cons hpl⟩
            · exact ⟨l, List.mem_cons_of_mem _ hl, hpl⟩

theorem prefix_universalNewlines (hr : '\r' ∉ p) (hn : '\n' ∉ p) :
    p <+: universalNewlines a ↔ p <+: a := by
  fun_induction universalNewlines a generalizing p with
  | case1 => rfl
  | case2 cs ih =>
    cases p with
    | nil => simp
    | cons y q =>
      simp only [List.mem_cons, not_or] at hr hn
      simp [Ne.symm hr.1, Ne.symm hn.1]
  | case3 c cs hcs ih =>
    cases p with
    | nil => simp
    | cons y q =>
      simp only [List.mem_cons, not_or] at hr hn
      rw [List.cons_prefix_cons, List.cons_prefix_cons, ih hr.2 hn.2]
      by_cases hc : c = '\r'
      · simp [hc, Ne.symm hr.1, Ne.symm hn.1]
      · simp [hc]

theorem infix_universalNewlines (hp : p ≠ []) (hr : '\r' ∉ p) (hn : '\n' ∉ p) :
    p <:+: universalNewlines a ↔ p <:+: a := by
  fun_induction universalNewlines a with
  | case1 => rfl
  | case2 cs ih =>
    rw [infix_cons_of_notMem hp hn, infix_cons_of_notMem hp hr, infix_cons_of_notMem hp hn, ih]
  | case3 c cs hcs ih =>
    have hpre := @prefix_universalNewlines p (c :: cs) hr hn
    rw [universalNewlines.eq_3 c cs hcs] at hpre
    rw [List.infix_cons_iff, List.infix_cons_iff, ih, hpre]

/-- An escape that stays clear of the pattern: a character stands for itself, or it
is not in the pattern and its replacement begins with one that is not, after which
the pattern cannot begin. -/
structure Escape (p : List Char) (esc : Char → List Char) : Prop where
  clear : ∀ c, esc c = [c] ∨
    c ∉ p ∧ ∃ d ds, esc c = d :: ds ∧ d ∉ p ∧ ∀ x ∈ ds, p.head? ≠ some x

theorem Escape.prefix_flatMap {esc : Char → List Char} (h : Escape p esc) {q : List Char}
    (hq : q ⊆ p) : q <+: a.flatMap esc ↔ q <+: a := by
  induction a generalizing q with
  | nil => rfl
  | cons c a ih =>
    cases q with
    | nil => simp
    | cons y q =>
      have hy := hq List.mem_cons_self
      rw [List.flatMap_cons, List.cons_prefix_cons]
      rcases h.clear c with hc | ⟨hc, d, ds, hesc, hd, -⟩
      · rw [hc, List.singleton_append, List.cons_prefix_cons,
          ih fun x hx => hq (List.mem_cons_of_mem y hx)]
      · rw [hesc, List.cons_append, List.cons_prefix_cons]
        constructor
        · rintro ⟨rfl, -⟩
          exact absurd hy hd
        · rintro ⟨rfl, -⟩
          exact absurd hy hc

theorem Escape.infix_flatMap {esc : Char → List Char} (h : Escape p esc) (hp : p ≠ []) :
    p <:+: a.flatMap esc ↔ p <:+: a := by
  induction a with
  | nil => rfl
  | cons c a ih =>
    rcases h.clear c with hc | ⟨hc, d, ds, hesc, hd, hds⟩
    · have hpre := @Escape.prefix_flatMap p (c :: a) esc h p (List.Subset.refl p)
      rw [List.flatMap_cons, hc, List.singleton_append] at hpre ⊢
      rw [List.infix_cons_iff, List.infix_cons_iff, hpre, ih]
    · have hreplaced : p <:+: ds ++ a.flatMap esc ↔ p <:+: a.flatMap esc := by
        obtain ⟨x, q, rfl⟩ := List.exists_cons_of_ne_nil hp
        exact infix_append_of_head fun hx => hds x hx rfl
      rw [List.flatMap_cons, hesc, List.cons_append, infix_cons_of_notMem hp hd, hreplaced, ih,
        infix_cons_of_notMem hp hc]

end Infix

section Erase

variable {p base : List Char} {c : Char}

theorem eraseFrom_length (p cs : List Char) : eraseFrom p cs.length cs = [] := by
  induction cs with
  | nil => rfl
  | cons c cs ih => exact ih

theorem erase_append_self (h : c ∉ base) : erase (c :: p) (base ++ c :: p) = base := by
  induction base with
  | nil =>
    have hpre : (c :: p).isPrefixOf (c :: p) = true :=
      List.isPrefixOf_iff_prefix.mpr List.prefix_rfl
    rw [List.nil_append, erase, eraseFrom, if_pos hpre]
    exact eraseFrom_length (c :: p) p
  | cons d base ih =>
    rw [List.mem_cons, not_or] at h
    have hpre : ¬(c :: p).isPrefixOf (d :: (base ++ c :: p)) = true := by
      rw [List.isPrefixOf_iff_prefix, List.cons_prefix_cons]
      exact fun hc => h.1 hc.1
    rw [List.cons_append, erase, eraseFrom, if_neg hpre, ← erase, ih h.2]

end Erase

section Numbers

variable {c : Char}

theorem notMem_toString_nat (hdigit : c.isDigit = false) (n : Nat) : c ∉ (toString n).toList := by
  intro h
  have hc : c ∈ Nat.toDigits 10 n := by simpa using h
  rw [Nat.isDigit_of_mem_toDigits (Nat.succ_pos 9) (Nat.le_refl 10) hc] at hdigit
  cases hdigit

theorem notMem_toString_int (hdigit : c.isDigit = false) (hsign : c ≠ '-') (n : Int) :
    c ∉ (toString n).toList := by
  cases n with
  | ofNat n => exact notMem_toString_nat hdigit n
  | negSucc n =>
    have hneg : toString (Int.negSucc n) = "-" ++ toString (n + 1) := rfl
    rw [hneg, String.toList_append, List.mem_append, not_or]
    exact ⟨by simpa using hsign, notMem_toString_nat hdigit (n + 1)⟩

theorem toString_nat_injective : Function.Injective (toString : Nat → String) := by
  intro m n h
  have hdigits : Nat.toDigits 10 m = Nat.toDigits 10 n := by
    simpa using congrArg String.toList h
  have hvalue := congrArg (Nat.ofDigitChars 10 · 0) hdigits
  simpa using hvalue

end Numbers

end VSwarm.Lib.Text
