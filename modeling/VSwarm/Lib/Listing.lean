import Mathlib.Data.List.Perm.Basic

namespace VSwarm.Lib.Listing

abbrev FileName := List Char

def sort (names : List FileName) : List FileName := names.mergeSort fun a b => !decide (b < a)

/-- The names that the pattern `p*` expands to; hidden names have to be asked for. -/
def glob (p : List Char) (names : List FileName) : List FileName :=
  sort (names.filter fun name => p.isPrefixOf name && (p ≠ [] || name.head? ≠ some '.'))

section Order

variable {names listed : List FileName}

theorem sort_perm (names : List FileName) : (sort names).Perm names := List.mergeSort_perm ..

theorem pairwise_sort (names : List FileName) : (sort names).Pairwise fun a b => ¬b < a := by
  have hsorted := @List.pairwise_mergeSort FileName (fun a b => !decide (b < a))
    (fun a b c hab hbc => ?_) (fun a b => ?_) names
  · exact hsorted.imp fun h => by simpa using h
  · simp only [Bool.not_eq_true', decide_eq_false_iff_not] at hab hbc ⊢
    exact List.le_trans (α := Char) hab hbc
  · simp only [Bool.or_eq_true, Bool.not_eq_true', decide_eq_false_iff_not]
    exact List.le_total (α := Char) a b

theorem sort_of_perm (h : listed.Perm names) (hsorted : names.Pairwise (· < ·)) :
    sort listed = names := by
  refine List.Perm.eq_of_pairwise (fun a b _ _ => List.le_antisymm (α := Char))
    (pairwise_sort listed) (hsorted.imp List.lt_asymm) ((sort_perm listed).trans h)

theorem sort_filter (p : FileName → Bool) (names : List FileName) :
    sort (names.filter p) = (sort names).filter p := by
  refine List.Perm.eq_of_pairwise (fun a b _ _ => List.le_antisymm (α := Char))
    (pairwise_sort _) ((pairwise_sort names).filter p) ?_
  exact (sort_perm _).trans ((sort_perm names).symm.filter p)

end Order

section Concatenation

variable {κ β : Type} [DecidableEq κ] {l l' : List κ}

theorem flatMap_inj {x y : β} (hne : x ≠ y) :
    (∀ content : κ → List β, l.flatMap content = l'.flatMap content) ↔ l = l' := by
  refine ⟨fun h => ?_, fun h _ => h ▸ rfl⟩
  induction l generalizing l' with
  | nil =>
    cases l' with
    | nil => rfl
    | cons b l' =>
      have hb := h fun _ => [x]
      simp at hb
  | cons a l ih =>
    cases l' with
    | nil =>
      have ha := h fun _ => [x]
      simp at ha
    | cons b l' =>
      have hab : a = b := by
        by_contra hab
        have hhead := h fun k => if k = a then [x] else [y]
        simp [Ne.symm hab, hne] at hhead
      subst hab
      refine congrArg _ (ih fun content => ?_)
      simpa using h content

end Concatenation

end VSwarm.Lib.Listing
