import Mathlib.Data.List.Nodup

namespace VSwarm.Lib.Wiring

variable {α β γ : Type} [DecidableEq α]

/-- One more link; a port that is not a vector can be linked only once. -/
def connect [DecidableEq β] (scalar : α → Bool) (scalar' : β → Bool) (links : List (α × β))
    (link : α × β) : Option (List (α × β)) :=
  if (scalar link.1 ∧ link.1 ∈ links.map Prod.fst) ∨
      (scalar' link.2 ∧ link.2 ∈ links.map Prod.snd) then none
  else some (links ++ [link])

def target (links : List (α × β)) (a : α) : Option β :=
  (links.find? fun link => link.1 = a).map Prod.snd

/-- The responders that a request passes, as long as they pass it on. -/
def trail (links : List (α × β)) (through : β → Option α) : ℕ → α → List β
  | 0, _ => []
  | fuel + 1, a =>
    match target links a with
    | none => []
    | some b =>
      b :: match through b with
        | none => []
        | some a' => trail links through fuel a'

section Connect

variable {scalar : α → Bool} {scalar' : β → Bool} {links done : List (α × β)}

theorem foldlM_connect [DecidableEq β] (hα : (((done ++ links).map Prod.fst).filter scalar).Nodup)
    (hβ : (((done ++ links).map Prod.snd).filter scalar').Nodup) :
    links.foldlM (connect scalar scalar') done = some (done ++ links) := by
  induction links generalizing done with
  | nil => rw [List.append_nil]; rfl
  | cons link links ih =>
    have hnew : ¬((scalar link.1 ∧ link.1 ∈ done.map Prod.fst) ∨
        (scalar' link.2 ∧ link.2 ∈ done.map Prod.snd)) := by
      rintro (⟨hscalar, hmem⟩ | ⟨hscalar, hmem⟩)
      · rw [List.map_append, List.filter_append, List.map_cons, List.filter_cons_of_pos hscalar]
          at hα
        exact List.disjoint_of_nodup_append hα (List.mem_filter.mpr ⟨hmem, hscalar⟩)
          List.mem_cons_self
      · rw [List.map_append, List.filter_append, List.map_cons, List.filter_cons_of_pos hscalar]
          at hβ
        exact List.disjoint_of_nodup_append hβ (List.mem_filter.mpr ⟨hmem, hscalar⟩)
          List.mem_cons_self
    have hassoc : done ++ link :: links = (done ++ [link]) ++ links := by simp
    rw [hassoc] at hα hβ ⊢
    rw [List.foldlM_cons, connect, if_neg hnew]
    exact ih hα hβ

theorem target_of_mem {single : α → Bool} {a : α} {b : β}
    (h : ((links.map Prod.fst).filter single).Nodup) (hsingle : single a = true)
    (hmem : (a, b) ∈ links) : target links a = some b := by
  induction links with
  | nil => cases hmem
  | cons link links ih =>
    rw [List.map_cons] at h
    by_cases hfirst : link.1 = a
    · have hb : link = (a, b) := by
        rcases List.mem_cons.mp hmem with heq | hmem
        · exact heq.symm
        · rw [hfirst, List.filter_cons_of_pos hsingle] at h
          have ha : a ∈ (links.map Prod.fst).filter single :=
            List.mem_filter.mpr ⟨List.mem_map.mpr ⟨(a, b), hmem, rfl⟩, hsingle⟩
          exact absurd ha (List.nodup_cons.mp h).1
      rw [target, List.find?_cons_of_pos (by simpa using hfirst), hb]
      rfl
    · have hlinks : ((links.map Prod.fst).filter single).Nodup :=
        h.sublist ((List.sublist_cons_self _ _).filter single)
      have hmem' : (a, b) ∈ links := by
        rcases List.mem_cons.mp hmem with heq | hmem
        · exact absurd (congrArg Prod.fst heq.symm) hfirst
        · exact hmem
      rw [target, List.find?_cons_of_neg (by simpa using hfirst)]
      exact ih hlinks hmem'

theorem trail_cons {through : β → Option α} {a : α} {b : β} (h : target links a = some b)
    (fuel : ℕ) : trail links through (fuel + 1) a =
      b :: match through b with
        | none => []
        | some a' => trail links through fuel a' := by
  rw [trail, h]

end Connect

section Blocks

variable {owner : γ → Option ℕ} {f : ℕ → List γ}

theorem nodup_flatMap_range (hf : ∀ i, (f i).Nodup) (howner : ∀ i, ∀ x ∈ f i, owner x = some i)
    (n : ℕ) : ((List.range n).flatMap f).Nodup := by
  rw [List.nodup_flatMap]
  refine ⟨fun i _ => hf i, ?_⟩
  apply List.nodup_range.imp
  intro i j hij x hi hj
  have hsame : some i = some j := (howner i x hi).symm.trans (howner j x hj)
  exact hij (Option.some.inj hsame)

theorem nodup_append_flatMap_range {fixed : List γ} (hfixed : fixed.Nodup)
    (hf : ∀ i, (f i).Nodup) (hnone : ∀ x ∈ fixed, owner x = none)
    (howner : ∀ i, ∀ x ∈ f i, owner x = some i) (n : ℕ) :
    (fixed ++ (List.range n).flatMap f).Nodup := by
  refine hfixed.append (nodup_flatMap_range hf howner n) ?_
  intro x hx hx'
  obtain ⟨i, -, hi⟩ := List.mem_flatMap.mp hx'
  have hclash := (hnone x hx).symm.trans (howner i x hi)
  cases hclash

theorem nodup_ports {δ : Type} (g : δ → γ) (s : γ → Bool) {fixed : List δ} {block : ℕ → List δ}
    (hfixed : ((fixed.map g).filter s).Nodup) (hblock : ∀ i, (((block i).map g).filter s).Nodup)
    (hnone : ∀ x ∈ (fixed.map g).filter s, owner x = none)
    (howner : ∀ i, ∀ x ∈ ((block i).map g).filter s, owner x = some i) {links : List δ} {n : ℕ}
    (hlinks : links.Perm (fixed ++ (List.range n).flatMap block)) :
    ((links.map g).filter s).Nodup := by
  rw [((hlinks.map g).filter s).nodup_iff, List.map_append, List.filter_append, List.map_flatMap,
    List.filter_flatMap]
  exact nodup_append_flatMap_range hfixed hblock hnone howner n

end Blocks

end VSwarm.Lib.Wiring
