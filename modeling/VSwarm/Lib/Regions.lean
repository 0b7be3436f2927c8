import Mathlib

namespace VSwarm.Lib

structure Region (α : Type) where
  start : α
  stop : α

namespace Region

variable {α : Type} [LinearOrder α]

def addresses (r : Region α) : Set α := Set.Ico r.start r.stop

def covered (l : List (Region α)) : Set α := ⋃ r ∈ l, r.addresses

def Ascending (l : List (Region α)) : Prop := l.Pairwise fun r s => r.stop ≤ s.start

inductive Tiles : α → α → List (Region α) → Prop
  | nil {a : α} : Tiles a a []
  | cons {lo mid hi : α} {l : List (Region α)} : lo ≤ mid → Tiles mid hi l →
      Tiles lo hi (⟨lo, mid⟩ :: l)

section Laws

variable {l l' : List (Region α)} {lo hi : α}

@[simp] theorem covered_nil : covered ([] : List (Region α)) = ∅ := by simp [covered]

@[simp] theorem covered_cons (r : Region α) (l : List (Region α)) :
    covered (r :: l) = r.addresses ∪ covered l := by
  simp [covered, Set.iUnion_or, Set.iUnion_union_distrib]

theorem covered_append (l l' : List (Region α)) : covered (l ++ l') = covered l ∪ covered l' := by
  induction l with
  | nil => simp
  | cons r l ih => rw [List.cons_append, covered_cons, covered_cons, ih, Set.union_assoc]

theorem Ascending.disjoint (h : Ascending l) :
    l.Pairwise fun r s => Disjoint r.addresses s.addresses := by
  apply h.imp
  intro r s hle
  rw [addresses, addresses, Set.Ico_disjoint_Ico]
  exact (min_le_left _ _).trans (hle.trans (le_max_right _ _))

theorem Ascending.starts (h : Ascending l) (hle : ∀ r ∈ l, r.start ≤ r.stop) :
    l.Pairwise fun r s => r.start ≤ s.start := by
  apply h.imp_of_mem
  intro r s hr _ hrs
  exact (hle r hr).trans hrs

theorem Tiles.le (h : Tiles lo hi l) : lo ≤ hi := by
  induction h with
  | nil => exact le_rfl
  | cons hle _ ih => exact hle.trans ih

theorem Tiles.covered (h : Tiles lo hi l) : covered l = Set.Ico lo hi := by
  induction h with
  | nil => simp
  | cons hle htiles ih =>
    rw [covered_cons, ih]
    exact Set.Ico_union_Ico_eq_Ico hle htiles.le

theorem Tiles.start_le_stop (h : Tiles lo hi l) : ∀ r ∈ l, r.start ≤ r.stop := by
  induction h with
  | nil => simp
  | cons hle _ ih => exact List.forall_mem_cons.mpr ⟨hle, ih⟩

theorem Tiles.bounds (h : Tiles lo hi l) : ∀ r ∈ l, lo ≤ r.start ∧ r.stop ≤ hi := by
  induction h with
  | nil => simp
  | cons hle htiles ih =>
    intro r hr
    rcases List.mem_cons.mp hr with rfl | hr
    · exact ⟨le_rfl, htiles.le⟩
    · exact ⟨hle.trans (ih r hr).1, (ih r hr).2⟩

theorem Tiles.ascending (h : Tiles lo hi l) : Ascending l := by
  induction h with
  | nil => exact .nil
  | cons _ htiles ih => exact .cons (fun s hs => (htiles.bounds s hs).1) ih

theorem Tiles.ascending_append {lo' hi' : α} (h : Tiles lo hi l) (h' : Tiles lo' hi' l')
    (hle : hi ≤ lo') : Ascending (l ++ l') := by
  apply List.pairwise_append.mpr ⟨h.ascending, h'.ascending, ?_⟩
  intro r hr s hs
  exact (h.bounds r hr).2.trans (hle.trans (h'.bounds s hs).1)

end Laws

end Region

end VSwarm.Lib
