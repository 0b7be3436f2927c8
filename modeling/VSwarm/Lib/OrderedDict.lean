import Mathlib.Data.List.Nodup

namespace VSwarm.Lib

structure OrderedDict (κ ν : Type) where
  entries : List (κ × ν)
  nodup : (entries.map Prod.fst).Nodup
  deriving DecidableEq

namespace OrderedDict

variable {κ ν : Type} [DecidableEq κ]

def empty : OrderedDict κ ν := ⟨[], List.nodup_nil⟩

def get? (d : OrderedDict κ ν) (k : κ) : Option ν := d.entries.lookup k

theorem map_fst_replace (l : List (κ × ν)) (k : κ) (v : ν) :
    (l.map fun e => if e.1 = k then (k, v) else e).map Prod.fst = l.map Prod.fst := by
  rw [List.map_map]
  apply List.map_congr_left
  intro e _
  by_cases h : e.1 = k <;> simp [h]

/-- Setting a key that is there already keeps its place. -/
def insert (d : OrderedDict κ ν) (k : κ) (v : ν) : OrderedDict κ ν :=
  if h : k ∈ d.entries.map Prod.fst then
    ⟨d.entries.map fun e => if e.1 = k then (k, v) else e, by rw [map_fst_replace]; exact d.nodup⟩
  else
    ⟨d.entries ++ [(k, v)], by
      rw [List.map_append, List.map_singleton, ← List.concat_eq_append]
      exact d.nodup.concat h⟩

theorem lookup_cons_ite (k a : κ) (b : ν) (l : List (κ × ν)) :
    ((a, b) :: l).lookup k = if k = a then some b else l.lookup k := by
  by_cases h : k = a
  · simp [h]
  · rw [if_neg h, List.lookup_cons, beq_false_of_ne h]

theorem lookup_replace_of_ne {k k' : κ} (h : k' ≠ k) (l : List (κ × ν)) (v : ν) :
    (l.map fun e => if e.1 = k then (k, v) else e).lookup k' = l.lookup k' := by
  induction l with
  | nil => rfl
  | cons e l ih =>
    obtain ⟨a, b⟩ := e
    by_cases ha : a = k
    · subst ha
      simp [lookup_cons_ite, h, ih]
    · simp [lookup_cons_ite, ha, ih]

theorem lookup_replace_self {l : List (κ × ν)} {k : κ} (h : k ∈ l.map Prod.fst) (v : ν) :
    (l.map fun e => if e.1 = k then (k, v) else e).lookup k = some v := by
  induction l with
  | nil => cases h
  | cons e l ih =>
    obtain ⟨a, b⟩ := e
    by_cases ha : a = k
    · simp [ha]
    · have hl : k ∈ l.map Prod.fst := by
        rcases List.mem_cons.mp h with hk | hk
        · exact absurd hk.symm ha
        · exact hk
      simp [lookup_cons_ite, ha, Ne.symm ha, ih hl]

theorem get?_insert (d : OrderedDict κ ν) (k k' : κ) (v : ν) :
    (d.insert k v).get? k' = if k' = k then some v else d.get? k' := by
  unfold insert get?
  split
  · rename_i h
    by_cases hk : k' = k
    · rw [if_pos hk, hk, lookup_replace_self h]
    · rw [if_neg hk, lookup_replace_of_ne hk]
  · rename_i h
    rw [List.lookup_append, lookup_cons_ite, List.lookup_nil]
    by_cases hk : k' = k
    · subst hk
      have hnone : d.entries.lookup k' = none := by
        rw [List.lookup_eq_none_iff]
        intro e he
        rw [bne_iff_ne]
        rintro rfl
        exact h (List.mem_map_of_mem he)
      simp [hnone]
    · simp [hk]

section Keys

variable (d : OrderedDict κ ν)

def keys : List κ := d.entries.map Prod.fst

def erase (k : κ) : OrderedDict κ ν :=
  ⟨d.entries.filter (·.1 ≠ k), d.nodup.sublist (List.filter_sublist.map Prod.fst)⟩

variable {d}

theorem mem_keys {k : κ} : k ∈ d.keys ↔ (d.get? k).isSome := by
  obtain ⟨entries, nodup⟩ := d
  simp only [keys, get?]
  clear nodup
  induction entries with
  | nil => simp
  | cons e l ih =>
    obtain ⟨a, b⟩ := e
    rw [List.map_cons, List.mem_cons, ih, lookup_cons_ite]
    by_cases hk : k = a <;> simp [hk]

theorem get?_eq_some {k : κ} {v : ν} : d.get? k = some v ↔ (k, v) ∈ d.entries := by
  obtain ⟨entries, nodup⟩ := d
  simp only [get?]
  induction entries with
  | nil => simp
  | cons e l ih =>
    obtain ⟨a, b⟩ := e
    rw [List.map_cons, List.nodup_cons] at nodup
    rw [lookup_cons_ite, List.mem_cons, Prod.mk.injEq, ← ih nodup.2]
    by_cases hk : k = a
    · subst hk
      have hnone : l.lookup k ≠ some v := by
        intro h
        have hmem : (k, v) ∈ l := (ih nodup.2).mp h
        exact nodup.1 (List.mem_map.mpr ⟨(k, v), hmem, rfl⟩)
      simp [hnone, eq_comm]
    · simp [hk]

theorem get?_erase (d : OrderedDict κ ν) (k k' : κ) :
    (d.erase k).get? k' = if k' = k then none else d.get? k' := by
  simp only [erase, get?]
  induction d.entries with
  | nil => simp
  | cons e l ih =>
    obtain ⟨a, b⟩ := e
    by_cases ha : a = k
    · subst ha
      rw [List.filter_cons_of_neg (by simp), ih, lookup_cons_ite]
      by_cases hk : k' = a <;> simp [hk]
    · rw [List.filter_cons_of_pos (by simpa using ha), lookup_cons_ite, lookup_cons_ite, ih]
      by_cases hk : k' = a
      · simp [hk, ha]
      · simp [hk]

end Keys

section Fold

variable {α : Type} {key : α → κ} {val : α → ν} {l : List α}

theorem get?_foldl_of_notMem {d : OrderedDict κ ν} {k : κ} (h : k ∉ l.map key) :
    (l.foldl (fun d a => d.insert (key a) (val a)) d).get? k = d.get? k := by
  induction l generalizing d with
  | nil => rfl
  | cons a l ih =>
    obtain ⟨hne, hrest⟩ := not_or.mp (mt List.mem_cons.mpr h)
    rw [List.foldl_cons, ih hrest, get?_insert, if_neg hne]

theorem get?_foldl_of_mem {d : OrderedDict κ ν} (hnodup : (l.map key).Nodup) {a : α} (h : a ∈ l) :
    (l.foldl (fun d a => d.insert (key a) (val a)) d).get? (key a) = some (val a) := by
  induction l generalizing d with
  | nil => cases h
  | cons b l ih =>
    rw [List.map_cons, List.nodup_cons] at hnodup
    rw [List.foldl_cons]
    rcases List.mem_cons.mp h with rfl | h
    · rw [get?_foldl_of_notMem hnodup.1, get?_insert, if_pos rfl]
    · exact ih hnodup.2 h

end Fold

end OrderedDict

end VSwarm.Lib
