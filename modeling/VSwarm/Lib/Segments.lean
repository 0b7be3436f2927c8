import Mathlib.Data.List.Basic

universe u v

namespace VSwarm.Lib

variable {α : Type u} {β : Type v} {p : α → Bool} {l m : List α} {a : α}

def segments (p : α → Bool) : List α → List (List α)
  | [] => []
  | a :: l =>
    if p a then [a] :: segments p l
    else
      match segments p l with
      | [] => [[a]]
      | s :: ss => (a :: s) :: ss

/-- The ends of segments are the elements that satisfy `p`, and the end of the list. -/
structure Segmentation (p : α → Bool) (l : List α) (ss : List (List α)) : Prop where
  flatten : ss.flatten = l
  inner : ∀ s ∈ ss, s ≠ [] ∧ ∀ a ∈ s.dropLast, p a = false
  closed : ∀ s ∈ ss.dropLast, ∃ a ∈ s.getLast?, p a = true

namespace Segments

theorem cons_of_end (h : p a = true) : segments p (a :: l) = [a] :: segments p l := by
  simp [segments, h]

theorem cons_of_nil (h : p a = false) (hl : segments p l = []) : segments p (a :: l) = [[a]] := by
  simp [segments, h, hl]

theorem cons_of_cons {s : List α} {ss : List (List α)} (h : p a = false)
    (hl : segments p l = s :: ss) : segments p (a :: l) = (a :: s) :: ss := by
  simp [segments, h, hl]

theorem segmentation (p : α → Bool) (l : List α) : Segmentation p l (segments p l) := by
  induction l with
  | nil => exact ⟨rfl, by simp [segments], by simp [segments]⟩
  | cons a l ih =>
    cases ha : p a with
    | true =>
      rw [cons_of_end ha]
      refine ⟨by simp [ih.flatten], ?_, ?_⟩
      · intro s hs
        rcases List.mem_cons.mp hs with rfl | hs
        · simp
        · exact ih.inner s hs
      · intro s hs
        cases hl : segments p l with
        | nil => simp [hl] at hs
        | cons t ts =>
          rw [hl, List.dropLast_cons_cons, ← hl] at hs
          rcases List.mem_cons.mp hs with rfl | hs
          · simp [ha]
          · exact ih.closed s hs
    | false =>
      cases hl : segments p l with
      | nil =>
        have hflat := ih.flatten
        rw [hl] at hflat
        rw [cons_of_nil ha hl]
        exact ⟨by simpa using hflat, by simp, by simp⟩
      | cons t ts =>
        have hflat := ih.flatten
        have hinner := ih.inner
        have hclosed := ih.closed
        rw [hl] at hflat hinner hclosed
        obtain ⟨hne, ht⟩ := hinner t List.mem_cons_self
        rw [cons_of_cons ha hl]
        refine ⟨by simpa using hflat, ?_, ?_⟩
        · intro s hs
          rcases List.mem_cons.mp hs with rfl | hs
          · refine ⟨by simp, ?_⟩
            rw [List.dropLast_cons_of_ne_nil hne]
            intro b hb
            rcases List.mem_cons.mp hb with rfl | hb
            · exact ha
            · exact ht b hb
          · exact hinner s (List.mem_cons_of_mem t hs)
        · intro s hs
          cases ts with
          | nil => simp at hs
          | cons u us =>
            rw [List.dropLast_cons_cons] at hs hclosed
            rcases List.mem_cons.mp hs with rfl | hs
            · rw [List.getLast?_cons_of_ne_nil hne]
              exact hclosed t List.mem_cons_self
            · exact hclosed s (List.mem_cons_of_mem t hs)

theorem ne_nil (h : l ≠ []) : segments p l ≠ [] := by
  intro hnil
  have hflat := (segmentation p l).flatten
  rw [hnil] at hflat
  exact h hflat.symm

theorem getLast?_concat (p : α → Bool) (l : List α) (a : α) :
    ∃ s, (segments p (l ++ [a])).getLast? = some (s ++ [a]) := by
  have hcut := segmentation p (l ++ [a])
  have hne : segments p (l ++ [a]) ≠ [] := ne_nil (by simp)
  obtain ⟨s, hs⟩ := Option.isSome_iff_exists.mp (List.getLast?_isSome.mpr hne)
  obtain ⟨ss, hss⟩ := List.getLast?_eq_some_iff.mp hs
  have hs_ne := (hcut.inner s (List.mem_of_getLast? hs)).1
  obtain ⟨t, b, rfl⟩ := (List.eq_nil_or_concat s).resolve_left hs_ne
  have hflat := hcut.flatten
  rw [hss, List.flatten_concat, List.concat_eq_append, ← List.append_assoc] at hflat
  obtain ⟨-, hb⟩ := List.append_inj' hflat rfl
  obtain rfl := List.singleton_inj.mp hb
  exact ⟨t, by rw [hs, List.concat_eq_append]⟩

theorem append (h : l = [] ∨ ∃ a ∈ l.getLast?, p a = true) :
    segments p (l ++ m) = segments p l ++ segments p m := by
  induction l with
  | nil => rfl
  | cons a l ih =>
    cases l with
    | nil =>
      have ha : p a = true := by simpa using h
      simp [cons_of_end ha, segments]
    | cons b l =>
      have hlast : ∃ a ∈ (b :: l).getLast?, p a = true := by simpa using h
      have happ := ih (.inr hlast)
      cases ha : p a with
      | true => rw [List.cons_append, cons_of_end ha, cons_of_end ha, happ, List.cons_append]
      | false =>
        obtain ⟨s, ss, hs⟩ := List.exists_cons_of_ne_nil (ne_nil (p := p) (List.cons_ne_nil b l))
        have hcons : segments p (b :: l ++ m) = s :: (ss ++ segments p m) := by
          rw [happ, hs]
          rfl
        rw [List.cons_append, cons_of_cons ha hcons, cons_of_cons ha hs]
        rfl

theorem singleton (hne : l ≠ []) (h : ∀ a ∈ l.dropLast, p a = false) : segments p l = [l] := by
  induction l with
  | nil => exact absurd rfl hne
  | cons a l ih =>
    cases l with
    | nil => cases ha : p a <;> simp [segments, ha]
    | cons b l =>
      rw [List.dropLast_cons_cons] at h
      have hl := ih (List.cons_ne_nil b l) fun c hc => h c (List.mem_cons_of_mem a hc)
      exact cons_of_cons (h a List.mem_cons_self) hl

theorem eq_of_segmentation {ss : List (List α)} (h : Segmentation p l ss) : ss = segments p l := by
  induction ss generalizing l with
  | nil =>
    have hl : l = [] := h.flatten.symm
    rw [hl, segments]
  | cons s ss ih =>
    obtain ⟨hne, hs⟩ := h.inner s List.mem_cons_self
    have hl : l = s ++ ss.flatten := h.flatten.symm
    cases ss with
    | nil => rw [hl, List.flatten_nil, List.append_nil, singleton hne hs]
    | cons t ts =>
      have hclosed := h.closed
      rw [List.dropLast_cons_cons] at hclosed
      have htail : Segmentation p (t :: ts).flatten (t :: ts) :=
        ⟨rfl, fun u hu => h.inner u (List.mem_cons_of_mem s hu),
          fun u hu => hclosed u (List.mem_cons_of_mem s hu)⟩
      rw [hl, append (.inr (hclosed s List.mem_cons_self)), singleton hne hs, ← ih htail]
      rfl

theorem map (f : β → α) (l : List β) :
    segments p (l.map f) = (segments (fun b => p (f b)) l).map (List.map f) := by
  induction l with
  | nil => rfl
  | cons b l ih =>
    rw [List.map_cons, segments, segments, ih]
    cases segments (fun b => p (f b)) l <;> cases p (f b) <;> rfl

end Segments

end VSwarm.Lib
