import Mathlib.Data.List.Basic

/-! Event loops over finite event sequences.  A loop body reacts to one event
with a new state, the calls it makes in order, and the loop condition it leaves
behind.  A run keeps the calls of every event apart, so that a specification
can say at which event a call was made. -/

universe u v w

namespace VSwarm.Lib.Reactive

variable {σ : Type u} {ε : Type v} {κ : Type w}

structure Reaction (σ : Type u) (κ : Type w) where
  state : σ
  calls : List κ
  stop : Bool

structure Outcome (σ : Type u) (ε : Type v) (κ : Type w) where
  state : σ
  trace : List (ε × List κ)
  stopped : Bool

def run (step : σ → ε → Reaction σ κ) : σ → List ε → Outcome σ ε κ
  | s, [] => ⟨s, [], false⟩
  | s, e :: es =>
    if (step s e).stop then ⟨(step s e).state, [(e, (step s e).calls)], true⟩
    else
      let rest := run step (step s e).state es
      ⟨rest.state, (e, (step s e).calls) :: rest.trace, rest.stopped⟩

def Outcome.calls (o : Outcome σ ε κ) : List κ := o.trace.flatMap Prod.snd

/-- The position of the event at which each call satisfying `p` was made, once
per call.  Positions are counted from `start`, as in `List.findIdxs`. -/
def callTimes (p : κ → Bool) : List (ε × List κ) → Nat → List Nat
  | [], _ => []
  | (_, cs) :: tr, start => List.replicate (cs.countP p) start ++ callTimes p tr (start + 1)

/-- The position of the `n`-th element satisfying `p`, where the first is number one. -/
def nth (p : ε → Bool) : Nat → List ε → Option Nat
  | 0, _ => none
  | n + 1, es => (es.findIdxs p)[n]?

section Run

variable {step : σ → ε → Reaction σ κ} {s : σ} {e : ε} {es fs : List ε}

@[simp] theorem run_nil : run step s [] = ⟨s, [], false⟩ := rfl

theorem run_cons_of_stop (h : (step s e).stop = true) :
    run step s (e :: es) = ⟨(step s e).state, [(e, (step s e).calls)], true⟩ := by
  simp [run, h]

theorem run_cons_of_continue (h : (step s e).stop = false) :
    run step s (e :: es) =
      ⟨(run step (step s e).state es).state,
        (e, (step s e).calls) :: (run step (step s e).state es).trace,
        (run step (step s e).state es).stopped⟩ := by
  simp [run, h]

theorem run_append_of_stopped (h : (run step s es).stopped = true) :
    run step s (es ++ fs) = run step s es := by
  induction es generalizing s with
  | nil => simp at h
  | cons e es ih =>
    cases hs : (step s e).stop with
    | true => simp [run, hs]
    | false =>
      rw [run_cons_of_continue hs] at h
      simp [run, hs, ih h]

theorem run_append_of_running (h : (run step s es).stopped = false) :
    run step s (es ++ fs) =
      ⟨(run step (run step s es).state fs).state,
        (run step s es).trace ++ (run step (run step s es).state fs).trace,
        (run step (run step s es).state fs).stopped⟩ := by
  induction es generalizing s with
  | nil => rfl
  | cons e es ih =>
    cases hs : (step s e).stop with
    | true => simp [run, hs] at h
    | false =>
      rw [run_cons_of_continue hs] at h ⊢
      simp [run, hs, ih h]

theorem mem_calls_run {c : κ} (h : c ∈ (run step s es).calls) :
    ∃ s' e, e ∈ es ∧ c ∈ (step s' e).calls := by
  induction es generalizing s with
  | nil => simp [Outcome.calls] at h
  | cons e es ih =>
    cases hs : (step s e).stop with
    | true =>
      rw [run_cons_of_stop hs] at h
      exact ⟨s, e, List.mem_cons_self, by simpa [Outcome.calls] using h⟩
    | false =>
      rw [run_cons_of_continue hs] at h
      rcases List.mem_append.mp h with h | h
      · exact ⟨s, e, List.mem_cons_self, h⟩
      · obtain ⟨s', e', he', hc⟩ := ih h
        exact ⟨s', e', List.mem_cons_of_mem e he', hc⟩

theorem exists_calls_run {q : κ → Prop} {r : ε → Prop}
    (h : ∀ s e, (∃ c ∈ (step s e).calls, q c) ↔ r e) :
    (∃ c ∈ (run step s es).calls, q c) ↔ ∃ e ∈ (run step s es).trace.map Prod.fst, r e := by
  induction es generalizing s with
  | nil => simp [Outcome.calls]
  | cons e es ih =>
    cases hs : (step s e).stop with
    | true => simpa [run, hs, Outcome.calls] using h s e
    | false =>
      rw [run_cons_of_continue hs]
      simp only [Outcome.calls, List.flatMap_cons, List.mem_append, or_and_right, exists_or,
        List.map_cons, List.mem_cons, exists_eq_left, h s e] at ih ⊢
      rw [ih]

theorem map_fst_trace :
    (run step s es).trace.map Prod.fst = es.take (run step s es).trace.length := by
  induction es generalizing s with
  | nil => rfl
  | cons e es ih =>
    cases hs : (step s e).stop with
    | true => simp [run, hs]
    | false => simp [run, hs, ih]

theorem map_fst_trace_of_running (h : (run step s es).stopped = false) :
    (run step s es).trace.map Prod.fst = es := by
  induction es generalizing s with
  | nil => rfl
  | cons e es ih =>
    cases hs : (step s e).stop with
    | true => simp [run, hs] at h
    | false =>
      rw [run_cons_of_continue hs] at h ⊢
      rw [List.map_cons, ih h]

end Run

section CallTimes

variable {p : κ → Bool} {tr tr' : List (ε × List κ)} {start : Nat}

@[simp] theorem callTimes_nil : callTimes p ([] : List (ε × List κ)) start = [] := rfl

@[simp] theorem callTimes_cons {e : ε} {cs : List κ} :
    callTimes p ((e, cs) :: tr) start =
      List.replicate (cs.countP p) start ++ callTimes p tr (start + 1) := rfl

theorem callTimes_append :
    callTimes p (tr ++ tr') start =
      callTimes p tr start ++ callTimes p tr' (start + tr.length) := by
  induction tr generalizing start with
  | nil => simp
  | cons c tr ih =>
    obtain ⟨e, cs⟩ := c
    simp [ih, Nat.add_assoc, Nat.add_comm 1]

theorem length_callTimes (start : Nat) :
    (callTimes p tr start).length = (tr.flatMap Prod.snd).countP p := by
  induction tr generalizing start with
  | nil => rfl
  | cons c tr ih =>
    obtain ⟨e, cs⟩ := c
    simp [ih]

theorem notMem_of_callTimes_eq_nil [DecidableEq κ] {c : κ}
    (h : callTimes (· == c) tr start = []) (k : Nat) : c ∉ (tr.take k).flatMap Prod.snd := by
  intro hc
  obtain ⟨a, ha, hca⟩ := List.mem_flatMap.mp hc
  have hzero := congrArg List.length h
  rw [length_callTimes, List.length_nil, List.countP_eq_zero] at hzero
  exact hzero c (List.mem_flatMap.mpr ⟨a, List.mem_of_mem_take ha, hca⟩) (beq_self_eq_true c)

theorem mem_callTimes {k : Nat} (h : k ∈ callTimes p tr start) :
    ∃ c ∈ (tr.take (k + 1 - start)).flatMap Prod.snd, p c = true := by
  induction tr generalizing start with
  | nil => simp at h
  | cons a tr ih =>
    obtain ⟨e, cs⟩ := a
    rcases List.mem_append.mp (callTimes_cons ▸ h) with h | h
    · obtain ⟨hpos, rfl⟩ := List.mem_replicate.mp h
      obtain ⟨c, hc, hpc⟩ := List.countP_pos_iff.mp (Nat.pos_of_ne_zero hpos)
      exact ⟨c, by simp [hc], hpc⟩
    · obtain ⟨c, hc, hpc⟩ := ih h
      have hk : start < k + 1 := by
        by_contra hlt
        simp [show k + 1 - (start + 1) = 0 by omega] at hc
      refine ⟨c, ?_, hpc⟩
      rw [show k + 1 - start = k + 1 - (start + 1) + 1 by omega, List.take_succ_cons,
        List.flatMap_cons]
      exact List.mem_append_right _ hc

theorem callTimes_run_concat {step : σ → ε → Reaction σ κ} {s : σ} {es : List ε} {e : ε}
    (hrunning : (run step s es).stopped = false)
    (hquiet : (step (run step s es).state e).calls.countP p = 0) :
    callTimes p (run step s (es ++ [e])).trace start = callTimes p (run step s es).trace start := by
  rw [run_append_of_running hrunning, callTimes_append, run]
  split <;> simp [hquiet]

/-- Two loops in lockstep, as long as neither stops: with as many calls of a kind at
each event, the calls of the whole runs are at the same events. -/
theorem callTimes_lockstep {σ' : Type u} {step : σ → ε → Reaction σ κ}
    {step' : σ' → ε → Reaction σ' κ} {R : σ → σ' → List ε → Prop}
    (h : ∀ s s' e es, R s s' (e :: es) → (step s e).stop = false ∧ (step' s' e).stop = false ∧
      (step s e).calls.countP p = (step' s' e).calls.countP p ∧
        R (step s e).state (step' s' e).state es)
    {s : σ} {s' : σ'} {es : List ε} (hR : R s s' es) (start : Nat) :
    (run step s es).stopped = false ∧ (run step' s' es).stopped = false ∧
      callTimes p (run step s es).trace start = callTimes p (run step' s' es).trace start ∧
        R (run step s es).state (run step' s' es).state [] := by
  induction es generalizing s s' start with
  | nil => exact ⟨rfl, rfl, rfl, hR⟩
  | cons e es ih =>
    obtain ⟨hstop, hstop', hcalls, hnext⟩ := h s s' e es hR
    obtain ⟨hrunning, hrunning', htimes, hlast⟩ := ih hnext (start + 1)
    rw [run_cons_of_continue hstop, run_cons_of_continue hstop', callTimes_cons, callTimes_cons,
      hcalls, htimes]
    exact ⟨hrunning, hrunning', rfl, hlast⟩

end CallTimes

section Nth

variable {p : ε → Bool} {es : List ε} {n k : Nat}

theorem nth_eq_some (h : nth p n es = some k) :
    ∃ l e r, es = l ++ e :: r ∧ l.length = k ∧ p e = true ∧ l.countP p + 1 = n := by
  obtain _ | n := n
  · simp [nth] at h
  induction es generalizing n k with
  | nil => simp [nth] at h
  | cons e es ih =>
    rw [nth, List.findIdxs_cons, List.findIdxs_start] at h
    by_cases he : p e = true
    · rw [if_pos he] at h
      cases n with
      | zero => exact ⟨[], e, es, rfl, by simpa using h, he, rfl⟩
      | succ n =>
        simp only [List.getElem?_cons_succ, List.getElem?_map, Option.map_eq_some_iff] at h
        obtain ⟨k, hk, rfl⟩ := h
        obtain ⟨l, d, r, rfl, rfl, hd, hn⟩ := ih n hk
        exact ⟨e :: l, d, r, rfl, by simp, hd, by simp [he]; omega⟩
    · rw [if_neg he] at h
      simp only [List.getElem?_map, Option.map_eq_some_iff] at h
      obtain ⟨k, hk, rfl⟩ := h
      obtain ⟨l, d, r, rfl, rfl, hd, hn⟩ := ih n hk
      exact ⟨e :: l, d, r, rfl, by simp, hd, by simp [he]; omega⟩

theorem countP_take_nth (h : nth p n es = some k) : (es.take (k + 1)).countP p = n := by
  obtain ⟨l, e, r, rfl, rfl, he, hcount⟩ := nth_eq_some h
  simpa [List.take_length_add_append, he] using hcount

theorem nth_mono {i : Nat} (hi : 0 < i) (hin : i ≤ n) (h : nth p n es = some k) :
    ∃ j ≤ k, nth p i es = some j := by
  obtain _ | i := i
  · cases hi
  obtain _ | n := n
  · cases hin
  obtain ⟨hn, hk⟩ := List.getElem?_eq_some_iff.mp h
  have hi' : i < (es.findIdxs p).length := by omega
  refine ⟨(es.findIdxs p)[i], ?_, List.getElem?_eq_getElem hi'⟩
  rcases Nat.eq_or_lt_of_le (Nat.le_of_succ_le_succ hin) with rfl | hlt
  · exact Nat.le_of_eq hk
  · have hsorted : (es.findIdxs p).Pairwise (· < ·) := List.pairwise_findIdxs
    have := List.pairwise_iff_getElem.mp hsorted i n hi' hn hlt
    omega

theorem isSome_nth : (nth p n es).isSome = true ↔ 0 < n ∧ n ≤ es.countP p := by
  cases n with
  | zero => simp [nth]
  | succ n =>
    rw [nth, isSome_getElem?, List.length_findIdxs]
    omega

end Nth

end VSwarm.Lib.Reactive
