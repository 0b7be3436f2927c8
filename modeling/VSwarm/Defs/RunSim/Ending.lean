import VSwarm.Defs.RunSim.Evaluation

namespace VSwarm.RunSim

open VSwarm.Lib

/-- The run ended by completing its budget: the last event is a workend whose
handler took the "Measuring done" branch, and the only dump was taken there,
after `W` warming and `M` measured invocations. -/
structure Measured (W M : Nat) (o : Reactive.Outcome State ExitEvent Call) : Prop where
  stopped : o.stopped = true
  last : ∃ e cs, o.trace.getLast? = some (e, cs) ∧ e.isWorkend = true ∧
    prGreen "Measuring done" ∈ cs ∧ .statsDump ∈ cs
  dumps : o.calls.countP (· == .statsDump) = 1
  ended : (o.trace.map Prod.fst).countP ExitEvent.isWorkend = W + M

def beforeAbort (es : List ExitEvent) : List ExitEvent := es.takeWhile (!·.aborts)

section Laws

variable {args : Args} {s : State} {es : List ExitEvent} {W M : Nat}

theorem simulate_append_of_running {t : Template} {fs : List ExitEvent}
    (h : (simulate t args s es).stopped = false) :
    simulate t args s (es ++ fs) =
      ⟨(simulate t args (simulate t args s es).state fs).state,
        (simulate t args s es).trace ++
          (simulate t args (simulate t args s es).state fs).trace,
        (simulate t args (simulate t args s es).state fs).stopped⟩ :=
  Reactive.run_append_of_running h

theorem simulate_append_of_stopped {t : Template} {fs : List ExitEvent}
    (h : (simulate t args s es).stopped = true) :
    simulate t args s (es ++ fs) = simulate t args s es :=
  Reactive.run_append_of_stopped h

theorem map_fst_trace_simulate (t : Template) :
    (simulate t args s es).trace.map Prod.fst = es.take (simulate t args s es).trace.length :=
  Reactive.map_fst_trace

theorem one_le_invToMeasure (t : Template) (hmode : args.mode = .evaluation)
    (hm : 1 ≤ s.invToMeasure) (h : (simulate t args s es).stopped = false) :
    1 ≤ (simulate t args s es).state.invToMeasure := by
  induction es generalizing s with
  | nil => exact hm
  | cons e es ih =>
    have hstep := simulateStep_stepped t hmode hm e
    unfold simulate at ih h ⊢
    rw [Reactive.run] at h ⊢
    generalize simulateStep t args s e = r at hstep h ⊢
    cases hstep with
    | aborted => simp at h
    | idle => exact ih hm (by simpa using h)
    | begun => exact ih hm (by simpa using h)
    | switched => exact ih (by simpa using hm) (by simpa using h)
    | warmed => exact ih (by simpa using hm) (by simpa using h)
    | measured cs ha hb he hw hm' => exact ih (by simp only; omega) (by simpa using h)
    | finished => simp at h

theorem getLast?_trace_of_stopped (t : Template) (hmode : args.mode = .evaluation)
    (hm : 1 ≤ s.invToMeasure) (hes : ∀ e ∈ es, e.aborts = false)
    (h : (simulate t args s es).stopped = true) :
    ∃ e cs, (simulate t args s es).trace.getLast? = some (e, cs) ∧ e.isWorkend = true ∧
      prGreen "Measuring done" ∈ cs ∧ .statsDump ∈ cs := by
  induction es generalizing s with
  | nil => simp [simulate] at h
  | cons e es ih =>
    have hes' := fun x hx => hes x (List.mem_cons_of_mem e hx)
    have hstep := simulateStep_stepped t hmode hm e
    have hlast : ∀ {s' cs}, 1 ≤ s'.invToMeasure →
        (Reactive.run (simulateStep t args) s' es).stopped = true →
        ∃ e' cs', ((e, cs) :: (Reactive.run (simulateStep t args) s' es).trace).getLast? =
            some (e', cs') ∧ e'.isWorkend = true ∧ prGreen "Measuring done" ∈ cs' ∧
            .statsDump ∈ cs' := by
      intro s' cs hm' hs
      obtain ⟨e', cs', hlast, hrest⟩ := ih hm' hes' hs
      unfold simulate at hlast
      exact ⟨e', cs', by simp [List.getLast?_cons, hlast], hrest⟩
    unfold simulate at h ⊢
    rw [Reactive.run] at h ⊢
    generalize simulateStep t args s e = r at hstep h ⊢
    cases hstep with
    | aborted cs ha => simp [hes e List.mem_cons_self] at ha
    | idle => exact hlast hm (by simpa using h)
    | begun => exact hlast hm (by simpa using h)
    | switched => exact hlast (by simpa using hm) (by simpa using h)
    | warmed => exact hlast (by simpa using hm) (by simpa using h)
    | measured cs ha hb he hw hm' => exact hlast (by simp only; omega) (by simpa using h)
    | finished cs ha hb he hw hm' hq hdone =>
      exact ⟨e, cs ++ [.statsDump], rfl, he, by simp [hdone], by simp⟩

theorem ExitEvent.isWorkend_of_aborts {e : ExitEvent} (h : e.aborts = true) :
    e.isWorkend = false := by
  unfold aborts at h
  unfold isWorkend
  cases hk : e.kind <;> simp_all

theorem simulate_cons_of_aborts (t : Template) (hmode : args.mode = .evaluation)
    (hm : 1 ≤ s.invToMeasure) {e : ExitEvent} (ha : e.aborts = true) :
    simulate t args s (e :: es) = ⟨s, [(e, (simulateStep t args s e).calls)], true⟩ := by
  have hstep := simulateStep_stepped t hmode hm e
  rw [simulate, Reactive.run]
  generalize simulateStep t args s e = r at hstep ⊢
  cases hstep with
  | aborted => rfl
  | idle cs ha' => simp [ha] at ha'
  | begun cs ha' => simp [ha] at ha'
  | switched cs ha' => simp [ha] at ha'
  | warmed cs ha' => simp [ha] at ha'
  | measured cs ha' => simp [ha] at ha'
  | finished cs ha' => simp [ha] at ha'

theorem aborts_of_mem_beforeAbort : ∀ e ∈ beforeAbort es, e.aborts = false := by
  intro e he
  simpa using List.all_eq_true.mp List.all_takeWhile e he

theorem simulate_measured (t : Template) (hmode : args.mode = .evaluation)
    (hW : args.atomicWarming = W) (hM : args.numInvocations = M) (hpos : 1 ≤ M) :
    Measured W M (simulate t args (armed args) es) ↔
      W + M ≤ (beforeAbort es).countP ExitEvent.isWorkend := by
  have hm : 1 ≤ (armed args).invToMeasure := by simp only [armed, hM]; omega
  obtain ⟨hstop, hlen, hdump⟩ := simulate_armed t hmode hW hM hpos
    (@aborts_of_mem_beforeAbort es)
  have hsplit : es = beforeAbort es ++ es.dropWhile (!·.aborts) :=
    List.takeWhile_append_dropWhile.symm
  constructor
  · intro h
    by_contra hlt
    have hrun : (simulate t args (armed args) (beforeAbort es)).stopped = false := by
      rw [hstop, Bool.eq_false_iff, ne_eq, Reactive.isSome_nth]
      omega
    have hm' := one_le_invToMeasure t hmode hm hrun
    obtain ⟨hstopped, ⟨e', cs', hlast, he', -⟩, -⟩ := h
    rw [hsplit, simulate_append_of_running hrun] at hstopped hlast
    -- what follows is empty, or starts with the event that aborts the run
    cases hrest : es.dropWhile (!·.aborts) with
    | nil => simp [hrest, simulate] at hstopped
    | cons e rest =>
      have ha : e.aborts = true := by
        have := List.head?_dropWhile_not (!·.aborts) es
        simpa [hrest] using this
      rw [hrest, simulate_cons_of_aborts t hmode hm' ha, List.getLast?_concat] at hlast
      obtain ⟨rfl, -⟩ := Prod.mk.inj (Option.some.inj hlast)
      rw [ExitEvent.isWorkend_of_aborts ha] at he'
      cases he'
  · intro hle
    obtain ⟨k, hk⟩ := Option.isSome_iff_exists.mp
      (Reactive.isSome_nth.mpr ⟨show 0 < W + M by omega, hle⟩)
    rw [hk] at hstop hlen hdump
    rw [hsplit, simulate_append_of_stopped hstop]
    refine ⟨hstop, getLast?_trace_of_stopped t hmode hm aborts_of_mem_beforeAbort hstop, ?_, ?_⟩
    · rw [Reactive.Outcome.calls, ← Reactive.length_callTimes 0, hdump]
      rfl
    · rw [map_fst_trace_simulate, hlen]
      exact Reactive.countP_take_nth hk

end Laws

end VSwarm.RunSim
