import VSwarm.Defs.Simple.Handlers

namespace VSwarm.Simple

open VSwarm.Lib

def ExitEvent.isWorkend (e : ExitEvent) : Bool := e = .workend

def alternates : Bool → List ExitEvent → Bool
  | _, [] => true
  | inside, .workbegin :: es => !inside && alternates true es
  | inside, .workend :: es => inside && alternates false es
  | inside, .fail :: es => alternates inside es
  | _, .exit :: _ => false

def StopsAtInvocation (n : Nat) (es : List ExitEvent)
    (o : Reactive.Outcome Handlers ExitEvent Call) : Prop :=
  ∃ k, Reactive.nth ExitEvent.isWorkend n es = some k ∧ o.stopped = true ∧ o.trace.length = k + 1

def workends (o : Reactive.Outcome Handlers ExitEvent Call) : Nat :=
  (o.trace.map Prod.fst).countP ExitEvent.isWorkend

theorem workends_of_stopsAtInvocation {args : Args} {fallback : ExitEvent → Bool} {s : Handlers}
    {n : Nat} {es : List ExitEvent} (h : StopsAtInvocation n es (simulate args fallback s es)) :
    workends (simulate args fallback s es) = n := by
  obtain ⟨k, hk, -, hlength⟩ := h
  have hfst : (simulate args fallback s es).trace.map Prod.fst =
      es.take (simulate args fallback s es).trace.length := Reactive.map_fst_trace
  rw [workends, hfst, hlength]
  exact Reactive.countP_take_nth hk

section Steps

variable {args : Args} {fallback : ExitEvent → Bool} {s : Handlers}

theorem simulatorStep_fail (args : Args) (fallback : ExitEvent → Bool) (s : Handlers) :
    (simulatorStep args fallback s .fail).stop = false ∧
      (simulatorStep args fallback s .fail).state.begins = s.begins ∧
      (simulatorStep args fallback s .fail).state.ends = s.ends := by
  simp [simulatorStep, reactTo, Handlers.next, executeFail_value]

theorem simulatorStep_workbegin_stop (hmode : args.mode = .evaluation) {c : Int}
    (hs : s.begins = ⟨c, false⟩) :
    (simulatorStep args fallback s .workbegin).stop = decide (args.numInvocations ≤ c) := by
  by_cases h : args.numInvocations ≤ c <;>
    simp [simulatorStep, reactTo, Handlers.next, workitems, hmode, hs, h]

theorem simulatorStep_workbegin_state {c : Int} (hs : s.begins = ⟨c, false⟩)
    (h : c < args.numInvocations) :
    (simulatorStep args fallback s .workbegin).state = s := by
  have hbegins : (workitems args true s.begins).state = s.begins := by
    simp [workitems, hs, Int.not_le.mpr h]
  simp only [simulatorStep, reactTo, Handlers.next, hbegins]

theorem simulatorStep_workend_stop (hmode : args.mode = .evaluation) {c : Int}
    (hs : s.ends = ⟨c, false⟩) :
    (simulatorStep args fallback s .workend).stop = decide (args.numInvocations ≤ c + 1) := by
  by_cases h : args.numInvocations ≤ c + 1 <;>
    simp [simulatorStep, reactTo, Handlers.next, workitems, hmode, hs, h]

theorem simulatorStep_workend_state {c : Int} (hs : s.ends = ⟨c, false⟩)
    (h : c + 1 < args.numInvocations) :
    (simulatorStep args fallback s .workend).state = { s with ends := ⟨c + 1, false⟩ } := by
  have hends : (workitems args false s.ends).state = ⟨c + 1, false⟩ := by
    simp [workitems, hs, Int.not_le.mpr h]
  simp only [simulatorStep, reactTo, Handlers.next, hends]

variable {e : ExitEvent} {es : List ExitEvent}

theorem workends_simulate_of_stop (h : (simulatorStep args fallback s e).stop = true) :
    (simulate args fallback s (e :: es)).stopped = true ∧
      workends (simulate args fallback s (e :: es)) = if e.isWorkend then 1 else 0 := by
  rw [simulate, Reactive.run_cons_of_stop h]
  simp [workends, List.countP_cons]

theorem workends_simulate_of_continue (h : (simulatorStep args fallback s e).stop = false)
    {n : Nat} (hrest : (simulate args fallback (simulatorStep args fallback s e).state es).stopped =
        true ∧
      workends (simulate args fallback (simulatorStep args fallback s e).state es) = n) :
    (simulate args fallback s (e :: es)).stopped = true ∧
      workends (simulate args fallback s (e :: es)) = n + if e.isWorkend then 1 else 0 := by
  obtain ⟨hstopped, rfl⟩ := hrest
  unfold simulate at hstopped ⊢
  rw [Reactive.run_cons_of_continue h]
  exact ⟨hstopped, by simp [workends, List.countP_cons]⟩

end Steps

section Runs

variable {args : Args} {fallback : ExitEvent → Bool}

/-- With one invocation asked for, the first WORKBEGIN already satisfies the
test that both handlers share. -/
theorem simulate_stops_at_workbegin (hmode : args.mode = .evaluation)
    (hn : args.numInvocations = 1) {s : Handlers} (hs : s.begins = ⟨1, false⟩)
    {es : List ExitEvent} (halt : alternates false es = true)
    (hmany : 0 < es.countP ExitEvent.isWorkend) :
    (simulate args fallback s es).stopped = true ∧ workends (simulate args fallback s es) = 0 := by
  induction es generalizing s with
  | nil => simp at hmany
  | cons e es ih =>
    cases e with
    | workbegin =>
      apply workends_simulate_of_stop
      simp [simulatorStep_workbegin_stop hmode hs, hn]
    | workend => simp [alternates] at halt
    | exit => simp [alternates] at halt
    | fail =>
      obtain ⟨hgo, hbegins, -⟩ := simulatorStep_fail args fallback s
      apply workends_simulate_of_continue hgo
      exact ih (hbegins.trans hs) halt (by simpa [ExitEvent.isWorkend] using hmany)

theorem simulate_stops_at_workend (hmode : args.mode = .evaluation)
    (hn : 1 < args.numInvocations) {s : Handlers} (hbegins : s.begins = ⟨1, false⟩) {c : Int}
    (hends : s.ends = ⟨c, false⟩) {left : Nat} (hleft : c + left + 1 = args.numInvocations)
    {es : List ExitEvent} (hexit : .exit ∉ es) (hmany : left < es.countP ExitEvent.isWorkend) :
    (simulate args fallback s es).stopped = true ∧
      workends (simulate args fallback s es) = left + 1 := by
  induction es generalizing s c left with
  | nil => simp at hmany
  | cons e es ih =>
    have hexit' : .exit ∉ es := fun h => hexit (List.mem_cons_of_mem _ h)
    cases e with
    | exit => exact absurd List.mem_cons_self hexit
    | fail =>
      obtain ⟨hgo, hb, he⟩ := simulatorStep_fail args fallback s
      apply workends_simulate_of_continue hgo
      exact ih (hb.trans hbegins) (he.trans hends) hleft hexit'
        (by simpa [ExitEvent.isWorkend] using hmany)
    | workbegin =>
      apply workends_simulate_of_continue
      · simp [simulatorStep_workbegin_stop hmode hbegins, hn]
      · rw [simulatorStep_workbegin_state hbegins hn]
        exact ih hbegins hends hleft hexit' (by simpa [ExitEvent.isWorkend] using hmany)
    | workend =>
      cases left with
      | zero =>
        apply workends_simulate_of_stop
        simp [simulatorStep_workend_stop hmode hends]
        omega
      | succ left =>
        have hlt : c + 1 < args.numInvocations := by omega
        apply workends_simulate_of_continue (n := left + 1)
        · simp [simulatorStep_workend_stop hmode hends, hlt]
        · rw [simulatorStep_workend_state hends hlt]
          exact @ih { s with ends := ⟨c + 1, false⟩ } hbegins (c + 1) rfl left (by omega) hexit'
            (by simpa [ExitEvent.isWorkend] using hmany)

end Runs

theorem alternates_notMem_exit {inside : Bool} {es : List ExitEvent}
    (h : alternates inside es = true) : .exit ∉ es := by
  induction es generalizing inside with
  | nil => simp
  | cons e es ih =>
    cases e with
    | exit => simp [alternates] at h
    | fail => simpa using ih h
    | workbegin => simpa using ih (Bool.and_eq_true_iff.mp h).2
    | workend => simpa using ih (Bool.and_eq_true_iff.mp h).2

theorem simulate_not_stopsAtInvocation {args : Args} (fallback : ExitEvent → Bool)
    (hmode : args.mode = .evaluation) {n : Nat} (hn : 0 < n) (hargs : args.numInvocations = n)
    {es : List ExitEvent} (halt : alternates false es = true)
    (hmany : n ≤ es.countP ExitEvent.isWorkend) :
    ¬StopsAtInvocation n es (simulate args fallback {} es) := by
  intro hstops
  have hcount := workends_of_stopsAtInvocation hstops
  have hends : workends (simulate args fallback {} es) + 1 = n := by
    obtain rfl | hone : n = 1 ∨ 1 < n := by omega
    · rw [(simulate_stops_at_workbegin hmode hargs rfl halt hmany).2]
    · have hleft : (1 : Int) + (n - 2 : Nat) + 1 = args.numInvocations := by omega
      rw [(simulate_stops_at_workend hmode (by omega) rfl rfl hleft
        (alternates_notMem_exit halt) (by omega)).2]
      omega
  omega

theorem simulate_not_stopsAtInvocation_five :
    ¬StopsAtInvocation 5 (List.replicate 5 [.workbegin, .workend]).flatten
      (simulate { mode := .evaluation } (fun _ => true) {}
        (List.replicate 5 [.workbegin, .workend]).flatten) :=
  simulate_not_stopsAtInvocation (n := 5) (fun _ => true) rfl (by decide) rfl (by decide)
    (by decide)

theorem simulate_two_stops_at_first :
    alternates false [.workbegin, .workend, .workbegin, .workend] = true ∧
      List.countP ExitEvent.isWorkend [.workbegin, .workend, .workbegin, .workend] = 2 ∧
      ¬StopsAtInvocation 2 [.workbegin, .workend, .workbegin, .workend]
        (simulate { mode := .evaluation, numInvocations := 2 } (fun _ => true) {}
          [.workbegin, .workend, .workbegin, .workend]) := by
  refine ⟨by decide, by decide, ?_⟩
  rintro ⟨k, hk, -, hlength⟩
  have hpos : Reactive.nth ExitEvent.isWorkend 2 [.workbegin, .workend, .workbegin, .workend] =
    some 3 := rfl
  have hthree : k = 3 := by simpa using hk.symm.trans hpos
  subst hthree
  exact absurd hlength (by decide)

end VSwarm.Simple
