import VSwarm.Defs.RunSim.Controller

namespace VSwarm.RunSim

open VSwarm.Lib

def ExitEvent.isWorkbegin (e : ExitEvent) : Bool :=
  match e.kind with
  | .workbegin _ => true
  | _ => false

def ExitEvent.isWorkend (e : ExitEvent) : Bool :=
  match e.kind with
  | .workend _ => true
  | _ => false

def ExitEvent.aborts (e : ExitEvent) : Bool :=
  match e.kind with
  | .fail code => code = -1
  | .userInterrupt => true
  | _ => false

/-- Work items alternate; `inside` says that an invocation is under way.  Any
other event may stand anywhere. -/
def alternates : Bool → List ExitEvent → Bool
  | _, [] => true
  | inside, e :: es =>
    if e.isWorkbegin then !inside && alternates true es
    else if e.isWorkend then inside && alternates false es
    else alternates inside es

def Call.quiet : Call → Bool
  | .print _ => true
  | .checkpoint _ => true
  | _ => false

theorem prints_configure {t : Template} {root : String} {args : Args} {c : Call}
    (h : c ∈ configure t root args) : ∃ text, c = .print text := by
  cases t with
  | runSim => exact ⟨root, List.mem_singleton.mp h⟩
  | twoMachine =>
    rw [configure, List.mem_pair] at h
    exact h.elim (⟨_, ·⟩) (⟨_, ·⟩)

theorem notMem_configure {c : Call} (h : ∀ text, c ≠ .print text) (t : Template) (root : String)
    (args : Args) : c ∉ configure t root args := fun hc =>
  let ⟨text, htext⟩ := prints_configure hc
  h text htext

theorem executeM5FailCode_state (args : Args) (s : State) (code : Int) :
    (executeM5FailCode args s code).state = s := by
  unfold executeM5FailCode
  split
  · rfl
  · dsimp only
    split <;> rfl

theorem executeM5FailCode_quiet (args : Args) (s : State) (code : Int) :
    ∀ c ∈ (executeM5FailCode args s code).calls, c.quiet = true := by
  unfold executeM5FailCode
  split
  · simp [Call.quiet]
  · dsimp only
    split <;> split <;> simp [Call.quiet, prYellow, prGreen]

theorem executeM5FailCode_ret (args : Args) (s : State) (code : Int) :
    (executeM5FailCode args s code).ret = some true ↔ code = -1 := by
  by_cases h : code = -1
  · subst h
    simp [executeM5FailCode, failCodes]
  · unfold executeM5FailCode
    split
    · simp [h]
    · dsimp only
      simp [h]

def switchCalls (t : Template) : List Call := t.machines.map .switchToMainCpu ++ [.statsReset]

/-- Everything the loop body can do in evaluation mode while an invocation is
still to be measured. -/
inductive Stepped (t : Template) (s : State) (e : ExitEvent) :
    Reactive.Reaction State Call → Prop
  | aborted (cs : List Call) (ha : e.aborts = true) (hb : e.isWorkbegin = false)
      (he : e.isWorkend = false) (hq : ∀ c ∈ cs, c.quiet = true) :
      Stepped t s e ⟨s, cs, true⟩
  | idle (cs : List Call) (ha : e.aborts = false) (hb : e.isWorkbegin = false)
      (he : e.isWorkend = false) (hq : ∀ c ∈ cs, c.quiet = true) :
      Stepped t s e ⟨s, cs, false⟩
  | begun (cs : List Call) (ha : e.aborts = false) (hb : e.isWorkbegin = true)
      (he : e.isWorkend = false) (hw : s.invToWarm ≠ 0) (hq : ∀ c ∈ cs, c.quiet = true) :
      Stepped t s e ⟨s, cs, false⟩
  | switched (cs : List Call) (ha : e.aborts = false) (hb : e.isWorkbegin = true)
      (he : e.isWorkend = false) (hw : s.invToWarm = 0) (hq : ∀ c ∈ cs, c.quiet = true) :
      Stepped t s e ⟨{ s with invToWarm := -1 },
        cs ++ switchCalls t, false⟩
  | warmed (cs : List Call) (ha : e.aborts = false) (hb : e.isWorkbegin = false)
      (he : e.isWorkend = true) (hw : 0 < s.invToWarm) (hq : ∀ c ∈ cs, c.quiet = true) :
      Stepped t s e ⟨{ s with invToWarm := s.invToWarm - 1 }, cs, false⟩
  | measured (cs : List Call) (ha : e.aborts = false) (hb : e.isWorkbegin = false)
      (he : e.isWorkend = true) (hw : s.invToWarm ≤ 0) (hm : 1 < s.invToMeasure)
      (hq : ∀ c ∈ cs, c.quiet = true) :
      Stepped t s e ⟨{ s with invToMeasure := s.invToMeasure - 1 }, cs, false⟩
  | finished (cs : List Call) (ha : e.aborts = false) (hb : e.isWorkbegin = false)
      (he : e.isWorkend = true) (hw : s.invToWarm ≤ 0) (hm : s.invToMeasure = 1)
      (hq : ∀ c ∈ cs, c.quiet = true) (hdone : prGreen "Measuring done" ∈ cs) :
      Stepped t s e ⟨{ s with invToMeasure := 0 }, cs ++ [.statsDump], true⟩

section Stepped

variable {args : Args} {s : State} {e : ExitEvent}

theorem stepped_of_fail (t : Template) {code : Int} (hk : e.kind = .fail code) :
    Stepped t s e (simulateStep t args s e) := by
  have hs := executeM5FailCode_state args s code
  have hq := executeM5FailCode_quiet args s code
  have hr := executeM5FailCode_ret args s code
  have hb : e.isWorkbegin = false := by simp [ExitEvent.isWorkbegin, hk]
  have he : e.isWorkend = false := by simp [ExitEvent.isWorkend, hk]
  have hq' : ∀ c ∈ startSimulation :: (executeM5FailCode args s code).calls,
      c.quiet = true := by
    intro c hc
    rcases List.mem_cons.mp hc with rfl | hc
    · rfl
    · exact hq c hc
  simp only [simulateStep, handle, hk, hs]
  by_cases hc : code = -1
  · simp only [hr.mpr hc, decide_true]
    exact .aborted _ (by simp [ExitEvent.aborts, hk, hc]) hb he hq'
  · simp only [mt hr.mp hc, decide_false]
    exact .idle _ (by simp [ExitEvent.aborts, hk, hc]) hb he hq'

theorem stepped_of_workbegin (t : Template) (hmode : args.mode = .evaluation) {id : Int}
    (hk : e.kind = .workbegin id) : Stepped t s e (simulateStep t args s e) := by
  have ha : e.aborts = false := by simp [ExitEvent.aborts, hk]
  have hb : e.isWorkbegin = true := by simp [ExitEvent.isWorkbegin, hk]
  have he : e.isWorkend = false := by simp [ExitEvent.isWorkend, hk]
  simp only [simulateStep, handle, hk, workitem, hmode, ne_eq, not_true_eq_false,
    if_false, if_true]
  rcases Int.lt_trichotomy s.invToWarm 0 with hw | hw | hw
  · simp only [show ¬ s.invToWarm > 0 by omega, if_false, show ¬ s.invToWarm = 0 by omega,
      reduceCtorEq, decide_false]
    exact .begun _ ha hb he (by omega) (by simp [startSimulation, prYellow, Call.quiet])
  · simp only [hw, gt_iff_lt, Int.lt_irrefl, if_false, if_true, reduceCtorEq, decide_false]
    exact .switched [startSimulation, prYellow _, prGreen _] ha hb he hw
      (by simp [startSimulation, prYellow, prGreen, Call.quiet])
  · simp only [show s.invToWarm > 0 from hw, if_true, reduceCtorEq, decide_false]
    exact .begun _ ha hb he (by omega) (by simp [startSimulation, prYellow, Call.quiet])

theorem stepped_of_workend (t : Template) (hmode : args.mode = .evaluation)
    (hm : 1 ≤ s.invToMeasure) {id : Int} (hk : e.kind = .workend id) :
    Stepped t s e (simulateStep t args s e) := by
  have ha : e.aborts = false := by simp [ExitEvent.aborts, hk]
  have hb : e.isWorkbegin = false := by simp [ExitEvent.isWorkbegin, hk]
  have he : e.isWorkend = true := by simp [ExitEvent.isWorkend, hk]
  simp only [simulateStep, handle, hk, workitem, hmode, ne_eq, not_true_eq_false,
    if_false, Bool.false_eq_true]
  by_cases hw : s.invToWarm > 0
  · simp only [hw, if_true, reduceCtorEq, decide_false]
    exact .warmed _ ha hb he hw (by simp [startSimulation, prYellow, Call.quiet])
  · simp only [hw, if_false, show s.invToMeasure > 0 by omega, if_true]
    by_cases h1 : s.invToMeasure = 1
    · simp only [h1, Int.sub_self, if_true, decide_true]
      exact .finished [startSimulation, prYellow _, prGreen _] ha hb he (by omega) h1
        (by simp [startSimulation, prYellow, prGreen, Call.quiet]) (by simp)
    · simp only [show ¬ s.invToMeasure - 1 = 0 by omega, if_false, reduceCtorEq, decide_false]
      exact .measured _ ha hb he (by omega) (by omega)
        (by simp [startSimulation, prYellow, Call.quiet])

theorem simulateStep_stepped (t : Template) (hmode : args.mode = .evaluation)
    (hm : 1 ≤ s.invToMeasure) (e : ExitEvent) : Stepped t s e (simulateStep t args s e) := by
  cases hk : e.kind with
  | fail code => exact stepped_of_fail t hk
  | workbegin id => exact stepped_of_workbegin t hmode hk
  | workend id => exact stepped_of_workend t hmode hm hk
  | userInterrupt =>
    simp only [simulateStep, handle, hk, decide_true]
    exact .aborted _ (by simp [ExitEvent.aborts, hk]) (by simp [ExitEvent.isWorkbegin, hk])
      (by simp [ExitEvent.isWorkend, hk]) (by simp [startSimulation, Call.quiet])
  | other cause code =>
    simp only [simulateStep, handle, hk, Option.some.injEq, Bool.false_eq_true, decide_false]
    exact .idle _ (by simp [ExitEvent.aborts, hk]) (by simp [ExitEvent.isWorkbegin, hk])
      (by simp [ExitEvent.isWorkend, hk]) (by simp [startSimulation, Call.quiet])

end Stepped

theorem countP_of_quiet {cs : List Call} {c : Call} (hc : c.quiet = false)
    (hq : ∀ c ∈ cs, c.quiet = true) : cs.countP (· == c) = 0 := by
  rw [List.countP_eq_zero]
  intro d hd h
  have hd' := hq d hd
  rw [beq_iff_eq.mp h, hc] at hd'
  cases hd'

theorem countP_switchCalls_statsDump (t : Template) :
    (switchCalls t).countP (· == .statsDump) = 0 := by
  cases t <;> decide

/-- Work ends still to be seen before the one that completes the run.  A
warming counter at the sentinel -1 and one that has run down to 0 both stand
for no warming. -/
def State.budget (s : State) : Nat := s.invToWarm.toNat + (s.invToMeasure - 1).toNat

section Runs

variable {args : Args} {s : State} {es : List ExitEvent} {n start : Nat}

theorem simulate_budget (t : Template) (start : Nat) (hmode : args.mode = .evaluation)
    (hm : 1 ≤ s.invToMeasure) (hn : s.budget = n) (hes : ∀ e ∈ es, e.aborts = false) :
    (simulate t args s es).stopped = ((es.findIdxs ExitEvent.isWorkend start)[n]?).isSome ∧
    start + (simulate t args s es).trace.length =
      (((es.findIdxs ExitEvent.isWorkend start)[n]?).map (· + 1)).getD (start + es.length) ∧
    Reactive.callTimes (· == .statsDump) (simulate t args s es).trace start =
      ((es.findIdxs ExitEvent.isWorkend start)[n]?).toList := by
  induction es generalizing s n start with
  | nil => simp [simulate]
  | cons e es ih =>
    have hes' := fun x hx => hes x (List.mem_cons_of_mem e hx)
    have hd : Call.statsDump.quiet = false := rfl
    have hstep := simulateStep_stepped t hmode hm e
    unfold State.budget at hn ih
    unfold simulate at ih ⊢
    rw [Reactive.run]
    generalize simulateStep t args s e = r at hstep ⊢
    cases hstep with
    | aborted cs ha => simp [hes e List.mem_cons_self] at ha
    | idle cs ha hb he hq =>
      have := ih (start + 1) hm hn hes'
      simpa [he, countP_of_quiet hd hq, Nat.add_assoc, Nat.add_comm 1] using this
    | begun cs ha hb he hw hq =>
      have := ih (start + 1) hm hn hes'
      simpa [he, countP_of_quiet hd hq, Nat.add_assoc, Nat.add_comm 1] using this
    | switched cs ha hb he hw hq =>
      have := @ih { s with invToWarm := -1 } n (start + 1) hm (by simp only; omega) hes'
      simpa [he, countP_of_quiet hd hq, countP_switchCalls_statsDump, Nat.add_assoc,
        Nat.add_comm 1] using this
    | warmed cs ha hb he hw hq =>
      obtain ⟨n, rfl⟩ : ∃ k, n = k + 1 := ⟨n - 1, by omega⟩
      have := @ih { s with invToWarm := s.invToWarm - 1 } n (start + 1) hm
        (by simp only; omega) hes'
      simpa [he, countP_of_quiet hd hq, Nat.add_assoc, Nat.add_comm 1] using this
    | measured cs ha hb he hw hm' hq =>
      obtain ⟨n, rfl⟩ : ∃ k, n = k + 1 := ⟨n - 1, by omega⟩
      have := @ih { s with invToMeasure := s.invToMeasure - 1 } n (start + 1)
        (by simp only; omega) (by simp only; omega) hes'
      simpa [he, countP_of_quiet hd hq, Nat.add_assoc, Nat.add_comm 1] using this
    | finished cs ha hb he hw hm' hq hdone =>
      obtain rfl : n = 0 := by omega
      simp [he, countP_of_quiet hd hq]

theorem simulate_callTimes_of_main (t : Template) (hmode : args.mode = .evaluation)
    (hm : 1 ≤ s.invToMeasure) (hw : s.invToWarm < 0) {c : Call} (hc : c.quiet = false)
    (hdump : c ≠ .statsDump) :
    Reactive.callTimes (· == c) (simulate t args s es).trace start = [] := by
  induction es generalizing s start with
  | nil => simp [simulate]
  | cons e es ih =>
    have hstep := simulateStep_stepped t hmode hm e
    unfold simulate at ih ⊢
    rw [Reactive.run]
    generalize simulateStep t args s e = r at hstep ⊢
    cases hstep with
    | aborted cs ha hb he hq => simp [countP_of_quiet hc hq]
    | idle cs ha hb he hq => simp [countP_of_quiet hc hq, ih hm hw]
    | begun cs ha hb he hw' hq => simp [countP_of_quiet hc hq, ih hm hw]
    | switched cs ha hb he hw' hq => omega
    | warmed cs ha hb he hw' hq => omega
    | measured cs ha hb he hw' hm' hq =>
      simp [countP_of_quiet hc hq, @ih { s with invToMeasure := s.invToMeasure - 1 } (start + 1)
        (by simp only; omega) hw]
    | finished cs ha hb he hw' hm' hq hdone =>
      simp [countP_of_quiet hc hq, hdump.symm]

/-- While the warming counter stands at `w`, the switch is still to come: at the
workbegin of the invocation after the `w` warming ones.  If an invocation is
under way, its own workbegin has been seen already. -/
theorem simulate_callTimes_of_warming (t : Template) (hmode : args.mode = .evaluation)
    (hm : 1 ≤ s.invToMeasure) {w : Nat} (hw : s.invToWarm = w) {inside : Bool}
    (hin : inside = true → 1 ≤ w) (hes : ∀ e ∈ es, e.aborts = false)
    (halt : alternates inside es = true) {c : Call} (hc : c.quiet = false)
    (hdump : c ≠ .statsDump) :
    Reactive.callTimes (· == c) (simulate t args s es).trace start =
      ((es.findIdxs ExitEvent.isWorkbegin start)[w - inside.toNat]?).toList.flatMap
        (List.replicate ((switchCalls t).countP (· == c))) := by
  induction es generalizing s start w inside with
  | nil => simp [simulate]
  | cons e es ih =>
    have hes' := fun x hx => hes x (List.mem_cons_of_mem e hx)
    have hstep := simulateStep_stepped t hmode hm e
    have hmain := @simulate_callTimes_of_main args { s with invToWarm := -1 } es (start + 1)
      t hmode hm (by simp) c hc hdump
    unfold simulate at ih hmain ⊢
    rw [Reactive.run]
    rw [alternates] at halt
    generalize simulateStep t args s e = r at hstep ⊢
    cases hstep with
    | aborted cs ha => simp [hes e List.mem_cons_self] at ha
    | idle cs ha hb he hq =>
      simp only [hb, he, Bool.false_eq_true, if_false] at halt
      simp [hb, countP_of_quiet hc hq, ih hm hw hin hes' halt]
    | begun cs ha hb he hw' hq =>
      simp only [hb, if_true, Bool.and_eq_true, Bool.not_eq_true'] at halt
      obtain ⟨w, rfl⟩ : ∃ v, w = v + 1 := ⟨w - 1, by omega⟩
      simp [hb, countP_of_quiet hc hq, halt.1, ih hm hw (by simp) hes' halt.2]
    | switched cs ha hb he hw' hq =>
      simp only [hb, if_true, Bool.and_eq_true, Bool.not_eq_true'] at halt
      obtain rfl : w = 0 := by omega
      simp [hb, countP_of_quiet hc hq, halt.1, hmain]
    | warmed cs ha hb he hw' hq =>
      simp only [hb, he, Bool.false_eq_true, if_false, if_true, Bool.and_eq_true] at halt
      obtain ⟨w, rfl⟩ : ∃ v, w = v + 1 := ⟨w - 1, by omega⟩
      have := @ih { s with invToWarm := s.invToWarm - 1 } (start + 1) hm w
        (by simp only; omega) false (by simp) hes' halt.2
      simpa [hb, countP_of_quiet hc hq, halt.1] using this
    | measured cs ha hb he hw' hm' hq =>
      simp only [hb, he, Bool.false_eq_true, if_false, if_true, Bool.and_eq_true] at halt
      have := hin halt.1
      omega
    | finished cs ha hb he hw' hm' hq hdone =>
      simp only [hb, he, Bool.false_eq_true, if_false, if_true, Bool.and_eq_true] at halt
      have := hin halt.1
      omega

end Runs

end VSwarm.RunSim
