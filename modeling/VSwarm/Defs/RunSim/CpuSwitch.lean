import VSwarm.Defs.RunSim.Log

namespace VSwarm.RunSim

open VSwarm.Lib

/-- `m5.switchCpus`, on the cores that run; there is no result if it raises. -/
def switchCpus (old new cpu : Cpu) : Option Cpu := if cpu = old then some new else none

def Call.switch (m : Machine) (cpu : Cpu) : Call → Option Cpu
  | .switchToAtomicCpu m' => if m' = m then switchCpus .main .atomic cpu else some cpu
  | .switchToMainCpu m' => if m' = m then switchCpus .atomic .main cpu else some cpu
  | _ => some cpu

def Call.isSwitch : Call → Bool
  | .switchToAtomicCpu _ => true
  | .switchToMainCpu _ => true
  | _ => false

def State.cpu (t : Template) (m : Machine) (s : State) : Cpu :=
  if m ∈ t.machines ∧ 0 ≤ s.invToWarm then .atomic else .main

section Switch

variable {t : Template} {m : Machine} {args : Args} {s : State}

theorem foldlM_switch_of_none {calls : List Call} (h : ∀ c ∈ calls, c.isSwitch = false)
    (cpu : Cpu) : calls.foldlM (Call.switch m) cpu = some cpu := by
  induction calls with
  | nil => rfl
  | cons c calls ih =>
    obtain ⟨hc, hcalls⟩ := List.forall_mem_cons.mp h
    have hswitch : Call.switch m cpu c = some cpu := by
      cases c with
      | switchToAtomicCpu m' => cases hc
      | switchToMainCpu m' => cases hc
      | _ => rfl
    rw [List.foldlM_cons, hswitch]
    exact ih hcalls

theorem foldlM_switchToMainCpu (t : Template) (m : Machine) :
    (t.machines.map Call.switchToMainCpu).foldlM (Call.switch m)
      (if m ∈ t.machines then .atomic else .main) = some .main := by
  cases t <;> cases m <;> rfl

theorem foldlM_switchToAtomicCpu (t : Template) (m : Machine) :
    (t.machines.map Call.switchToAtomicCpu).foldlM (Call.switch m) .main =
      some (if m ∈ t.machines then .atomic else .main) := by
  cases t <;> cases m <;> rfl

theorem State.cpu_of_neg (h : s.invToWarm < 0) : s.cpu t m = .main := by
  rw [State.cpu, if_neg]
  omega

theorem State.cpu_of_nonneg (h : 0 ≤ s.invToWarm) :
    s.cpu t m = if m ∈ t.machines then .atomic else .main := by
  simp only [State.cpu, h, and_true]

theorem State.cpu_congr {s' : State} (h : 0 ≤ s'.invToWarm ↔ 0 ≤ s.invToWarm) :
    s'.cpu t m = s.cpu t m := by
  simp only [State.cpu, h]

def Follows (t : Template) (m : Machine) (s : State) (h : Handled) : Prop :=
  h.calls.foldlM (Call.switch m) (s.cpu t m) = some (h.state.cpu t m)

theorem follows_of_none {h : Handled} (hcalls : ∀ c ∈ h.calls, c.isSwitch = false)
    (hwarm : 0 ≤ h.state.invToWarm ↔ 0 ≤ s.invToWarm) : Follows t m s h := by
  rw [Follows, foldlM_switch_of_none hcalls, State.cpu_congr hwarm]

theorem follows_workbegin (args : Args) (s : State) (id : Int) :
    Follows t m s (workitem t args s true id) := by
  rw [workitem]
  split
  · exact follows_of_none (by simp) Iff.rfl
  · simp only [if_true]
    split
    · exact follows_of_none (by simp [prYellow, Call.isSwitch]) Iff.rfl
    · split
      · rename_i hzero
        have hmain : ({ s with invToWarm := -1 } : State).cpu t m = .main :=
          State.cpu_of_neg (show (-1 : Int) < 0 by decide)
        have hprint : ∀ c ∈ [prYellow ("Start invokation: " ++ toString (id - 100)),
            prGreen "Warming done"], c.isSwitch = false := by
          simp [prYellow, prGreen, Call.isSwitch]
        rw [Follows, State.cpu_of_nonneg (by omega), hmain, List.foldlM_append, List.foldlM_append,
          foldlM_switch_of_none hprint, Option.bind_eq_bind, Option.bind_some,
          foldlM_switchToMainCpu]
        rfl
      · exact follows_of_none (by simp [prYellow, Call.isSwitch]) Iff.rfl

theorem follows_workend (args : Args) (s : State) (id : Int) :
    Follows t m s (workitem t args s false id) := by
  rw [workitem]
  split
  · exact follows_of_none (by simp) Iff.rfl
  · simp only [Bool.false_eq_true, if_false]
    split
    · apply follows_of_none (by simp [prYellow, Call.isSwitch])
      simp only
      omega
    · -- the measuring counter has no part in it
      split <;> split <;>
        exact follows_of_none (by simp [prYellow, prGreen, Call.isSwitch]) Iff.rfl

theorem follows_handle (t : Template) (m : Machine) (args : Args) (s : State) (e : ExitEvent) :
    Follows t m s (handle t args s e) := by
  rw [handle]
  cases e.kind with
  | fail code =>
    apply follows_of_none
    · intro c hc
      have hquiet := executeM5FailCode_quiet args s code c hc
      cases c with
      | print text => rfl
      | checkpoint path => rfl
      | _ => cases hquiet
    · rw [executeM5FailCode_state]
  | workbegin id => exact follows_workbegin args s id
  | workend id => exact follows_workend args s id
  | userInterrupt => exact follows_of_none (by simp [Call.isSwitch]) Iff.rfl
  | other cause code => exact follows_of_none (by simp [Call.isSwitch]) Iff.rfl

theorem foldlM_switch_step (t : Template) (m : Machine) (args : Args) (s : State) (e : ExitEvent) :
    (simulateStep t args s e).calls.foldlM (Call.switch m) (s.cpu t m) =
      some ((simulateStep t args s e).state.cpu t m) :=
  follows_handle t m args s e

theorem foldlM_switch_simulate (t : Template) (m : Machine) (args : Args) (s : State)
    (es : List ExitEvent) :
    (simulate t args s es).calls.foldlM (Call.switch m) (s.cpu t m) =
      some ((simulate t args s es).state.cpu t m) := by
  induction es generalizing s with
  | nil => rfl
  | cons e es ih =>
    have hstep := foldlM_switch_step t m args s e
    rw [simulate] at ih ⊢
    cases hstop : (simulateStep t args s e).stop with
    | true =>
      rw [Reactive.run_cons_of_stop hstop]
      simpa [Reactive.Outcome.calls] using hstep
    | false =>
      rw [Reactive.run_cons_of_continue hstop]
      simp only [Reactive.Outcome.calls, List.flatMap_cons] at ih ⊢
      rw [List.foldlM_append, hstep]
      exact ih (simulateStep t args s e).state

theorem isSwitch_configure : ∀ c ∈ configure t root args, c.isSwitch = false := by
  intro c hc
  obtain ⟨text, rfl⟩ := prints_configure hc
  rfl

theorem isSwitch_settle : ∀ c ∈ settle t root args, c.isSwitch = false := by
  intro c hc
  simp only [settle, List.mem_append, List.mem_cons, List.not_mem_nil, or_false] at hc
  rcases hc with hc | rfl | rfl | rfl
  · exact isSwitch_configure c hc
  · rfl
  · rfl
  · rfl

theorem foldlM_switch_startup (t : Template) (m : Machine) (root : String) (args : Args) :
    (settle t root args ++ arm t args).foldlM (Call.switch m) .main =
      some ((armed args).cpu t m) := by
  rw [List.foldlM_append, foldlM_switch_of_none isSwitch_settle, Option.bind_eq_bind,
    Option.bind_some, arm, List.foldlM_append]
  by_cases hwarm : args.atomicWarming > 0
  · have hcpu : (armed args).cpu t m = if m ∈ t.machines then .atomic else .main := by
      apply State.cpu_of_nonneg
      simp only [armed, if_pos hwarm]
      omega
    rw [if_pos hwarm, foldlM_switchToAtomicCpu, hcpu]
    rfl
  · have hcpu : (armed args).cpu t m = .main := by
      apply State.cpu_of_neg
      simp only [armed, if_neg hwarm]
      decide
    rw [if_neg hwarm, hcpu]
    rfl

theorem eq_of_switchCpus {p : Prop} [Decidable p] {old new cpu next : Cpu}
    (h : (if p then switchCpus old new cpu else some cpu) = some next) :
    (if p then new else cpu) = next := by
  by_cases hp : p
  · rw [if_pos hp, switchCpus, Option.ite_none_right_eq_some] at h
    rw [if_pos hp]
    exact Option.some.inj h.2
  · rw [if_neg hp] at h ⊢
    exact Option.some.inj h

theorem foldl_cpu_of_foldlM_switch {calls : List Call} {cpu cpu' : Cpu}
    (h : calls.foldlM (Call.switch m) cpu = some cpu') : calls.foldl (Call.cpu m) cpu = cpu' := by
  induction calls generalizing cpu with
  | nil => exact Option.some.inj h
  | cons c calls ih =>
    rw [List.foldlM_cons, Option.bind_eq_bind, Option.bind_eq_some_iff] at h
    obtain ⟨next, hnext, htail⟩ := h
    have hcpu : Call.cpu m cpu c = next := by
      cases c with
      | switchToAtomicCpu m' => exact eq_of_switchCpus hnext
      | switchToMainCpu m' => exact eq_of_switchCpus hnext
      | _ => exact Option.some.inj hnext
    rw [List.foldl_cons, hcpu]
    exact ih htail

theorem foldlM_switch_calls {startup : List Call} {s : State} {es : List ExitEvent}
    (h : startup.foldlM (Call.switch m) .main = some (s.cpu t m)) :
    (Execution.calls t ⟨startup, some (simulate t args s es)⟩).foldlM (Call.switch m) .main =
      some ((simulate t args s es).state.cpu t m) := by
  have htail : ∀ c ∈ simulateTail t (simulate t args s es).stopped, c.isSwitch = false := by
    cases t <;> cases (simulate _ args s es).stopped <;>
      simp [simulateTail, Call.isSwitch, prGreen, startSimulation]
  simp only [Execution.calls]
  rw [List.foldlM_append, h, Option.bind_eq_bind, Option.bind_some, List.foldlM_append,
    foldlM_switch_simulate, Option.bind_eq_bind, Option.bind_some, foldlM_switch_of_none htail]

theorem exists_foldlM_switch (t : Template) (root : String) (args : Args)
    (events : List ExitEvent) (m : Machine) :
    ∃ cpu, ((m5Main t root args events).calls t).foldlM (Call.switch m) .main = some cpu := by
  cases hmode : args.mode with
  | setup =>
    have hmode' : ∀ c ∈ [Call.print "--- Setup Mode ---", .instantiate none],
        c.isSwitch = false := by simp [Call.isSwitch]
    have hmain : ({} : State).cpu t m = .main := State.cpu_of_neg (show (-1 : Int) < 0 by decide)
    simp only [m5Main, hmode]
    refine ⟨_, foldlM_switch_calls ?_⟩
    rw [List.foldlM_append, foldlM_switch_of_none isSwitch_configure, Option.bind_eq_bind,
      Option.bind_some, foldlM_switch_of_none hmode', hmain]
  | evaluation =>
    cases events with
    | nil =>
      refine ⟨.main, ?_⟩
      apply foldlM_switch_of_none
      simpa only [m5Main, hmode, Execution.calls, List.append_nil] using isSwitch_settle
    | cons first events =>
      rw [m5Main_evaluation t root hmode]
      exact ⟨_, foldlM_switch_calls (foldlM_switch_startup t m root args)⟩

end Switch

theorem m5Main_switches (t : Template) (root : String) (args : Args) (events : List ExitEvent)
    (m : Machine) :
    ((m5Main t root args events).calls t).foldlM (Call.switch m) .main =
      some (activeCpu m ((m5Main t root args events).calls t)) := by
  obtain ⟨cpu, hcpu⟩ := exists_foldlM_switch t root args events m
  rw [hcpu, activeCpu, foldl_cpu_of_foldlM_switch hcpu]

end VSwarm.RunSim
