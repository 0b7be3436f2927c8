import VSwarm.Defs.Simple.Setup

/-! The handlers of `run_sim.arm.tmpl.py`.  Its run script is the one of
`vswarm_simple.tmpl.py`, and so is `executeFail`; there is no handler for the work
items, and the last exit of a setup does not stop the simulation. -/

namespace VSwarm.Arm

open VSwarm.Lib VSwarm.Client VSwarm.Simple

/-- `executeExit`, suspended after its `n`-th `yield`.  The first five and the
evaluation are those of `vswarm_simple.py`. -/
def executeExit (args : Args) (n : Nat) : Yield Nat :=
  match args.mode, n with
  | .setup, 5 => ⟨6, [.print "6: Stop simulation"], some false⟩
  | .setup, 6 => ⟨7, [], some false⟩
  | .setup, 7 => ⟨8, [], some false⟩
  | .setup, 8 => ⟨9, [], some false⟩
  | .setup, 9 => ⟨10, [], some false⟩
  | _, n => Simple.executeExit args n

structure Handlers where
  exits : Nat := 0
  fails : Nat := 0

/-- gem5's own handlers: what they call and whether they stop the simulation. -/
structure Default where
  calls : ExitEvent → List Call
  stop : ExitEvent → Bool

def Default.complete {σ : Type} (d : Default) (e : ExitEvent) (y : Yield σ) : Yield σ :=
  if y.value = none then { y with calls := y.calls ++ d.calls e } else y

def Handlers.next (args : Args) (d : Default) (s : Handlers) : ExitEvent → Yield Handlers
  | .exit =>
    let y := executeExit args s.exits
    d.complete .exit ⟨{ s with exits := y.state }, y.calls, y.value⟩
  | .fail =>
    let y := executeFail args s.fails
    d.complete .fail ⟨{ s with fails := y.state }, y.calls, y.value⟩
  | e => d.complete e ⟨s, [], none⟩

def guestStep (args : Args) (d : Default) : Handlers → Step → Reactive.Reaction Handlers Call :=
  observe (reactTo (Handlers.next args d) d.stop)

def simulate (args : Args) (d : Default) (ss : List Step) : Reactive.Outcome Handlers Step Call :=
  Reactive.run (guestStep args d) {} ss

def setup (args : Args) (d : Default) (oracle : Nat → Response) :
    Reactive.Outcome Handlers Step Call :=
  simulate args d (guestSteps args oracle)

def evaluation (args' args : Args) (d : Default) (oracle : Nat → Response) (k : Nat) :
    Reactive.Outcome Handlers Step Call :=
  simulate args' d ((guestSteps args oracle).drop (k + 1))

/-- gem5's own handlers reset the statistics when a work item begins, dump them when
it ends, and stop at an exit. -/
structure Default.Measures (d : Default) : Prop where
  workbegin : d.stop .workbegin = false
  workbegin_calls : d.calls .workbegin = [.statsReset]
  workend : d.stop .workend = false
  workend_calls : d.calls .workend = [.statsDump]
  exit : d.stop .exit = true
  exit_calls : d.calls .exit = []

section Setup

variable {args : Args} {d : Default}

@[simp] theorem Default.complete_state {σ : Type} (e : ExitEvent) (y : Yield σ) :
    (d.complete e y).state = y.state := by
  rw [complete]
  split <;> rfl

@[simp] theorem Default.complete_value {σ : Type} (e : ExitEvent) (y : Yield σ) :
    (d.complete e y).value = y.value := by
  rw [complete]
  split <;> rfl

theorem Default.complete_of_value {σ : Type} (e : ExitEvent) {y : Yield σ} {b : Bool}
    (h : y.value = some b) : d.complete e y = y := by
  rw [complete, h]
  rfl

theorem executeExit_calls (args : Args) (n : Nat) :
    (executeExit args n).calls.countP Call.isCheckpoint = 0 := by
  rw [executeExit.eq_def]
  split <;> first | rfl | exact Simple.executeExit_calls args _

theorem executeExit_setup (hmode : args.mode = .setup) {n : Nat} (hn : n < 6) :
    (executeExit args n).value = some false ∧ (executeExit args n).state = n + 1 := by
  interval_cases n <;> simp [executeExit, Simple.executeExit, hmode]

theorem Default.countP_complete {σ : Type} {e : ExitEvent} {y : Yield σ}
    (hy : y.calls.countP Call.isCheckpoint = 0) (he : (d.calls e).countP Call.isCheckpoint = 0) :
    (d.complete e y).calls.countP Call.isCheckpoint = 0 := by
  rw [complete]
  split
  · rw [List.countP_append, hy, he]
  · exact hy

theorem next_exit_calls (hd : d.Measures) (s : Handlers) :
    (Handlers.next args d s .exit).calls.countP Call.isCheckpoint = 0 := by
  apply Default.countP_complete
  · exact executeExit_calls args s.exits
  · rw [hd.exit_calls]
    rfl

theorem next_fail (s : Handlers) : Handlers.next args d s .fail =
    ⟨{ s with fails := (executeFail args s.fails).state }, (executeFail args s.fails).calls,
      some false⟩ := by
  rw [Handlers.next, executeFail_value, Default.complete_of_value _ rfl]

theorem exit_stop (s : Handlers) : (guestStep args d s (.act .m5Exit)).stop =
    (executeExit args s.exits).value.getD (d.stop .exit) := by
  simp [guestStep, observe, exitEvent, reactTo, Handlers.next]

/-- The handlers of both scripts in a setup, with `ss` still to come before the last
exit. -/
structure Lockstep (s : Simple.Handlers) (a : Handlers) (ss : List Step) : Prop where
  listening : Listening s
  exits : s.exits = a.exits
  fails : s.fails = a.fails
  left : a.exits + ss.countP isExit ≤ 5

theorem lockstep_step (hd : d.Measures) (hmode : args.mode = .setup)
    {s : Simple.Handlers} {a : Handlers} {step : Step} {ss : List Step}
    (h : Lockstep s a (step :: ss)) :
    (Simple.guestStep args d.stop s step).stop = false ∧
      (guestStep args d a step).stop = false ∧
      (Simple.guestStep args d.stop s step).calls.countP Call.isCheckpoint =
        (guestStep args d a step).calls.countP Call.isCheckpoint ∧
      Lockstep (Simple.guestStep args d.stop s step).state (guestStep args d a step).state ss := by
  have hleft := h.left
  rw [List.countP_cons] at hleft
  have hexits : isExit step = true → s.exits < 5 := by
    intro hexit
    rw [if_pos hexit] at hleft
    rw [h.exits]
    omega
  have hstep := guestStep_setup d.stop hmode h.listening step hexits
  have hlistening := hstep.listening
  have hrest : a.exits + ss.countP isExit ≤ 5 := by omega
  refine ⟨hstep.stop, ?_⟩
  cases he : exitEvent step with
  | none =>
    rw [guestStep, observe_of_none he]
    rw [Simple.guestStep, observe_of_none he] at hlistening ⊢
    exact ⟨rfl, rfl, hlistening, h.exits, h.fails, hrest⟩
  | some e =>
    rw [guestStep, observe_of_event he]
    rw [Simple.guestStep, observe_of_event he] at hlistening ⊢
    cases e with
    | workbegin =>
      refine ⟨hd.workbegin, (workitems_calls args true s.begins).trans ?_, ?_⟩
      · simp [reactTo, Handlers.next, Default.complete, hd.workbegin_calls, Call.isCheckpoint]
      · exact ⟨hlistening, h.exits, h.fails, hrest⟩
    | workend =>
      refine ⟨hd.workend, (workitems_calls args false s.ends).trans ?_, ?_⟩
      · simp [reactTo, Handlers.next, Default.complete, hd.workend_calls, Call.isCheckpoint]
      · exact ⟨hlistening, h.exits, h.fails, hrest⟩
    | exit =>
      have hexit : isExit step = true := by simp [isExit, he]
      have hlt := hexits hexit
      -- up to the fifth exit both scripts yield the same
      obtain ⟨-, hsimple⟩ := Simple.executeExit_setup hmode hlt
      obtain ⟨hvalue, harm⟩ := executeExit_setup hmode (show a.exits < 6 by rw [← h.exits]; omega)
      rw [if_pos hexit] at hleft
      have hnext : Handlers.next args d a .exit =
          ⟨{ a with exits := a.exits + 1 }, (executeExit args a.exits).calls, some false⟩ := by
        rw [Handlers.next, hvalue, harm, Default.complete_of_value _ rfl]
      rw [reactTo, hnext]
      refine ⟨rfl, ?_, hlistening, ?_, h.fails, ?_⟩
      · exact (Simple.executeExit_calls args s.exits).trans (executeExit_calls args a.exits).symm
      · show (Simple.executeExit args s.exits).state = a.exits + 1
        rw [hsimple, h.exits]
      · show a.exits + 1 + ss.countP isExit ≤ 5
        omega
    | fail =>
      rw [reactTo, next_fail]
      refine ⟨rfl, ?_, hlistening, h.exits, ?_, hrest⟩
      · show (executeFail args s.fails).calls.countP _ = (executeFail args a.fails).calls.countP _
        rw [h.fails]
      · show (executeFail args s.fails).state = (executeFail args a.fails).state
        rw [h.fails]

end Setup

section Evaluation

variable {args : Args} {d : Default}

def measuring (step : Step) : List Call :=
  match exitEvent step with
  | some .workbegin => [.statsReset]
  | some .workend => [.statsDump]
  | _ => []

theorem guestStep_quiet (hd : d.Measures) (s : Handlers) {step : Step} (hexit : isExit step = false)
    (hfail : isFail step = false) : guestStep args d s step = ⟨s, measuring step, false⟩ := by
  cases he : exitEvent step with
  | none => rw [guestStep, observe_of_none he, measuring, he]
  | some e =>
    rw [guestStep, observe_of_event he, measuring, he]
    cases e with
    | workbegin =>
      simp [reactTo, Handlers.next, Default.complete, hd.workbegin, hd.workbegin_calls]
    | workend => simp [reactTo, Handlers.next, Default.complete, hd.workend, hd.workend_calls]
    | exit => simp [isExit, he] at hexit
    | fail => simp [isFail, he] at hfail

theorem run_quiet (hd : d.Measures) (s : Handlers) {ss : List Step}
    (hexit : ss.countP isExit = 0) (hfail : ss.countP isFail = 0) :
    Reactive.run (guestStep args d) s ss =
      ⟨s, ss.map fun step => (step, measuring step), false⟩ := by
  induction ss with
  | nil => rfl
  | cons step ss ih =>
    rw [List.countP_eq_zero] at hexit hfail
    obtain ⟨hstep, hss⟩ := List.forall_mem_cons.mp hexit
    obtain ⟨hstep', hss'⟩ := List.forall_mem_cons.mp hfail
    have hquiet := @guestStep_quiet args d hd s step (by simpa using hstep) (by simpa using hstep')
    rw [Reactive.run_cons_of_continue (by rw [hquiet]), hquiet,
      ih (List.countP_eq_zero.mpr hss) (List.countP_eq_zero.mpr hss')]
    rfl

theorem simulate_evaluation (hd : d.Measures) (hmode : args.mode = .evaluation)
    {ss rest : List Step} (hexit : ss.countP isExit = 0) (hfail : ss.countP isFail = 0) :
    simulate args d (ss ++ .act .m5Exit :: rest) =
      ⟨{ exits := 1 }, (ss.map fun step => (step, measuring step)) ++
        [(.act .m5Exit, [.print "Simulation done", .statsDump, .exit])], true⟩ := by
  have hstep : guestStep args d {} (.act .m5Exit) =
      ⟨{ exits := 1 }, [.print "Simulation done", .statsDump, .exit], true⟩ := by
    simp [guestStep, observe, exitEvent, reactTo, Handlers.next, Default.complete, executeExit,
      Simple.executeExit, hmode, hd.exit, hd.exit_calls]
  have hquiet := @run_quiet args d hd {} ss hexit hfail
  rw [simulate, Reactive.run_append_of_running (by rw [hquiet]), hquiet,
    Reactive.run_cons_of_stop (by rw [hstep]), hstep]

theorem flatMap_measuring_invocations (oracle : Nat → Response) (i n left : Nat) :
    (invocations oracle true i n left).flatMap measuring =
      (List.replicate left [.statsReset, .statsDump]).flatten := by
  induction left generalizing i n with
  | zero => rfl
  | succ left ih =>
    rw [invocations, List.replicate_succ, List.flatten_cons, ← ih (i + 1) (n + 1)]
    rfl

end Evaluation

section Runs

variable {args : Args} {d : Default}

theorem setup_spec (hd : d.Measures) (hmode : args.mode = .setup)
    (oracle : Nat → Response) :
    (setup args d oracle).stopped = false ∧
      Reactive.callTimes Call.isCheckpoint (setup args d oracle).trace 0 =
        (((clientSteps args oracle).findIdxs isFail 8).take 3).drop 2 := by
  obtain ⟨opening, hlength, hexit, hfail, -, -, hsteps⟩ := guestSteps_eq args oracle
  let front := opening ++ clientSteps args oracle ++ [.act .m5Exit, .act .m5Exit]
  have hfront : guestSteps args oracle = front ++ [.act .m5Exit] := by simp [hsteps, front]
  have hexits : front.countP isExit = 5 := by
    simp [front, hexit, countP_isExit_clientSteps, isExit, exitEvent]
  have hstart : Lockstep {} {} front := ⟨⟨rfl, rfl⟩, rfl, rfl, by simp [hexits]⟩
  obtain ⟨hsimple, hrunning, htimes, hend⟩ := Reactive.callTimes_lockstep
    (fun _ _ _ _ => lockstep_step hd hmode) hstart 0
  have hsimpleTimes := simulateGuest_callTimes d.stop oracle hmode
  rw [simulateGuest, hfront,
    Reactive.callTimes_run_concat hsimple (Simple.executeExit_calls args _), htimes] at hsimpleTimes
  rw [setup, simulate, hfront, Reactive.callTimes_run_concat hrunning (next_exit_calls hd _)]
  refine ⟨?_, hsimpleTimes⟩
  have hlast : (guestStep args d (Reactive.run (guestStep args d) {} front).state
      (.act .m5Exit)).stop = false := by
    have hleft := hend.left
    rw [List.countP_nil, Nat.add_zero] at hleft
    obtain ⟨hvalue, -⟩ := executeExit_setup hmode (Nat.lt_succ_of_le hleft)
    rw [exit_stop, hvalue]
    rfl
  rw [Reactive.run_append_of_running hrunning, Reactive.run_cons_of_continue hlast]
  rfl

theorem guestStep_checkpoint (hd : d.Measures) {s : Handlers} {step : Step} {path : String}
    (h : .checkpoint path ∈ (guestStep args d s step).calls) : path = ckpPath args := by
  have hnone : ∀ {cs : List Call}, cs.countP Call.isCheckpoint = 0 → .checkpoint path ∉ cs :=
    fun hcs hmem => absurd rfl (List.countP_eq_zero.mp hcs _ hmem)
  cases he : exitEvent step with
  | none =>
    rw [guestStep, observe_of_none he] at h
    cases h
  | some e =>
    rw [guestStep, observe_of_event he] at h
    cases e with
    | workbegin =>
      refine absurd h (hnone (Default.countP_complete rfl ?_))
      rw [hd.workbegin_calls]
      rfl
    | workend =>
      refine absurd h (hnone (Default.countP_complete rfl ?_))
      rw [hd.workend_calls]
      rfl
    | exit => exact absurd h (hnone (next_exit_calls hd s))
    | fail =>
      rw [reactTo, next_fail] at h
      have hsimple : .checkpoint path ∈
          (Simple.guestStep args d.stop { fails := s.fails } step).calls := by
        rw [Simple.guestStep, observe_of_event he]
        exact h
      exact Call.checkpoint.inj (Simple.guestStep_checkpoint hsimple rfl)

theorem length_warmup (oracle : Nat → Response) (n : Nat) (w : Int) :
    (warmup oracle n w).length = 4 + w.toNat := by
  simp only [warmup, List.length_cons, length_invocations_false]
  omega

def Warmed (args : Args) (oracle : Nat → Response) : Prop :=
  0 < args.atomicWarming ∧ flagInt args.atomicWarming = some args.atomicWarming ∧
    flagInt args.numInvocations = some args.numInvocations ∧ (oracle 0).err = none

instance (args : Args) (oracle : Nat → Response) : Decidable (Warmed args oracle) :=
  inferInstanceAs (Decidable (_ ∧ _ ∧ _ ∧ _))

theorem callTimes_setup (hd : d.Measures) (hmode : args.mode = .setup)
    (oracle : Nat → Response) :
    Reactive.callTimes Call.isCheckpoint (setup args d oracle).trace 0 =
      if Warmed args oracle then [12 + args.atomicWarming.toNat] else [] := by
  rw [(setup_spec hd hmode oracle).2]
  split
  · rename_i hwarm
    obtain ⟨hpos, hw, hn, hinit⟩ := hwarm
    rw [clientSteps_of_flags oracle hn hw, findIdxs_isFail_session hpos hinit, length_warmup]
    simp
    omega
  · rename_i hwarm
    apply List.drop_eq_nil_of_le
    have hfails : ¬2 < (clientSteps args oracle).countP isFail :=
      fun hfails => hwarm (warm_of_fails hfails)
    rw [List.length_take, List.length_findIdxs]
    omega

theorem drop_guestSteps {oracle : Nat → Response} (h : Warmed args oracle) :
    (guestSteps args oracle).drop (12 + args.atomicWarming.toNat + 1) =
      invocations oracle true 0 (2 + args.atomicWarming.toNat) args.numInvocations.toNat ++
        .act .m5Exit :: [.act .m5Exit, .act .m5Exit] := by
  obtain ⟨hpos, hw, hn, hinit⟩ := h
  obtain ⟨opening, hlength, -, -, -, -, hsteps⟩ := guestSteps_eq args oracle
  rw [clientSteps_of_flags oracle hn hw, session_of_warm hpos hinit] at hsteps
  have hsplit : guestSteps args oracle =
      (opening ++ warmup oracle 0 args.atomicWarming ++ [.act (.m5Fail 32)]) ++
        (invocations oracle true 0 (2 + args.atomicWarming.toNat) args.numInvocations.toNat ++
          .act .m5Exit :: [.act .m5Exit, .act .m5Exit]) := by
    simp [hsteps]
  rw [hsplit]
  apply List.drop_left'
  simp only [List.length_append, hlength, length_warmup, List.length_singleton]
  omega

end Runs

theorem setup_then_evaluation {args args' : Args} {d : Default}
    (hd : d.Measures) (oracle : Nat → Response) (hmode : args.mode = .setup)
    (hmode' : args'.mode = .evaluation) (hfunction : args'.function = args.function)
    (hdir : args'.checkpointDir = args.checkpointDir) :
    (setup args d oracle).stopped = false ∧
    (setup args d oracle).trace.map Prod.fst = guestSteps args oracle ∧
    Reactive.callTimes Call.isCheckpoint (setup args d oracle).trace 0 =
      (if Warmed args oracle then [12 + args.atomicWarming.toNat] else []) ∧
    (∀ path, .checkpoint path ∈ (setup args d oracle).calls →
      workloadCheckpoint args' = some path) ∧
    ∀ k ∈ Reactive.callTimes Call.isCheckpoint (setup args d oracle).trace 0,
      (evaluation args' args d oracle k).stopped = true ∧
      (evaluation args' args d oracle k).trace.map Prod.fst =
        invocations oracle true 0 (2 + args.atomicWarming.toNat) args.numInvocations.toNat ++
          [.act .m5Exit] ∧
      (evaluation args' args d oracle k).calls =
        (List.replicate args.numInvocations.toNat [.statsReset, .statsDump]).flatten ++
          [.print "Simulation done", .statsDump, .exit] := by
  obtain ⟨hrunning, -⟩ := setup_spec hd hmode oracle
  have htimes := callTimes_setup hd hmode oracle
  refine ⟨hrunning, Reactive.map_fst_trace_of_running hrunning, htimes, ?_, ?_⟩
  · intro path hpath
    obtain ⟨s, step, -, hstep⟩ := Reactive.mem_calls_run hpath
    rw [guestStep_checkpoint hd hstep, workloadCheckpoint, if_pos hmode', ckpPath, ckpPath,
      hfunction, hdir]
  · intro k hk
    rw [htimes] at hk
    split at hk
    · rename_i hwarm
      obtain rfl := List.mem_singleton.mp hk
      rw [evaluation, drop_guestSteps hwarm, simulate_evaluation hd hmode'
        (countP_invocations (fun _ => rfl) (fun _ => ⟨rfl, rfl⟩))
        (countP_invocations (fun _ => rfl) (fun _ => ⟨rfl, rfl⟩))]
      refine ⟨rfl, ?_, ?_⟩
      · rw [List.map_append, List.map_map]
        exact congrArg (· ++ _) (List.map_id _)
      · rw [Reactive.Outcome.calls, List.flatMap_append, List.flatMap_map]
        exact congrArg (· ++ _) (flatMap_measuring_invocations oracle 0 _ _)
    · cases hk

theorem setup_then_evaluation_two :
    let args : Args := { atomicWarming := 2, numInvocations := 1 }
    let d : Default :=
      { calls := fun | .workbegin => [.statsReset] | .workend => [.statsDump] | _ => [],
        stop := (· = .exit) }
    (evaluation { args with mode := .evaluation } args d (fun _ => ⟨"ok", none⟩) 14).calls =
      [.statsReset, .statsDump, .print "Simulation done", .statsDump, .exit] := by
  intro args d
  obtain ⟨-, -, htimes, -, heval⟩ := @setup_then_evaluation args { args with mode := .evaluation }
    d ⟨rfl, rfl, rfl, rfl, rfl, rfl⟩ (fun _ => ⟨"ok", none⟩) rfl rfl rfl rfl
  exact (heval 14 (by rw [htimes]; decide)).2.2

end VSwarm.Arm
