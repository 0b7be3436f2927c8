import Mathlib.Tactic.IntervalCases
import VSwarm.Defs.Simple.Handlers

namespace VSwarm.Simple

open VSwarm.Lib VSwarm.Client

def Call.isCheckpoint : Call → Bool
  | .checkpoint _ => true
  | _ => false

def isExit (s : Step) : Bool := exitEvent s = some .exit

def isFail (s : Step) : Bool := exitEvent s = some .fail

/-- The run takes one checkpoint, when all warming requests have been answered
and no instrumented invocation has begun, and it is the one that an evaluation
of the same function restores. -/
def TakesWarmCheckpoint (args : Args) (fallback : ExitEvent → Bool) (oracle : Nat → Response) :
    Prop :=
  ∃ k, Reactive.callTimes Call.isCheckpoint (simulateGuest args fallback oracle).trace 0 = [k] ∧
    (((guestSteps args oracle).take k).countP answersInvoke : Int) = args.atomicWarming ∧
    (∀ id, .act (.workBegin id) ∉ (guestSteps args oracle).take (k + 1)) ∧
    ∀ args' : Args, args'.mode = .evaluation → args'.function = args.function →
      args'.checkpointDir = args.checkpointDir →
      ∃ path, workloadCheckpoint args' = some path ∧
        .checkpoint path ∈ (simulateGuest args fallback oracle).calls

section Steps

variable {args : Args} {s : Handlers}

theorem workitems_calls (args : Args) (start : Bool) (g : Workitems) :
    (workitems args start g).calls.countP Call.isCheckpoint = 0 := by
  simp only [workitems]
  split
  · rfl
  · split <;> split <;> rfl

theorem workitems_setup (start : Bool) (hmode : args.mode = .setup) {g : Workitems}
    (hg : g.afterTrue = false) :
    (workitems args start g).value = some false ∧
      (workitems args start g).state.afterTrue = false := by
  simp [workitems, hmode, hg]

theorem executeExit_calls (args : Args) (n : Nat) :
    (executeExit args n).calls.countP Call.isCheckpoint = 0 := by
  unfold executeExit
  split <;> rfl

theorem executeExit_setup (hmode : args.mode = .setup) {n : Nat} (hn : n < 5) :
    (executeExit args n).value = some false ∧ (executeExit args n).state = n + 1 := by
  interval_cases n <;> simp [executeExit, hmode]

theorem executeFail_setup (hmode : args.mode = .setup) (n : Nat) :
    min 3 (executeFail args n).state = min 3 (n + 1) ∧
      (executeFail args n).calls.countP Call.isCheckpoint = if n = 2 then 1 else 0 := by
  match n with
  | 0 | 1 | 2 => simp [executeFail, hmode, Call.isCheckpoint]
  | n + 3 => simp [executeFail, Call.isCheckpoint]

structure Listening (s : Handlers) : Prop where
  begins : s.begins.afterTrue = false
  ends : s.ends.afterTrue = false

structure SetUp (s : Handlers) (step : Step) (r : Reactive.Reaction Handlers Call) : Prop where
  stop : r.stop = false
  listening : Listening r.state
  exits : r.state.exits = s.exits + if isExit step then 1 else 0
  fails : min 3 r.state.fails = min 3 (s.fails + if isFail step then 1 else 0)
  checkpoints : r.calls.countP Call.isCheckpoint = if isFail step ∧ s.fails = 2 then 1 else 0

theorem guestStep_setup (fallback : ExitEvent → Bool) (hmode : args.mode = .setup)
    (hs : Listening s) (step : Step)
    (hexits : isExit step = true → s.exits < 5) :
    SetUp s step (guestStep args fallback s step) := by
  cases hstep : exitEvent step with
  | none => constructor <;> simp [guestStep, observe, isExit, isFail, hstep, hs]
  | some e =>
    cases e with
    | workbegin =>
      obtain ⟨hvalue, hafter⟩ := workitems_setup true hmode hs.begins
      constructor <;>
        simp [guestStep, observe, simulatorStep, reactTo, Handlers.next, isExit, isFail, hstep,
          hvalue, workitems_calls]
      exact ⟨hafter, hs.ends⟩
    | workend =>
      obtain ⟨hvalue, hafter⟩ := workitems_setup false hmode hs.ends
      constructor <;>
        simp [guestStep, observe, simulatorStep, reactTo, Handlers.next, isExit, isFail, hstep,
          hvalue, workitems_calls]
      exact ⟨hs.begins, hafter⟩
    | exit =>
      obtain ⟨hvalue, hnext⟩ := executeExit_setup hmode (hexits (by simp [isExit, hstep]))
      constructor <;>
        simp [guestStep, observe, simulatorStep, reactTo, Handlers.next, isExit, isFail, hstep,
          hvalue, hnext, executeExit_calls]
      exact ⟨hs.begins, hs.ends⟩
    | fail =>
      have hvalue := executeFail_value args s.fails
      obtain ⟨hfails, hcalls⟩ := executeFail_setup hmode s.fails
      constructor <;>
        simp [guestStep, observe, simulatorStep, reactTo, Handlers.next, isExit, isFail, hstep,
          hvalue, hfails, hcalls]
      exact ⟨hs.begins, hs.ends⟩

end Steps

theorem run_guestStep_setup {args : Args} (fallback : ExitEvent → Bool) (hmode : args.mode = .setup)
    {s : Handlers} (hs : Listening s) {ss : List Step} (hexits : s.exits + ss.countP isExit ≤ 5)
    (start : Nat) :
    (Reactive.run (guestStep args fallback) s ss).stopped = false ∧
      Reactive.callTimes Call.isCheckpoint
          (Reactive.run (guestStep args fallback) s ss).trace start =
        ((ss.findIdxs isFail start).take (3 - s.fails)).drop (2 - s.fails) := by
  induction ss generalizing s start with
  | nil => simp
  | cons step ss ih =>
    rw [List.countP_cons] at hexits
    have hstep := guestStep_setup fallback hmode hs step (by
      intro h
      rw [if_pos h] at hexits
      omega)
    have hnext := ih hstep.listening (by rw [hstep.exits]; omega) (start + 1)
    have hfails := hstep.fails
    rw [Reactive.run_cons_of_continue hstep.stop]
    refine ⟨hnext.1, ?_⟩
    rw [Reactive.callTimes_cons, hnext.2, hstep.checkpoints, List.findIdxs_cons]
    cases hfail : isFail step with
    | false =>
      have hsub : ∀ n, n ≤ 3 → n - (guestStep args fallback s step).state.fails = n - s.fails := by
        simp only [hfail, Bool.false_eq_true, if_false] at hfails
        intro n hn
        omega
      simp [hsub]
    | true =>
      simp only [hfail, if_true] at hfails
      obtain h | h | h | h : s.fails = 0 ∨ s.fails = 1 ∨ s.fails = 2 ∨ 3 ≤ s.fails := by omega
      · have hf : (guestStep args fallback s step).state.fails = 1 := by omega
        simp [h, hf]
      · have hf : (guestStep args fallback s step).state.fails = 2 := by omega
        simp [h, hf]
      · have hf : 3 - (guestStep args fallback s step).state.fails = 0 := by omega
        simp [h, hf]
      · have hf : 3 - (guestStep args fallback s step).state.fails = 0 := by omega
        simp [hf, show s.fails ≠ 2 by omega, show 3 - s.fails = 0 by omega]

def clientSteps (args : Args) (oracle : Nat → Response) : List Step :=
  visible ((testClient args.numInvocations args.atomicWarming true {}).run oracle 0).steps

theorem guestSteps_eq (args : Args) (oracle : Nat → Response) :
    ∃ opening : List Step, opening.length = 8 ∧ opening.countP isExit = 3 ∧
      opening.countP isFail = 0 ∧ opening.countP answersInvoke = 0 ∧
      (∀ id, .act (.workBegin id) ∉ opening) ∧
      guestSteps args oracle =
        opening ++ clientSteps args oracle ++ [.act .m5Exit, .act .m5Exit, .act .m5Exit] := by
  refine ⟨visible ([.m5Exit, .shell "echo \"Start the container...\"",
      .shell ("docker-compose -f /root/functions.yaml up -d " ++ args.function), .m5Exit,
      .shell "echo \"Pin function container to core 1\"",
      .shell "docker update function --cpuset-cpus 1", .shell "sleep 5", .m5Exit].map .act),
    rfl, by simp [isExit, exitEvent], by simp [isFail, exitEvent], rfl, by simp, ?_⟩
  simp [guestSteps, writeRunScript, clientSteps, script_steps]

theorem clientSteps_of_flags {args : Args} (oracle : Nat → Response)
    (hn : flagInt args.numInvocations = some args.numInvocations)
    (hw : flagInt args.atomicWarming = some args.atomicWarming) :
    clientSteps args oracle = session oracle 0
      { numInvoke := args.numInvocations, numWarm := args.atomicWarming, m5Enable := true } :=
  testClient_spec oracle rfl hn hw 0

theorem clientSteps_of_bad_flags {args : Args} (oracle : Nat → Response)
    (h : flagInt args.numInvocations = none ∨ flagInt args.atomicWarming = none) :
    clientSteps args oracle = [] := by
  rw [clientSteps, testClient_of_bad_flags h]
  rfl

theorem countP_invocations {oracle : Nat → Response} {p : Step → Bool} {instrument : Bool}
    {i n left : Nat} (hanswer : ∀ r, p (.answer (.request .invoke) r) = false)
    (hwork : ∀ id, p (.act (.workBegin id)) = false ∧ p (.act (.workEnd id)) = false) :
    (invocations oracle instrument i n left).countP p = 0 := by
  rw [List.countP_eq_zero]
  intro s hs
  rcases mem_invocations hs with ⟨k, -, rfl⟩ | ⟨-, id, rfl | rfl⟩
  · simp [hanswer]
  · simp [(hwork id).1]
  · simp [(hwork id).2]

theorem countP_isExit_session (oracle : Nat → Response) (n : Nat) (f : Flags) :
    (session oracle n f).countP isExit = 0 := by
  have hinv : ∀ instrument i n left,
      (invocations oracle instrument i n left).countP isExit = 0 :=
    fun _ _ _ _ => countP_invocations (fun _ => rfl) (fun _ => ⟨rfl, rfl⟩)
  unfold session warming
  split
  · rfl
  · split <;> simp [isExit, exitEvent, hinv]

theorem countP_isFail_session {oracle : Nat → Response} {n : Nat} {f : Flags}
    (h : ¬(0 < f.numWarm ∧ (oracle n).err = none)) : (session oracle n f).countP isFail = 1 := by
  have hinv : ∀ instrument i n left,
      (invocations oracle instrument i n left).countP isFail = 0 :=
    fun _ _ _ _ => countP_invocations (fun _ => rfl) (fun _ => ⟨rfl, rfl⟩)
  unfold session warming
  cases herr : (oracle n).err with
  | some e => simp [isFail, exitEvent]
  | none =>
    have hw : ¬0 < f.numWarm := fun hw => h ⟨hw, herr⟩
    simp [hw, hinv, isFail, exitEvent]

theorem findIdxs_isFail_session {oracle : Nat → Response} {f : Flags} (hw : 0 < f.numWarm)
    (hinit : (oracle 0).err = none) (start : Nat) :
    (session oracle 0 f).findIdxs isFail start =
      [start, start + 3, start + (warmup oracle 0 f.numWarm).length] := by
  have hinv : ∀ instrument i n left start,
      (invocations oracle instrument i n left).findIdxs isFail start = [] := by
    intro instrument i n left start
    rw [← List.length_eq_zero_iff, List.length_findIdxs]
    exact countP_invocations (fun _ => rfl) (fun _ => ⟨rfl, rfl⟩)
  rw [session_of_warm hw hinit, List.findIdxs_append]
  simp [warmup, hinv, isFail, exitEvent]

theorem countP_isExit_clientSteps (args : Args) (oracle : Nat → Response) :
    (clientSteps args oracle).countP isExit = 0 := by
  rcases flagInt_pair args.numInvocations args.atomicWarming with ⟨hn, hw⟩ | hbad
  · rw [clientSteps_of_flags oracle hn hw, countP_isExit_session]
  · rw [clientSteps_of_bad_flags oracle hbad, List.countP_nil]

/-- The script leaves the sixth `m5 exit` for its last line, so that every step
of the guest is taken. -/
theorem simulateGuest_callTimes {args : Args} (fallback : ExitEvent → Bool)
    (oracle : Nat → Response) (hmode : args.mode = .setup) :
    Reactive.callTimes Call.isCheckpoint (simulateGuest args fallback oracle).trace 0 =
      (((clientSteps args oracle).findIdxs isFail 8).take 3).drop 2 := by
  obtain ⟨opening, hlength, hexit, hfail, -, -, hsteps⟩ := guestSteps_eq args oracle
  let front := opening ++ clientSteps args oracle ++ [.act .m5Exit, .act .m5Exit]
  have hfront : guestSteps args oracle = front ++ [.act .m5Exit] := by simp [hsteps, front]
  have hexits : front.countP isExit = 5 := by
    simp [front, hexit, countP_isExit_clientSteps, isExit, exitEvent]
  have hidxs : front.findIdxs isFail 0 = (clientSteps args oracle).findIdxs isFail 8 := by
    have hopening : opening.findIdxs isFail 0 = [] := by
      rw [← List.length_eq_zero_iff, List.length_findIdxs, hfail]
    simp [front, List.findIdxs_append, hopening, hlength, isFail, exitEvent]
  have hbound : ({} : Handlers).exits + front.countP isExit ≤ 5 := by simp [hexits]
  obtain ⟨hrunning, htimes⟩ := run_guestStep_setup fallback hmode ⟨rfl, rfl⟩ hbound 0
  have hlast : ∀ s,
      (guestStep args fallback s (.act .m5Exit)).calls.countP Call.isCheckpoint = 0 :=
    fun s => executeExit_calls args s.exits
  rw [simulateGuest, hfront, Reactive.run_append_of_running hrunning, Reactive.callTimes_append,
    htimes, hidxs]
  simp only [Reactive.run]
  split <;> simp [hlast]

theorem guestStep_checkpoint {args : Args} {fallback : ExitEvent → Bool} {s : Handlers}
    {step : Step} {c : Call} (hc : c ∈ (guestStep args fallback s step).calls)
    (hcheckpoint : c.isCheckpoint = true) : c = .checkpoint (ckpPath args) := by
  have hnone {cs : List Call} (hcs : cs.countP Call.isCheckpoint = 0) (hmem : c ∈ cs) :
      c = .checkpoint (ckpPath args) := absurd hcheckpoint (List.countP_eq_zero.mp hcs c hmem)
  cases hstep : exitEvent step with
  | none => simp [guestStep, observe, hstep] at hc
  | some e =>
    rw [guestStep, observe, hstep] at hc
    cases e with
    | workbegin => exact hnone (workitems_calls args true s.begins) hc
    | workend => exact hnone (workitems_calls args false s.ends) hc
    | exit => exact hnone (executeExit_calls args s.exits) hc
    | fail =>
      simp only [simulatorStep, reactTo, Handlers.next, executeFail] at hc
      split at hc
      · exact hnone rfl hc
      · exact hnone rfl hc
      · rcases List.mem_cons.mp hc with rfl | hc
        · cases hcheckpoint
        · split at hc
          · exact List.mem_singleton.mp hc
          · cases hc
      · exact hnone rfl hc

theorem checkpoint_mem_calls {args : Args} {fallback : ExitEvent → Bool}
    {oracle : Nat → Response} {k : Nat}
    (h : Reactive.callTimes Call.isCheckpoint (simulateGuest args fallback oracle).trace 0 = [k]) :
    .checkpoint (ckpPath args) ∈ (simulateGuest args fallback oracle).calls := by
  obtain ⟨c, hc, hcheckpoint⟩ := Reactive.mem_callTimes (h ▸ List.mem_singleton_self k)
  obtain ⟨a, ha, hca⟩ := List.mem_flatMap.mp hc
  have hcalls : c ∈ (simulateGuest args fallback oracle).calls :=
    List.mem_flatMap.mpr ⟨a, List.mem_of_mem_take ha, hca⟩
  obtain ⟨s, step, -, hstep⟩ := Reactive.mem_calls_run hcalls
  rwa [guestStep_checkpoint hstep hcheckpoint] at hcalls

theorem warm_of_fails {args : Args} {oracle : Nat → Response}
    (hfails : 2 < (clientSteps args oracle).countP isFail) :
    0 < args.atomicWarming ∧ flagInt args.atomicWarming = some args.atomicWarming ∧
      flagInt args.numInvocations = some args.numInvocations ∧ (oracle 0).err = none := by
  rcases flagInt_pair args.numInvocations args.atomicWarming with ⟨hn, hw⟩ | hbad
  · rw [clientSteps_of_flags oracle hn hw] at hfails
    by_cases hwarm : 0 < args.atomicWarming ∧ (oracle 0).err = none
    · exact ⟨hwarm.1, hw, hn, hwarm.2⟩
    · rw [countP_isFail_session hwarm] at hfails
      omega
  · simp [clientSteps_of_bad_flags oracle hbad] at hfails

theorem takesWarmCheckpoint_iff {args : Args} (fallback : ExitEvent → Bool)
    (oracle : Nat → Response) (hmode : args.mode = .setup) (hw : 0 ≤ args.atomicWarming)
    (hn : 0 ≤ args.numInvocations) :
    TakesWarmCheckpoint args fallback oracle ↔
      0 < args.atomicWarming ∧ args.atomicWarming < 2 ^ 63 ∧ args.numInvocations < 2 ^ 63 ∧
        (oracle 0).err = none := by
  rw [← flagInt_eq_self hw, ← flagInt_eq_self hn]
  constructor
  · rintro ⟨k, hk, -⟩
    rw [simulateGuest_callTimes fallback oracle hmode] at hk
    apply warm_of_fails
    by_contra hle
    rw [List.drop_eq_nil_of_le (by simp; omega)] at hk
    cases hk
  · rintro ⟨hwarm, hw, hn, hinit⟩
    obtain ⟨opening, hlength, -, -, hanswers, hwork, hsteps⟩ := guestSteps_eq args oracle
    have htimes := simulateGuest_callTimes fallback oracle hmode
    rw [clientSteps_of_flags oracle hn hw, findIdxs_isFail_session hwarm hinit] at htimes
    rw [clientSteps_of_flags oracle hn hw, session_of_warm hwarm hinit] at hsteps
    have hk : 8 + (warmup oracle 0 args.atomicWarming).length =
        (opening ++ warmup oracle 0 args.atomicWarming).length := by simp [hlength]
    have hsplit : guestSteps args oracle =
        opening ++ warmup oracle 0 args.atomicWarming ++ .act (.m5Fail 32) ::
          (invocations oracle true 0 (2 + args.atomicWarming.toNat) args.numInvocations.toNat ++
            [.act .m5Exit, .act .m5Exit, .act .m5Exit]) := by
      simp [hsteps]
    refine ⟨_, htimes, ?_, ?_, ?_⟩
    · rw [hk, hsplit, List.take_left, List.countP_append, hanswers, countP_answersInvoke_warmup]
      omega
    · intro id
      rw [hk, hsplit, List.take_length_add_append]
      simp only [List.take_succ_cons, List.take_zero, List.mem_append, not_or]
      refine ⟨⟨hwork id, fun hmem => ?_⟩, by simp⟩
      rcases mem_warmup hmem with hs | hs | ⟨q, r, hs⟩ <;> cases hs
    · intro args' hmode' hfunction hdir
      refine ⟨ckpPath args, ?_, checkpoint_mem_calls htimes⟩
      simp [workloadCheckpoint, hmode', ckpPath, hfunction, hdir]

theorem takesWarmCheckpoint_two :
    TakesWarmCheckpoint { atomicWarming := 2 } (fun _ => true) (fun _ => ⟨"ok", none⟩) :=
  (takesWarmCheckpoint_iff (fun _ => true) (fun _ => ⟨"ok", none⟩) rfl (by decide)
    (by decide)).mpr ⟨by decide, by decide, by decide, rfl⟩

theorem not_takesWarmCheckpoint_default :
    ¬TakesWarmCheckpoint {} (fun _ => true) (fun _ => ⟨"ok", none⟩) := by
  rintro ⟨k, hk, -⟩
  rw [simulateGuest_callTimes (fun _ => true) (fun _ => ⟨"ok", none⟩) rfl] at hk
  have hone := congrArg List.length hk
  rw [List.length_singleton] at hone
  exact absurd hone (by decide)

end VSwarm.Simple
