import VSwarm.Lib.Transition
import VSwarm.Defs.RunSim.Script

/-! The two machines of `run_sim_two_machine.tmpl.py` and the controller that
sees the exit events of both.  Nothing orders the steps of one machine before
those of the other, except that a request can only succeed while the function
is reachable. -/

namespace VSwarm.RunSim.TwoMachine

open VSwarm.Lib VSwarm.Client

def ifconfigUp : Action := .shell "ifconfig enp0s2 up"

def writeRunScript (function : String) : List Action :=
  [.m5Fail 1, .shell "echo \"Config: enp0s2 with ipaddress 10.0.2.17 \"",
    .shell "ifconfig enp0s2 10.0.2.17", .shell "echo \"Start the container...\"",
    .shell ("docker-compose -f /root/functions.yaml up -d " ++ function), .m5Fail 2,
    .shell "echo \"Pin function container to core 1\"",
    .shell "docker update function --cpuset-cpus 1", .shell "sleep 5", .m5Fail 3,
    .shell "echo \"Container is running. Turn on network IF enp0s2\"", ifconfigUp]

def driveScript (function : String) (n w : Int) : Guest Unit :=
  script (Template.twoMachine.opening function) (testClient n w true {}) Template.twoMachine.closing

structure World where
  test : List Action
  executed : List Action := []
  drive : Guest Unit
  driven : List Step := []
  controller : State := {}
  stopped : Bool := false
  calls : List Call := []

def boot (function : String) (n w : Int) : World where
  test := writeRunScript function
  drive := driveScript function n w

inductive Label
  | test
  | drive (s : Step)

def World.observe (args : Args) (v : World) (s : Step) : World :=
  match exitEvent s with
  | none => v
  | some e =>
    let r := simulateStep .twoMachine args v.controller e
    { v with controller := r.state, stopped := r.stop, calls := v.calls ++ r.calls }

/-- A request fails unless the function can be reached. -/
def permitted (reachable : List Action → Bool) (executed : List Action) : Step → Bool
  | .answer (.request _) r => r.err.isSome || reachable executed
  | _ => true

def step (reachable : List Action → Bool) (args : Args) (v : World) (l : Label) : Option World :=
  if v.stopped then none
  else
    match l with
    | .test =>
      match v.test with
      | [] => none
      | a :: rest =>
        some (World.observe args { v with test := rest, executed := v.executed ++ [a] } (.act a))
    | .drive s =>
      if permitted reachable v.executed s then
        (v.drive.step s).map fun p =>
          World.observe args { v with drive := p, driven := v.driven ++ [s] } s
      else none

def answeredOk : Step → Bool
  | .answer (.request .invoke) r => r.err = none
  | _ => false

/-- A checkpoint is there only if the container has been pinned and `w` warming
requests have been answered without an error. -/
def Safe (w : Int) (v : World) : Prop :=
  ∀ path, .checkpoint path ∈ v.calls →
    .m5Fail 3 ∈ v.executed ∧ w ≤ v.driven.countP answeredOk

/-- No warming request fails, and the function does not become reachable for one
before its machine has enabled the network interface. -/
def Synchronised (reachable : List Action → Bool) (v : World) (l : Label) : Prop :=
  ∀ r, l = .drive (.answer (.request .invoke) r) → .act (.m5Fail 32) ∉ v.driven →
    r.err = none ∧ (reachable v.executed = true → ifconfigUp ∈ v.executed)

section Steps

variable {reachable : List Action → Bool} {args : Args} {v v' : World}

theorem mem_checkpoint_executeM5FailCode {s : State} {code : Int} {path : String}
    (h : .checkpoint path ∈ (executeM5FailCode args s code).calls) : code = 32 := by
  by_contra hcode
  cases htext : failCodes code with
  | none => simp [executeM5FailCode, htext] at h
  | some text =>
    simp only [executeM5FailCode, htext, hcode, if_false] at h
    split at h <;> simp [prYellow, prGreen] at h

theorem mem_checkpoint_simulateStep {t : Template} {s : State} {e : ExitEvent} {path : String}
    (h : .checkpoint path ∈ (simulateStep t args s e).calls) : e.kind = .fail 32 := by
  have hrest : .checkpoint path ∈ (handle t args s e).calls := by
    rcases List.mem_cons.mp h with h | h
    · cases h
    · exact h
  have hwork : ∀ begin id, .checkpoint path ∉ (workitem t args s begin id).calls := by
    intro begin id
    simp only [workitem]
    split_ifs <;> simp [prYellow, prGreen]
  cases hk : e.kind with
  | fail code =>
    simp only [handle, hk] at hrest
    rw [mem_checkpoint_executeM5FailCode hrest]
  | workbegin id => simp [handle, hk, hwork] at hrest
  | workend id => simp [handle, hk, hwork] at hrest
  | userInterrupt => simp [handle, hk] at hrest
  | other cause code => simp [handle, hk] at hrest

theorem eq_m5Fail_of_exitEvent {s : Step} {e : ExitEvent} (h : exitEvent s = some e)
    (hk : e.kind = .fail 32) : s = .act (.m5Fail 32) := by
  cases s with
  | answer q r => cases h
  | act a =>
    cases a with
    | m5Fail code =>
      obtain rfl := Option.some.inj h
      obtain rfl : code = 32 := by simpa [failEvent, ExitEvent.kind] using hk
      rfl
    | m5Exit =>
      obtain rfl := Option.some.inj h
      simp [ExitEvent.kind] at hk
    | workBegin id =>
      obtain rfl := Option.some.inj h
      simp [workbeginEvent, ExitEvent.kind] at hk
    | workEnd id =>
      obtain rfl := Option.some.inj h
      simp [workendEvent, ExitEvent.kind] at hk
    | log l msg => cases h
    | shell command => cases h

theorem checkpoint_of_mem_observe {s : Step} {path : String}
    (h : .checkpoint path ∈ (v.observe args s).calls) :
    .checkpoint path ∈ v.calls ∨ s = .act (.m5Fail 32) := by
  unfold World.observe at h
  split at h
  · exact .inl h
  · rename_i e he
    rcases List.mem_append.mp h with h | h
    · exact .inl h
    · exact .inr (eq_m5Fail_of_exitEvent he (mem_checkpoint_simulateStep h))

theorem observe_machines (args : Args) (v : World) (s : Step) :
    (v.observe args s).test = v.test ∧ (v.observe args s).executed = v.executed ∧
      (v.observe args s).drive = v.drive ∧ (v.observe args s).driven = v.driven := by
  unfold World.observe
  split <;> exact ⟨rfl, rfl, rfl, rfl⟩

theorem step_cases {l : Label} (h : step reachable args v l = some v') :
    (∃ a rest, l = .test ∧ v.test = a :: rest ∧
      v' = World.observe args { v with test := rest, executed := v.executed ++ [a] } (.act a)) ∨
    ∃ s p, l = .drive s ∧ permitted reachable v.executed s = true ∧ v.drive.step s = some p ∧
      v' = World.observe args { v with drive := p, driven := v.driven ++ [s] } s := by
  unfold step at h
  split at h
  · cases h
  · cases l with
    | test =>
      cases htest : v.test with
      | nil => simp [htest] at h
      | cons a rest => exact .inl ⟨a, rest, rfl, rfl, by simpa [htest] using h.symm⟩
    | drive s =>
      simp only [Option.ite_none_right_eq_some, Option.map_eq_some_iff] at h
      obtain ⟨hp, p, hs, rfl⟩ := h
      exact .inr ⟨s, p, rfl, hp, hs, rfl⟩

end Steps

section Warming

variable {function : String} {n w : Int}

theorem prefix_of_mem {α : Type} {l a b : List α} {x : α} (h : l <+: a ++ x :: b) (hx : x ∈ l)
    (ha : x ∉ a) : a <+: l := by
  rcases List.prefix_or_prefix_of_prefix h (List.prefix_append a (x :: b)) with hl | hl
  · exact absurd (hl.subset hx) ha
  · exact hl

theorem le_countP_answersInvoke {ss : List Step} {p : Guest Unit}
    (h : (driveScript function n w).steps ss = some p) (hmem : .act (.m5Fail 32) ∈ ss) :
    0 < w ∧ w ≤ ss.countP answersInvoke := by
  -- an oracle that repeats the answers given so far
  obtain ⟨oracle, hpre⟩ : ∃ oracle, ss <+: ((driveScript function n w).run oracle 0).steps :=
    ⟨fun i => (Interaction.answers ss)[i]?.getD ⟨"", none⟩,
      Interaction.steps_prefix_run h _ 0 (by intro i r hr; simp [hr])⟩
  have hvisible : visible ss <+: visible ((driveScript function n w).run oracle 0).steps :=
    hpre.filter _
  have hmem' : .act (.m5Fail 32) ∈ visible ss := List.mem_filter.mpr ⟨hmem, rfl⟩
  have hopening : (.act (.m5Fail 32) : Step) ∉
      visible ((Template.twoMachine.opening function).map .act) := by
    simp [Template.opening]
  have hclosing : (.act (.m5Fail 32) : Step) ∉ visible (Template.twoMachine.closing.map .act) := by
    simp [Template.closing]
  rw [driveScript, script_steps, visible_append, visible_append] at hvisible
  have hclient : .act (.m5Fail 32) ∈ visible ((testClient n w true {}).run oracle 0).steps := by
    have hall := hvisible.subset hmem'
    rw [List.mem_append, List.mem_append] at hall
    rcases hall with (hall | hall) | hall
    · exact absurd hall hopening
    · exact hall
    · exact absurd hall hclosing
  have hflags : flagInt n = some n ∧ flagInt w = some w := by
    rcases flagInt_pair n w with hflags | hbad
    · exact hflags
    · rw [testClient_of_bad_flags hbad] at hclient
      cases hclient
  rw [testClient_spec oracle rfl hflags.1 hflags.2] at hvisible hclient
  obtain ⟨hpos, hinit⟩ := warm_of_mem_session hclient
  have hwarmup : .act (.m5Fail 32) ∉
      visible ((Template.twoMachine.opening function).map .act) ++ warmup oracle 0 w := by
    rw [List.mem_append, not_or]
    refine ⟨hopening, fun hwarm => ?_⟩
    rcases mem_warmup hwarm with hs | hs | ⟨q, r, hs⟩ <;> cases hs
  rw [session_of_warm hpos hinit, ← List.append_assoc, List.append_assoc, List.cons_append]
    at hvisible
  have hprefix := prefix_of_mem hvisible hmem' hwarmup
  have hle : (warmup oracle 0 w).countP answersInvoke ≤ ss.countP answersInvoke :=
    (((List.sublist_append_right _ _).trans hprefix.sublist).trans
      List.filter_sublist).countP_le
  rw [countP_answersInvoke_warmup] at hle
  exact ⟨hpos, by simp only at hpos; omega⟩

theorem mem_executed_of_up {executed rest : List Action}
    (h : executed ++ rest = writeRunScript function) (hup : ifconfigUp ∈ executed) :
    .m5Fail 3 ∈ executed := by
  have hcompose : "ifconfig enp0s2 up" ≠
      "docker-compose -f /root/functions.yaml up -d " ++ function := by
    intro heq
    have := congrArg String.toList heq
    simp at this
  have hsplit : writeRunScript function = (writeRunScript function).dropLast ++ [ifconfigUp] := rfl
  have hnot : ifconfigUp ∉ (writeRunScript function).dropLast := by
    simp [writeRunScript, ifconfigUp, hcompose]
  have hprefix := prefix_of_mem (hsplit ▸ h ▸ List.prefix_append executed rest) hup hnot
  exact hprefix.subset (by simp [writeRunScript])

theorem ready_of_warmed {executed rest : List Action} {ss : List Step} {p : Guest Unit}
    (htest : executed ++ rest = writeRunScript function)
    (hdrive : (driveScript function n w).steps ss = some p) (hmem : .act (.m5Fail 32) ∈ ss)
    (hanswered : ∀ r, .answer (.request .invoke) r ∈ ss → r.err = none ∧ ifconfigUp ∈ executed) :
    .m5Fail 3 ∈ executed ∧ w ≤ ss.countP answeredOk := by
  obtain ⟨hpos, hcount⟩ := le_countP_answersInvoke hdrive hmem
  have hok : ss.countP answeredOk = ss.countP answersInvoke := by
    apply List.countP_congr
    intro s hs
    cases s with
    | act a => rfl
    | answer q r =>
      cases q with
      | init => rfl
      | request site =>
        cases site with
        | main => rfl
        | invoke => simp [answeredOk, answersInvoke, (hanswered r hs).1]
  rw [hok]
  refine ⟨?_, hcount⟩
  -- an answered request shows that the interface is up, which the script does last
  obtain ⟨s, hs, hanswer⟩ : ∃ s ∈ ss, answersInvoke s = true :=
    List.countP_pos_iff.mp (by omega)
  obtain ⟨r, rfl⟩ : ∃ r, s = .answer (.request .invoke) r := by
    unfold answersInvoke at hanswer
    split at hanswer
    · exact ⟨_, rfl⟩
    · cases hanswer
  exact mem_executed_of_up htest (hanswered r hs).2

end Warming

structure Inv (function : String) (n w : Int) (v : World) : Prop where
  test : v.executed ++ v.test = writeRunScript function
  drive : (driveScript function n w).steps v.driven = some v.drive
  checkpoint : ∀ path, .checkpoint path ∈ v.calls → .act (.m5Fail 32) ∈ v.driven
  warming : .act (.m5Fail 32) ∉ v.driven → ∀ r, .answer (.request .invoke) r ∈ v.driven →
    r.err = none ∧ ifconfigUp ∈ v.executed
  warmed : .act (.m5Fail 32) ∈ v.driven → .m5Fail 3 ∈ v.executed ∧ w ≤ v.driven.countP answeredOk

section Invariant

variable {reachable : List Action → Bool} {args : Args} {function : String} {n w : Int}

theorem inv_boot : Inv function n w (boot function n w) where
  test := rfl
  drive := rfl
  checkpoint path h := by cases h
  warming _ r h := by cases h
  warmed h := by cases h

theorem inv_step_test {v : World} {a : Action} {rest : List Action} (hv : Inv function n w v)
    (htest : v.test = a :: rest) :
    Inv function n w
      (World.observe args { v with test := rest, executed := v.executed ++ [a] } (.act a)) := by
  obtain ⟨htest', hexecuted, hdrive, hdriven⟩ := observe_machines args
    { v with test := rest, executed := v.executed ++ [a] } (.act a)
  have hscript : v.executed ++ a :: rest = writeRunScript function := htest ▸ hv.test
  constructor
  · rw [htest', hexecuted]
    simpa using hscript
  · rw [hdrive, hdriven]
    exact hv.drive
  · intro path hpath
    rw [hdriven]
    rcases checkpoint_of_mem_observe hpath with hpath | ha
    · exact hv.checkpoint path hpath
    · have hmem : a ∈ writeRunScript function := hscript ▸ by simp
      cases ha
      simp [writeRunScript, ifconfigUp] at hmem
  · rw [hdriven, hexecuted]
    intro hnot r hr
    obtain ⟨herr, hup⟩ := hv.warming hnot r hr
    exact ⟨herr, List.mem_append_left _ hup⟩
  · rw [hdriven, hexecuted]
    intro hmem
    obtain ⟨hpinned, hcount⟩ := hv.warmed hmem
    exact ⟨List.mem_append_left _ hpinned, hcount⟩

theorem inv_step_drive {v : World} {s : Step} {p : Guest Unit} (hv : Inv function n w v)
    (hok : Synchronised reachable v (.drive s)) (hp : permitted reachable v.executed s = true)
    (hs : v.drive.step s = some p) :
    Inv function n w (World.observe args { v with drive := p, driven := v.driven ++ [s] } s) := by
  obtain ⟨htest', hexecuted, hdrive, hdriven⟩ := observe_machines args
    { v with drive := p, driven := v.driven ++ [s] } s
  have hsteps := Interaction.steps_concat hv.drive hs
  have hwarming : .act (.m5Fail 32) ∉ v.driven → ∀ r,
      .answer (.request .invoke) r ∈ v.driven ++ [s] → r.err = none ∧ ifconfigUp ∈ v.executed := by
    intro hnot r hr
    rcases List.mem_append.mp hr with hr | hr
    · exact hv.warming hnot r hr
    · obtain rfl := (List.mem_singleton.mp hr).symm
      obtain ⟨herr, hup⟩ := hok r rfl hnot
      exact ⟨herr, hup (by simpa [permitted, herr] using hp)⟩
  constructor
  · rw [htest', hexecuted]
    exact hv.test
  · rw [hdrive, hdriven]
    exact hsteps
  · intro path hpath
    rw [hdriven]
    rcases checkpoint_of_mem_observe hpath with hpath | rfl
    · exact List.mem_append_left _ (hv.checkpoint path hpath)
    · simp
  · rw [hdriven, hexecuted]
    intro hnot
    exact hwarming fun hmem => hnot (List.mem_append_left _ hmem)
  · rw [hdriven, hexecuted]
    intro hmem
    by_cases hbefore : .act (.m5Fail 32) ∈ v.driven
    · obtain ⟨hpinned, hcount⟩ := hv.warmed hbefore
      refine ⟨hpinned, ?_⟩
      rw [List.countP_append]
      omega
    · exact ready_of_warmed hv.test hsteps hmem (hwarming hbefore)

theorem inv_step {v v' : World} {l : Label} (hv : Inv function n w v)
    (hok : Synchronised reachable v l) (h : step reachable args v l = some v') :
    Inv function n w v' := by
  rcases step_cases h with ⟨a, rest, rfl, htest, rfl⟩ | ⟨s, p, rfl, hp, hs, rfl⟩
  · exact inv_step_test hv htest
  · exact inv_step_drive hv hok hp hs

theorem Inv.safe {v : World} (hv : Inv function n w v) : Safe w v :=
  fun path hpath => hv.warmed (hv.checkpoint path hpath)

end Invariant

theorem reaches_safe (reachable : List Action → Bool) (args : Args) (function : String) (n w : Int)
    {v : World}
    (h : Transition.Reaches (step reachable args) (Synchronised reachable) (boot function n w) v) :
    Safe w v :=
  (h.invariant inv_boot fun _ _ _ => inv_step).safe

section Schedules

variable {reachable : List Action → Bool} {args : Args} {ok : World → Label → Prop}
  {init v : World}

theorem observe_stopped (hmode : args.mode = .setup) (hv : v.stopped = false) {s : Step}
    (hs : s ≠ .act (.m5Fail (-1))) : (v.observe args s).stopped = false := by
  have hwork : ∀ begin id, (workitem .twoMachine args v.controller begin id).ret = none := by
    simp [workitem, hmode]
  unfold World.observe
  split
  · exact hv
  · rename_i e he
    cases s with
    | answer q r => cases he
    | act a =>
      cases a with
      | m5Fail code =>
        have hcode : code ≠ -1 := fun h => hs (h ▸ rfl)
        have hret := mt (executeM5FailCode_ret args v.controller code).mp hcode
        obtain rfl := Option.some.inj he
        simp [simulateStep, handle, failEvent, ExitEvent.kind, hret]
      | m5Exit =>
        obtain rfl := Option.some.inj he
        simp [simulateStep, handle, ExitEvent.kind]
      | workBegin id =>
        obtain rfl := Option.some.inj he
        simp [simulateStep, handle, workbeginEvent, ExitEvent.kind, hwork]
      | workEnd id =>
        obtain rfl := Option.some.inj he
        simp [simulateStep, handle, workendEvent, ExitEvent.kind, hwork]
      | log l msg => cases he
      | shell command => cases he

theorem calls_subset_observe (args : Args) (v : World) (s : Step) :
    v.calls ⊆ (v.observe args s).calls := by
  unfold World.observe
  split
  · exact List.Subset.refl _
  · exact List.subset_append_left _ _

theorem checkpoint_mem_observe (args : Args) (v : World) :
    .checkpoint (ckpPath args "warm") ∈ (v.observe args (.act (.m5Fail 32))).calls := by
  have htext : failCodes 32 = some "32: Stop warming" := rfl
  simp [World.observe, exitEvent, simulateStep, handle, failEvent, ExitEvent.kind,
    executeM5FailCode, htext]

theorem reaches_test (hmode : args.mode = .setup)
    (hv : Transition.Reaches (step reachable args) ok init v) (hstopped : v.stopped = false)
    (hgo : .m5Fail (-1) ∉ v.test) (hok : ∀ v', ok v' .test) :
    ∃ v', Transition.Reaches (step reachable args) ok init v' ∧ v'.stopped = false ∧
      v'.executed = v.executed ++ v.test ∧ v'.drive = v.drive ∧ v'.driven = v.driven := by
  generalize htest : v.test = as at hgo
  induction as generalizing v with
  | nil => exact ⟨v, hv, hstopped, by simp, rfl, rfl⟩
  | cons a as ih =>
    obtain ⟨hne, hrest⟩ := not_or.mp (mt List.mem_cons.mpr hgo)
    have hs : step reachable args v .test = some (World.observe args
        { v with test := as, executed := v.executed ++ [a] } (.act a)) := by
      simp [step, hstopped, htest]
    obtain ⟨htest', hexecuted, hdrive, hdriven⟩ := observe_machines args
      { v with test := as, executed := v.executed ++ [a] } (.act a)
    have hrunning := observe_stopped (v := { v with test := as, executed := v.executed ++ [a] })
      (s := .act a) hmode hstopped (fun h => hne (Interaction.Step.act.inj h).symm)
    obtain ⟨v', hv', hstopped', hexecuted', hdrive', hdriven'⟩ :=
      ih (.step hv (hok v) hs) hrunning htest' hrest
    refine ⟨v', hv', hstopped', ?_, hdrive'.trans hdrive, hdriven'.trans hdriven⟩
    rw [hexecuted', hexecuted]
    simp

theorem reaches_drive (hmode : args.mode = .setup)
    (hv : Transition.Reaches (step reachable args) ok init v) (hstopped : v.stopped = false)
    {ss : List Step} {q : Guest Unit} (hss : v.drive.steps ss = some q)
    (hpermitted : ∀ s ∈ ss, permitted reachable v.executed s = true)
    (hgo : .act (.m5Fail (-1)) ∉ ss)
    (hok : ∀ v', v'.executed = v.executed → ∀ s ∈ ss, ok v' (.drive s)) :
    ∃ v', Transition.Reaches (step reachable args) ok init v' ∧ v'.executed = v.executed ∧
      v'.driven = v.driven ++ ss ∧ v.calls ⊆ v'.calls ∧
      (.act (.m5Fail 32) ∈ ss → .checkpoint (ckpPath args "warm") ∈ v'.calls) := by
  induction ss generalizing v with
  | nil => exact ⟨v, hv, rfl, by simp, List.Subset.refl _, by simp⟩
  | cons s ss ih =>
    obtain ⟨hne, hrest⟩ := not_or.mp (mt List.mem_cons.mpr hgo)
    obtain ⟨p, hp, hss⟩ := Option.bind_eq_some_iff.mp hss
    obtain ⟨hpermit, hpermitted⟩ := List.forall_mem_cons.mp hpermitted
    have hs : step reachable args v (.drive s) = some (World.observe args
        { v with drive := p, driven := v.driven ++ [s] } s) := by
      simp [step, hstopped, hpermit, hp]
    obtain ⟨-, hexecuted, hdrive, hdriven⟩ := observe_machines args
      { v with drive := p, driven := v.driven ++ [s] } s
    have hrunning := observe_stopped (v := { v with drive := p, driven := v.driven ++ [s] })
      hmode hstopped (fun h => hne h.symm)
    have hsubset := calls_subset_observe args { v with drive := p, driven := v.driven ++ [s] } s
    obtain ⟨v', hv', hexecuted', hdriven', hcalls, hcheckpoint⟩ :=
      ih (.step hv (hok v rfl s List.mem_cons_self) hs) hrunning (by rw [hdrive]; exact hss)
        (by rw [hexecuted]; exact hpermitted) hrest
        (fun v' h s' hs' => hok v' (h.trans hexecuted) s' (List.mem_cons_of_mem s hs'))
    refine ⟨v', hv', hexecuted'.trans hexecuted, ?_, ?_, ?_⟩
    · rw [hdriven', hdriven]
      simp
    · exact List.Subset.trans hsubset hcalls
    · intro hmem
      rcases List.mem_cons.mp hmem with rfl | hmem
      · exact hcalls (checkpoint_mem_observe args _)
      · exact hcheckpoint hmem

theorem exists_steps_driveScript (function : String) {n w : Int} (hn : flagInt n = some n)
    (hw : flagInt w = some w) (hpos : 0 < w) (oracle : Nat → Response)
    (hinit : (oracle 0).err = none) :
    ∃ ss q, (driveScript function n w).steps ss = some q ∧ .act (.m5Fail 32) ∈ ss ∧
      .act (.m5Fail (-1)) ∉ ss ∧
      ∀ site r, .answer (.request site) r ∈ ss → ∃ k, 0 < k ∧ r = oracle k := by
  have hclient := testClient_spec oracle (h := {}) rfl hn hw 0
  generalize hsteps : ((testClient n w true {}).run oracle 0).steps = client at hclient
  have hmem : .act (.m5Fail 32) ∈ client := by
    have hwarm : .act (.m5Fail 32) ∈ visible client := by
      rw [hclient, session_of_warm hpos hinit]
      simp
    exact List.mem_of_mem_filter hwarm
  have hsession {s : Step} (hs : s ∈ client) (hlog : isLog s = false) :
      s ∈ session oracle 0 { numInvoke := n, numWarm := w, m5Enable := true } := by
    rw [← hclient]
    exact List.mem_filter.mpr ⟨hs, by simp [hlog]⟩
  obtain ⟨before, after, hsplit⟩ := List.append_of_mem hmem
  have hbefore {s : Step} (hs : s ∈ before) : s ∈ client := by
    rw [hsplit]
    exact List.mem_append_left _ hs
  obtain ⟨q, hq⟩ := @Interaction.steps_of_prefix_run _ _ _ _ _ _ (driveScript function n w) oracle 0
    ((Template.twoMachine.opening function).map .act ++ (before ++ [.act (.m5Fail 32)])) (by
      rw [driveScript, script_steps, hsteps, hsplit]
      simp)
  refine ⟨_, q, hq, by simp, ?_, ?_⟩
  · intro h
    rcases List.mem_append.mp h with h | h
    · simp [Template.opening] at h
    rcases List.mem_append.mp h with h | h
    · rcases mem_session (hsession (hbefore h) rfl) with
        hs | ⟨_, _, _, hs⟩ | ⟨code, hcode, hs⟩ | ⟨_, hs | hs⟩ <;> cases hs
      omega
    · simp at h
  · intro site r h
    rcases List.mem_append.mp h with h | h
    · simp [Template.opening] at h
    rcases List.mem_append.mp h with h | h
    · rcases mem_session (hsession (hbefore h) rfl) with
        hs | ⟨_, k, hk, hs⟩ | ⟨_, _, hs⟩ | ⟨_, hs | hs⟩ <;> cases hs
      exact ⟨k, hk, rfl⟩
    · simp at h

def afterUp (executed : List Action) : Bool := executed.contains ifconfigUp

theorem reaches_safe_checkpoint :
    ∃ v, Transition.Reaches (step afterUp {}) (Synchronised afterUp) (boot "aes-go" 50 20000) v ∧
      .checkpoint (ckpPath {} "warm") ∈ v.calls ∧ Safe 20000 v := by
  have hup {v' : World} : afterUp v'.executed = true → ifconfigUp ∈ v'.executed :=
    List.contains_iff_mem.mp
  obtain ⟨v, hv, hstopped, hexecuted, hdrive, -⟩ := reaches_test rfl
    (.init : Transition.Reaches (step afterUp {}) (Synchronised afterUp) (boot "aes-go" 50 20000) _)
    rfl (by simp [boot, writeRunScript, ifconfigUp]) (fun v' r h => by cases h)
  obtain ⟨ss, q, hss, hwarm, hgo, hanswers⟩ := exists_steps_driveScript "aes-go" (n := 50)
    (w := 20000) (by decide) (by decide) (by decide) (fun _ => ⟨"ok", none⟩) rfl
  have hreachable : afterUp v.executed = true := by
    rw [hexecuted]
    decide
  obtain ⟨v', hv', -, -, -, hcheckpoint⟩ := reaches_drive rfl hv hstopped
    (q := q) (by rw [hdrive]; exact hss)
    (by
      intro s hs
      unfold permitted
      split
      · simp [hreachable]
      · rfl) hgo
    (by
      intro v' _ s hs r hr _
      cases hr
      obtain ⟨k, -, rfl⟩ := hanswers _ _ hs
      exact ⟨rfl, hup⟩)
  exact ⟨v', hv', hcheckpoint hwarm, reaches_safe afterUp {} "aes-go" 50 20000 hv'⟩

theorem reaches_unsafe :
    ∃ v, Transition.Reaches (step afterUp {}) (fun _ _ => True) (boot "aes-go" 50 20000) v ∧
      ¬Safe 20000 v := by
  obtain ⟨ss, q, hss, hwarm, hgo, hanswers⟩ := exists_steps_driveScript "aes-go" (n := 50)
    (w := 20000) (by decide) (by decide) (by decide)
    (fun k => ⟨"", if k = 0 then none else some "refused"⟩) rfl
  obtain ⟨v, hv, hexecuted, -, -, hcheckpoint⟩ := reaches_drive rfl
    (.init : Transition.Reaches (step afterUp {}) (fun _ _ => True) (boot "aes-go" 50 20000) _)
    rfl hss
    (by
      intro s hs
      unfold permitted
      split
      · obtain ⟨k, hk, rfl⟩ := hanswers _ _ hs
        simp [Nat.pos_iff_ne_zero.mp hk]
      · rfl) hgo (fun _ _ _ _ => trivial)
  refine ⟨v, hv, fun hsafe => ?_⟩
  have hpinned := (hsafe _ (hcheckpoint hwarm)).1
  rw [hexecuted] at hpinned
  cases hpinned

end Schedules

end VSwarm.RunSim.TwoMachine
