import VSwarm.Defs.Client.MainLaws
import VSwarm.Defs.RunSim.Ending

namespace VSwarm.RunSim

open VSwarm.Lib VSwarm.Client

def Template.nInvocations : Template → Nat
  | .runSim => 20
  | .twoMachine => 50

def Template.nWarming : Template → Nat
  | .runSim => 5000
  | .twoMachine => 20000

/-- What the script does before it starts the client.  The function's name does
not occur on the drive machine, where only the client reads it. -/
def Template.opening (function : String) : Template → List Action
  | .runSim =>
    [.m5Fail 1, .shell "echo \"Start the container...\"",
      .shell ("docker-compose -f /root/functions.yaml up -d " ++ function), .m5Fail 2,
      .shell "echo \"Pin function container to core 1\"",
      .shell "docker update function --cpuset-cpus 1", .shell "sleep 5", .m5Fail 3, .m5Fail 10]
  | .twoMachine =>
    [.shell "echo \"\nExecute m5 exit to indicate boot complete\"", .m5Exit,
      .shell "echo \"Config: enp0s2 with ipaddress 10.0.2.18 \"",
      .shell "ifconfig enp0s2 10.0.2.18", .shell "ifconfig enp0s2 up", .m5Fail 10]

def Template.closing : Template → List Action
  | .runSim =>
    [.m5Fail 11, .shell "docker-compose -f /root/functions.yaml down", .m5Fail 6, .m5Fail (-1)]
  | .twoMachine => [.m5Fail 11, .m5Fail (-1)]

def Template.script (t : Template) (function : String) : Guest Unit :=
  Client.script (t.opening function) (testClient t.nInvocations t.nWarming true {}) t.closing

def writeRunScript (function : String) : Guest Unit := Template.runSim.script function

def writeDriveScript (function : String) : Guest Unit := Template.twoMachine.script function

def clientScript (t : Template) (function : String) : Guest Unit :=
  match t with
  | .runSim => writeRunScript function
  | .twoMachine => writeDriveScript function

theorem clientScript_eq (t : Template) (function : String) :
    clientScript t function = t.script function := by
  cases t <;> rfl

def exitEvent : Step → Option ExitEvent
  | .act .m5Exit => some ⟨"m5_exit instruction encountered", 0⟩
  | .act (.m5Fail code) => some (failEvent code)
  | .act (.workBegin id) => some (workbeginEvent id)
  | .act (.workEnd id) => some (workendEvent id)
  | _ => none

def exitEvents (ss : List Step) : List ExitEvent := ss.filterMap exitEvent

/-- What is left to do for a guest restored from the checkpoint taken at fail
code 32. -/
def resumed (ss : List Step) : List Step := (ss.dropWhile (· ≠ .act (.m5Fail 32))).tail

@[simp] theorem exitEvents_append (ss ss' : List Step) :
    exitEvents (ss ++ ss') = exitEvents ss ++ exitEvents ss' := List.filterMap_append ..

theorem exitEvents_visible (ss : List Step) : exitEvents (visible ss) = exitEvents ss := by
  simp only [exitEvents, visible, List.filterMap_filter]
  congr 1
  funext s
  cases s with
  | act a => cases a <;> rfl
  | answer q r => rfl

theorem visible_resumed (ss : List Step) : visible (resumed ss) = resumed (visible ss) := by
  induction ss with
  | nil => rfl
  | cons s ss ih =>
    by_cases hs : s = .act (.m5Fail 32)
    · subst hs
      simp [resumed]
    · have hdrop : ∀ tt : List Step, resumed (s :: tt) = resumed tt := by
        intro tt
        simp [resumed, hs]
      unfold visible at ih ⊢
      rw [hdrop, ih, List.filter_cons]
      split
      · rw [hdrop]
      · rfl

section Invocations

variable (oracle : Nat → Response)

theorem exitEvents_invocations_true (i n left : Nat) :
    (∀ e ∈ exitEvents (invocations oracle true i n left), e.aborts = false) ∧
      (exitEvents (invocations oracle true i n left)).countP ExitEvent.isWorkend = left := by
  induction left generalizing i n with
  | zero => exact ⟨by simp [invocations, exitEvents], rfl⟩
  | succ left ih =>
    obtain ⟨habort, hcount⟩ := ih (i + 1) (n + 1)
    have hcons : exitEvents (invocations oracle true i n (left + 1)) =
        workbeginEvent (100 + i) :: workendEvent (100 + i) ::
          exitEvents (invocations oracle true (i + 1) (n + 1) left) := rfl
    have hb : (workbeginEvent (100 + i)).kind = .workbegin (100 + i) := rfl
    have he : (workendEvent (100 + i)).kind = .workend (100 + i) := rfl
    rw [hcons]
    constructor
    · intro e hmem
      rcases List.mem_cons.mp hmem with rfl | hmem
      · simp [ExitEvent.aborts, hb]
      · rcases List.mem_cons.mp hmem with rfl | hmem
        · simp [ExitEvent.aborts, he]
        · exact habort e hmem
    · simp [ExitEvent.isWorkend, hb, he] at hcount ⊢
      exact hcount

end Invocations

theorem resumed_append {ss ss' : List Step} (h : .act (.m5Fail 32) ∉ ss) :
    resumed (ss ++ ss') = resumed ss' := by
  induction ss with
  | nil => rfl
  | cons s ss ih =>
    rw [List.mem_cons, not_or] at h
    have hs : s ≠ .act (.m5Fail 32) := fun hs => h.1 hs.symm
    simpa [resumed, hs] using ih h.2

theorem resumed_session (oracle : Nat → Response) (n : Nat) {f : Flags} (hw : 0 < f.numWarm)
    (hinit : (oracle n).err = none) (before after : List Step)
    (h : .act (.m5Fail 32) ∉ before) :
    resumed (before ++ session oracle n f ++ after) =
      invocations oracle true 0 (n + 2 + f.numWarm.toNat) f.numInvoke.toNat ++ after := by
  have hpre : .act (.m5Fail 32) ∉ before ++ warmup oracle n f.numWarm := by
    rw [List.mem_append, not_or]
    refine ⟨h, fun hmem => ?_⟩
    rcases mem_warmup hmem with hs | hs | ⟨q, r, hs⟩ <;> cases hs
  rw [session_of_warm hw hinit, ← List.append_assoc, List.append_assoc, List.cons_append,
    resumed_append hpre]
  simp [resumed]

theorem visible_map_act {as : List Action} (h : ∀ a ∈ as, isLog (.act a) = false) :
    visible (as.map .act) = as.map .act := by
  rw [visible, List.filter_eq_self]
  intro s hs
  obtain ⟨a, ha, rfl⟩ := List.mem_map.mp hs
  simp [h a ha]

theorem exitEvents_resumed (t : Template) (function : String) (oracle : Nat → Response)
    (hinit : (oracle 0).err = none) :
    exitEvents (resumed ((clientScript t function).run oracle 0).steps) =
      exitEvents (invocations oracle true 0 (2 + t.nWarming) t.nInvocations) ++
        exitEvents (t.closing.map .act) := by
  have hopening : visible ((t.opening function).map .act) = (t.opening function).map .act := by
    apply visible_map_act
    cases t <;> simp [Template.opening, isLog]
  have hclosing : visible (t.closing.map .act) = t.closing.map .act := by
    apply visible_map_act
    cases t <;> simp [Template.closing, isLog]
  have hnot : (.act (.m5Fail 32) : Step) ∉ (t.opening function).map .act := by
    cases t <;> simp [Template.opening]
  rw [← exitEvents_visible, visible_resumed, clientScript_eq, Template.script, script_steps,
    visible_append, visible_append, hopening, hclosing, testClient_spec oracle rfl (by cases t <;> decide)
      (by cases t <;> decide),
    resumed_session oracle 0 (by cases t <;> decide) hinit _ _ hnot, exitEvents_append]
  simp

theorem beforeAbort_append {es fs : List ExitEvent} (h : ∀ e ∈ es, e.aborts = false) :
    beforeAbort (es ++ fs) = es ++ beforeAbort fs := by
  rw [beforeAbort, List.takeWhile_append_of_pos (by simpa using h)]
  rfl

theorem simulate_resumed (t : Template) (function : String) (oracle : Nat → Response)
    (hinit : (oracle 0).err = none) {args : Args} {W M : Nat}
    (hmode : args.mode = .evaluation) (hW : args.atomicWarming = W)
    (hM : args.numInvocations = M) (hpos : 1 ≤ M) :
    Measured W M (simulate t args (armed args)
        (exitEvents (resumed ((clientScript t function).run oracle 0).steps))) ↔
      W + M ≤ t.nInvocations := by
  obtain ⟨habort, hcount⟩ := exitEvents_invocations_true oracle 0 (2 + t.nWarming) t.nInvocations
  have hclosing : (beforeAbort (exitEvents (t.closing.map .act))).countP
      ExitEvent.isWorkend = 0 := by
    cases t <;> decide
  rw [simulate_measured t hmode hW hM hpos, exitEvents_resumed t function oracle hinit,
    beforeAbort_append habort, List.countP_append, hcount, hclosing, Nat.add_zero]

theorem m5Main_resumed (t : Template) (root function : String) (oracle : Nat → Response)
    (hinit : (oracle 0).err = none) {args : Args} {W M : Nat}
    (hmode : args.mode = .evaluation) (hW : args.atomicWarming = W)
    (hM : args.numInvocations = M) (hpos : 1 ≤ M) (first : ExitEvent) :
    (∃ o, (m5Main t root args (first ::
        exitEvents (resumed ((clientScript t function).run oracle 0).steps))).loop = some o ∧
      Measured W M o) ↔ W + M ≤ t.nInvocations := by
  rw [m5Main_evaluation t root hmode]
  simp only [Option.some.injEq, exists_eq_left']
  exact simulate_resumed t function oracle hinit hmode hW hM hpos

theorem m5Main_resumed_default :
    (∃ o, (m5Main .runSim "/vSwarm-u"
        { mode := .evaluation, function := "fibonacci-go" } (maxInstsEvent ::
        exitEvents (resumed ((clientScript .runSim "fibonacci-go").run
          (fun _ => ⟨"reply", none⟩) 0).steps))).loop = some o ∧
      Measured 0 5 o) ↔ 0 + 5 ≤ 20 :=
  m5Main_resumed .runSim "/vSwarm-u" "fibonacci-go" (fun _ => ⟨"reply", none⟩) rfl rfl rfl rfl
    (by decide) maxInstsEvent

theorem m5Main_resumed_twenty_one :
    ¬ ∃ o, (m5Main .runSim "/vSwarm-u"
        { mode := .evaluation, numInvocations := 21, function := "fibonacci-go" } (maxInstsEvent ::
        exitEvents (resumed ((clientScript .runSim "fibonacci-go").run
          (fun _ => ⟨"reply", none⟩) 0).steps))).loop = some o ∧
      Measured 0 21 o := by
  rintro ⟨o, ho, hmeasured⟩
  rw [m5Main_evaluation .runSim "/vSwarm-u" rfl, Option.some.injEq] at ho
  subst ho
  have := (simulate_resumed .runSim "fibonacci-go" (fun _ => ⟨"reply", none⟩) rfl rfl rfl rfl
    (by decide)).mp hmeasured
  exact absurd this (by decide)

end VSwarm.RunSim
