import VSwarm.Lib.Reactive
import VSwarm.Defs.Install.InstallFunctions
import VSwarm.Defs.RunSim.Controller

namespace VSwarm.SimTest

open VSwarm.Lib VSwarm.Client VSwarm.Install

open VSwarm.RunSim (ExitEvent)

inductive Call
  | print (text : String)
  | switchToDetailedCpus
  | switchToKvmCpus
  | statsReset
  | statsDump
  deriving DecidableEq

def prGreen (skk : String) : Call := .print ("\x1b[92m " ++ skk ++ "\x1b[00m")

def prYellow (skk : String) : Call := .print ("\x1b[93m " ++ skk ++ "\x1b[00m")

def failCodes (code : Int) : Option String :=
  if code = 1 then some "1: BOOTING complete"
  else if code = 2 then some "2: Started container"
  else if code = 3 then some "3: Pinned container"
  else if code = 4 then some "4: Warming done"
  else if code = 6 then some "6: Container stop"
  else if code = 10 then some "10: Start invoking"
  else if code = 11 then some "11: Stop invoking"
  else if code = -1 then some "Exit simulation"
  else none

inductive Ending
  | exit (status : Nat)
  | attributeError (name : String)
  deriving DecidableEq

structure Executed where
  calls : List Call
  ending : Option Ending := none

section Controller

-- The names that the system object has as attributes.
variable (attrs : List String)

def executeM5FailCode (code : Int) : Executed :=
  match failCodes code with
  | none => ⟨[.print ("Nothing to do for fail code: %s " ++ toString code)], none⟩
  | some text =>
    if code = 10 then
      if "switchToDetailedCpus" ∈ attrs then
        ⟨[prYellow text, .print "Switch detailed core", .switchToDetailedCpus, .statsReset], none⟩
      else
        ⟨[prYellow text, .print "Switch detailed core"],
          some (.attributeError "switchToDetailedCpus")⟩
    else if code = 11 then
      if "switchToKvmCpus" ∈ attrs then
        ⟨[prYellow text, .print "Switch to kvm core", .switchToKvmCpus, .statsDump, .statsReset],
          none⟩
      else ⟨[prYellow text, .print "Switch to kvm core"], some (.attributeError "switchToKvmCpus")⟩
    else if code = -1 then ⟨[prYellow text, prGreen "Simulation done."], some (.exit 0)⟩
    else ⟨[prYellow text], none⟩

def simulateStep (e : ExitEvent) : Reactive.Reaction (Option Ending) Call :=
  let x :=
    if e.cause = "m5_fail instruction encountered" then executeM5FailCode attrs e.code
    else if e.cause = "user interrupt received" then
      ⟨[.print "Received user interrupt. Exit simulation"], some (.exit 1)⟩
    else ⟨[.print ("Exit cause: " ++ e.cause ++ " | code: " ++ toString e.code)], none⟩
  ⟨x.ending, if x.ending.isSome then x.calls else x.calls ++ [.print "Start simulation..."],
    x.ending.isSome⟩

end Controller

section Guest

def calledFive : List Char := "SUCCESS: Calling functions for 5 times".toList

structure Process where
  host : Host
  oracle : Nat → Response

def Process.run (p : Process) (n : Int) : Interaction.Run Action Query Response Nat :=
  (testClient n 0 false p.host).run p.oracle 0

/-- The machine under test: the exit statuses of docker-compose, what it and the
kernel print, and the two clients. -/
structure Machine where
  upStatus : Nat
  downStatus : Nat
  boot : List Line
  up : List Line
  pin : List Line
  down : List Line
  whole : ∀ l ∈ boot ++ up ++ pin ++ down, '\n' ∉ l
  warming : Process
  measurement : Process

inductive Item
  | line (l : Line)
  | m5Fail (code : Int)

def Item.line? : Item → Option Line
  | .line l => some l
  | .m5Fail _ => none

def Machine.succeeded (m : Machine) : Bool :=
  ((m.warming.run 5000).value = 0 ∨ (m.measurement.run 5).value = 0) ∧ m.upStatus = 0 ∧
    m.downStatus = 0

def clientItems (lg : Logger calledFive) (p : Process) (n : Int) : List Item :=
  ((p.run n).steps.filterMap lg.write).map .line

def echo (text : String) : Item := .line text.toList

def warmingItems (lg : Logger calledFive) (m : Machine) : List Item :=
  m.boot.map .line ++ .m5Fail 1 :: echo "Start the container..." ::
    (m.up.map .line ++ .m5Fail 2 :: echo "Pin to core 1" ::
      (m.pin.map .line ++ .m5Fail 3 :: (clientItems lg m.warming 5000 ++ [.m5Fail 4])))

def stopItems (m : Machine) : List Item :=
  m.down.map .line ++
    [.m5Fail 6, echo (if m.succeeded then "SUCCESS: All commands completed successfully"
      else "FAIL: Commands failed")]

def writeRunScript (lg : Logger calledFive) (m : Machine) : List Item :=
  warmingItems lg m ++ .m5Fail 10 :: (clientItems lg m.measurement 5 ++ .m5Fail 11 ::
    (stopItems m ++ [.m5Fail (-1)]))

def guestStep (attrs : List String) (s : Option Ending) :
    Item → Reactive.Reaction (Option Ending) Call
  | .line _ => ⟨s, [], false⟩
  | .m5Fail code => simulateStep attrs ⟨"m5_fail instruction encountered", code⟩

/-- `run_simulator`; the guest stands still as soon as the controller has ended. -/
def runSimulator (attrs : List String) (lg : Logger calledFive) (m : Machine) :
    Reactive.Outcome (Option Ending) Item Call :=
  Reactive.run (guestStep attrs) none (writeRunScript lg m)

/-- `system.pc.com_1.device`. -/
def console (o : Reactive.Outcome (Option Ending) Item Call) : List Char :=
  Text.unlines ((o.trace.map Prod.fst).filterMap Item.line?)

def checkSimLog (log : List Char) : Bool := Shell.grepCount calledFive log ≠ 0

def passes (attrs : List String) (lg : Logger calledFive) (m : Machine) : Bool :=
  (runSimulator attrs lg m).state = some (.exit 0) &&
    checkSimLog (console (runSimulator attrs lg m))

end Guest

/-- The methods that the classes of the two systems define. -/
def sklSystem : List String :=
  ["__init__", "getHostParallel", "createCPU", "switchToAtomicCpu", "switchToMainCpu",
    "setDiskImage", "createCacheHierarchy", "connectCPUDirectly", "flushCaches",
    "createSimpleMemoryController", "createMemoryController", "_createMemoryControllers",
    "_getInterleaveRanges", "setupInterrupts"]

def simpleSystem : List String :=
  ["__init__", "getHostParallel", "createCPU", "switchToAtomicCpu", "switchToMainCpu",
    "setDiskImage", "createCacheHierarchy", "connectCPUDirectly", "createMemoryControllers",
    "setupInterrupts"]

section Client

variable (p : Process) {n : Int} (lg : Logger calledFive)

theorem sought_calledFive : Sought calledFive := ⟨⟨_, rfl⟩, by decide⟩

theorem Process.countP_run (hn : flagInt n = some n) :
    ((p.run n).steps.filterMap lg.write).countP (Text.contains calledFive) =
      stray calledFive p.oracle n.toNat +
        if (p.oracle 0).err = none then mention calledFive (verdict n) else 0 := by
  have hmain := sought_calledFive.logged_main p.oracle
    (f := { numInvoke := n, numWarm := 0, m5Enable := false }) p.host rfl rfl (Int.le_refl 0)
  rw [lg.countP_write, Process.run, testClient, hn]
  exact hmain

theorem mention_verdicts :
    mention calledFive (verdict 5) = 1 ∧ mention calledFive (verdict 5000) = 0 := by
  decide +kernel

theorem newline_notMem_write {ss : List Step} {l : Line} (hl : l ∈ ss.filterMap lg.write) :
    '\n' ∉ l := by
  obtain ⟨s, -, hs⟩ := List.mem_filterMap.mp hl
  unfold Logger.write at hs
  split at hs
  · exact Option.some.inj hs ▸ lg.whole _ _
  · cases hs

end Client

section Runs

variable {attrs : List String} {items : List Item}

def Item.goesOn (attrs : List String) : Item → Bool
  | .line _ => true
  | .m5Fail code =>
    (code ≠ 10 || "switchToDetailedCpus" ∈ attrs) && (code ≠ 11 || "switchToKvmCpus" ∈ attrs) &&
      code ≠ -1

theorem guestStep_goesOn {i : Item} (h : i.goesOn attrs = true) :
    (guestStep attrs none i).state = none ∧ (guestStep attrs none i).stop = false := by
  cases i with
  | line l => exact ⟨rfl, rfl⟩
  | m5Fail code =>
    simp only [Item.goesOn, Bool.and_eq_true, Bool.or_eq_true, decide_eq_true_eq] at h
    obtain ⟨⟨hdetailed, hkvm⟩, hlast⟩ := h
    have hending : (executeM5FailCode attrs code).ending = none := by
      rw [executeM5FailCode]
      split
      · rfl
      · split
        · rename_i h10
          rw [if_pos (hdetailed.resolve_left (fun hne => hne h10))]
        · split
          · rename_i h11
            rw [if_pos (hkvm.resolve_left (fun hne => hne h11))]
          · rfl
    simp [guestStep, simulateStep, hending]

theorem run_goesOn (h : ∀ i ∈ items, i.goesOn attrs = true) :
    (Reactive.run (guestStep attrs) none items).stopped = false ∧
      (Reactive.run (guestStep attrs) none items).state = none := by
  induction items with
  | nil => exact ⟨rfl, rfl⟩
  | cons i items ih =>
    obtain ⟨hi, hitems⟩ := List.forall_mem_cons.mp h
    obtain ⟨hstate, hstop⟩ := guestStep_goesOn hi
    rw [Reactive.run_cons_of_continue hstop, hstate]
    exact ih hitems

theorem run_ends (h : ∀ i ∈ items, i.goesOn attrs = true) {i : Item}
    (hi : (guestStep attrs none i).stop = true) (rest : List Item) :
    (Reactive.run (guestStep attrs) none (items ++ i :: rest)).state =
        (guestStep attrs none i).state ∧
      (Reactive.run (guestStep attrs) none (items ++ i :: rest)).trace.map Prod.fst =
        items ++ [i] := by
  obtain ⟨hrunning, hstate⟩ := run_goesOn h
  rw [Reactive.run_append_of_running hrunning, hstate, Reactive.run_cons_of_stop hi,
    List.map_append, Reactive.map_fst_trace_of_running hrunning]
  exact ⟨rfl, rfl⟩

variable (lg : Logger calledFive) (m : Machine)

theorem goesOn_lines (ls : List Line) : ∀ i ∈ ls.map Item.line, i.goesOn attrs = true := by
  intro i hi
  obtain ⟨l, -, rfl⟩ := List.mem_map.mp hi
  rfl

theorem goesOn_warmingItems : ∀ i ∈ warmingItems lg m, i.goesOn attrs = true := by
  simp only [warmingItems, clientItems, List.forall_mem_append, List.forall_mem_cons]
  exact ⟨goesOn_lines _, rfl, rfl, goesOn_lines _, rfl, rfl, goesOn_lines _, rfl, goesOn_lines _,
    rfl, by simp⟩

theorem goesOn_stopItems : ∀ i ∈ stopItems m, i.goesOn attrs = true := by
  simp only [stopItems, List.forall_mem_append, List.forall_mem_cons]
  exact ⟨goesOn_lines _, rfl, rfl, by simp⟩

theorem runSimulator_of_detailed (h : "switchToDetailedCpus" ∉ attrs) :
    (runSimulator attrs lg m).state = some (.attributeError "switchToDetailedCpus") ∧
      (runSimulator attrs lg m).trace.map Prod.fst = warmingItems lg m ++ [.m5Fail 10] := by
  have hstep : guestStep attrs none (.m5Fail 10) =
      ⟨some (.attributeError "switchToDetailedCpus"),
        [prYellow "10: Start invoking", .print "Switch detailed core"], true⟩ := by
    simp [guestStep, simulateStep, executeM5FailCode, failCodes, h]
  have hends := run_ends (goesOn_warmingItems lg m) (i := .m5Fail 10) (by rw [hstep])
    (clientItems lg m.measurement 5 ++ .m5Fail 11 :: (stopItems m ++ [.m5Fail (-1)]))
  rw [hstep] at hends
  exact hends

theorem runSimulator_of_kvm (hdetailed : "switchToDetailedCpus" ∈ attrs)
    (hkvm : "switchToKvmCpus" ∉ attrs) :
    (runSimulator attrs lg m).state = some (.attributeError "switchToKvmCpus") := by
  have hstep : guestStep attrs none (.m5Fail 11) =
      ⟨some (.attributeError "switchToKvmCpus"),
        [prYellow "11: Stop invoking", .print "Switch to kvm core"], true⟩ := by
    simp [guestStep, simulateStep, executeM5FailCode, failCodes, hkvm]
  have hfront : ∀ i ∈ warmingItems lg m ++ .m5Fail 10 :: clientItems lg m.measurement 5,
      i.goesOn attrs = true := by
    rw [List.forall_mem_append, List.forall_mem_cons]
    exact ⟨goesOn_warmingItems lg m, by simp [Item.goesOn, hdetailed], goesOn_lines _⟩
  have hends := run_ends hfront (i := .m5Fail 11) (by rw [hstep]) (stopItems m ++ [.m5Fail (-1)])
  rw [hstep, List.append_assoc] at hends
  exact hends.1

theorem runSimulator_of_both (hdetailed : "switchToDetailedCpus" ∈ attrs)
    (hkvm : "switchToKvmCpus" ∈ attrs) :
    (runSimulator attrs lg m).state = some (.exit 0) ∧
      (runSimulator attrs lg m).trace.map Prod.fst = writeRunScript lg m := by
  have hstep : guestStep attrs none (.m5Fail (-1)) =
      ⟨some (.exit 0), [prYellow "Exit simulation", prGreen "Simulation done."], true⟩ := by
    simp [guestStep, simulateStep, executeM5FailCode, failCodes]
  have hsplit : writeRunScript lg m = (warmingItems lg m ++ .m5Fail 10 ::
      (clientItems lg m.measurement 5 ++ .m5Fail 11 :: stopItems m)) ++ [.m5Fail (-1)] := by
    simp [writeRunScript]
  have hfront : ∀ i ∈ warmingItems lg m ++ .m5Fail 10 ::
      (clientItems lg m.measurement 5 ++ .m5Fail 11 :: stopItems m), i.goesOn attrs = true := by
    simp only [List.forall_mem_append, List.forall_mem_cons]
    exact ⟨goesOn_warmingItems lg m, by simp [Item.goesOn, hdetailed], goesOn_lines _,
      by simp [Item.goesOn, hkvm], goesOn_stopItems m⟩
  have hends := run_ends hfront (i := .m5Fail (-1)) (by rw [hstep]) []
  rw [hstep, ← hsplit] at hends
  exact hends

end Runs

section Log

variable (lg : Logger calledFive) (m : Machine)

def Machine.others : List Line := m.boot ++ m.up ++ m.pin ++ m.down

theorem filterMap_line?_map (ls : List Line) : (ls.map Item.line).filterMap Item.line? = ls := by
  rw [List.filterMap_map]
  exact List.filterMap_some

theorem filterMap_line?_script : (writeRunScript lg m).filterMap Item.line? =
    m.boot ++ "Start the container...".toList :: (m.up ++ "Pin to core 1".toList :: (m.pin ++
      ((m.warming.run 5000).steps.filterMap lg.write ++
        ((m.measurement.run 5).steps.filterMap lg.write ++ (m.down ++
          [(if m.succeeded then "SUCCESS: All commands completed successfully"
            else "FAIL: Commands failed").toList]))))) := by
  simp only [writeRunScript, warmingItems, stopItems, clientItems, echo, List.filterMap_append,
    List.filterMap_cons, List.filterMap_nil, Item.line?, filterMap_line?_map, List.append_assoc,
    List.cons_append, List.nil_append]

theorem echoes : ∀ text ∈ ["Start the container...", "Pin to core 1",
    "SUCCESS: All commands completed successfully", "FAIL: Commands failed"],
    '\n' ∉ text.toList ∧ Text.contains calledFive text.toList = false := by
  decide +kernel

theorem newline_notMem_script : ∀ l ∈ (writeRunScript lg m).filterMap Item.line?, '\n' ∉ l := by
  have hothers := m.whole
  simp only [List.forall_mem_append] at hothers
  obtain ⟨⟨⟨hboot, hup⟩, hpin⟩, hdown⟩ := hothers
  have hlast : '\n' ∉ (if m.succeeded then "SUCCESS: All commands completed successfully"
      else "FAIL: Commands failed").toList := by
    split
    · exact (echoes _ (by simp)).1
    · exact (echoes _ (by simp)).1
  rw [filterMap_line?_script]
  simp only [List.forall_mem_append, List.forall_mem_cons]
  exact ⟨hboot, (echoes _ (by simp)).1, hup, (echoes _ (by simp)).1, hpin,
    fun l hl => newline_notMem_write lg hl, fun l hl => newline_notMem_write lg hl, hdown, hlast,
    by simp⟩

theorem checkSimLog_script :
    checkSimLog (Text.unlines ((writeRunScript lg m).filterMap Item.line?)) = true ↔
      (m.measurement.oracle 0).err = none ∨
        stray calledFive m.warming.oracle 5000 + stray calledFive m.measurement.oracle 5 ≠ 0 ∨
        ∃ l ∈ m.others, calledFive <:+: l := by
  -- the verdict of the warming client names another number
  obtain ⟨hfive, hmany⟩ := mention_verdicts
  have hlast : Text.contains calledFive (if m.succeeded then
      "SUCCESS: All commands completed successfully" else "FAIL: Commands failed").toList =
        false := by
    split
    · exact (echoes _ (by simp)).2
    · exact (echoes _ (by simp)).2
  have hothers : (∃ l ∈ m.others, calledFive <:+: l) ↔
      m.others.countP (Text.contains calledFive) ≠ 0 := by
    rw [← Nat.pos_iff_ne_zero, List.countP_pos_iff]
    simp [Text.contains]
  rw [checkSimLog, decide_eq_true_eq,
    Shell.grepCount_unlines (by decide) (by decide) (newline_notMem_script lg m),
    filterMap_line?_script, hothers]
  simp only [Machine.others, List.countP_append, List.countP_cons, List.countP_nil,
    m.warming.countP_run lg (show flagInt 5000 = some 5000 from rfl),
    m.measurement.countP_run lg (show flagInt 5 = some 5 from rfl), hfive, hmany, hlast,
    (echoes "Start the container..." (by simp)).2, (echoes "Pin to core 1" (by simp)).2]
  have hcounts : Int.toNat 5000 = 5000 ∧ Int.toNat 5 = 5 := ⟨rfl, rfl⟩
  rw [hcounts.1, hcounts.2, ite_self]
  cases (m.measurement.oracle 0).err with
  | none => simp
  | some e =>
    simp only [Bool.false_eq_true, reduceCtorEq, if_false, false_or]
    omega

end Log

theorem passes_iff (lg : Logger calledFive) (m : Machine) :
    (∀ attrs, passes attrs lg m = true ↔
      "switchToDetailedCpus" ∈ attrs ∧ "switchToKvmCpus" ∈ attrs ∧
        ((m.measurement.oracle 0).err = none ∨
          stray calledFive m.warming.oracle 5000 + stray calledFive m.measurement.oracle 5 ≠ 0 ∨
          ∃ l ∈ m.others, calledFive <:+: l)) ∧
    ∀ methods ∈ [sklSystem, simpleSystem], ∀ inherited, "switchToDetailedCpus" ∉ inherited →
      passes (methods ++ inherited) lg m = false ∧
      (runSimulator (methods ++ inherited) lg m).state =
        some (.attributeError "switchToDetailedCpus") ∧
      (runSimulator (methods ++ inherited) lg m).trace.map Prod.fst =
        warmingItems lg m ++ [.m5Fail 10] := by
  constructor
  · intro attrs
    rw [passes, Bool.and_eq_true, decide_eq_true_eq]
    by_cases hdetailed : "switchToDetailedCpus" ∈ attrs
    · by_cases hkvm : "switchToKvmCpus" ∈ attrs
      · obtain ⟨hstate, htrace⟩ := runSimulator_of_both lg m hdetailed hkvm
        rw [console, hstate, htrace, checkSimLog_script]
        simp only [hdetailed, hkvm, true_and]
      · rw [runSimulator_of_kvm lg m hdetailed hkvm]
        simp [hkvm]
    · rw [(runSimulator_of_detailed lg m hdetailed).1]
      simp [hdetailed]
  · intro methods hmethods inherited hinherited
    have hnone : "switchToDetailedCpus" ∉ methods ++ inherited := by
      have hown : "switchToDetailedCpus" ∉ methods := by
        rcases List.mem_pair.mp hmethods with rfl | rfl <;> decide
      rw [List.mem_append, not_or]
      exact ⟨hown, hinherited⟩
    obtain ⟨hstate, htrace⟩ := runSimulator_of_detailed lg m hnone
    refine ⟨?_, hstate, htrace⟩
    rw [passes, hstate]
    rfl

theorem plain_calledFive : Plain calledFive where
  toSought := sought_calledFive
  quote := by decide
  slash := by decide

def answering (r : Response) : Machine where
  upStatus := 0
  downStatus := 0
  boot := ["Welcome to Ubuntu".toList]
  up := ["Creating fibonacci ... done".toList]
  pin := ["fibonacci".toList]
  down := ["Removing fibonacci ... done".toList]
  whole := by decide
  warming := ⟨{}, fun _ => r⟩
  measurement := ⟨{}, fun _ => r⟩

theorem passes_iff_answering :
    let m := answering ⟨"Hello", none⟩
    passes ["switchToDetailedCpus", "switchToKvmCpus"] (logrus plain_calledFive) m = true ∧
      passes sklSystem (logrus plain_calledFive) m = false := by
  intro m
  have h := passes_iff (logrus plain_calledFive) m
  refine ⟨(h.1 _).mpr ⟨by decide, by decide, .inl rfl⟩, ?_⟩
  exact (h.2 sklSystem (by simp) [] (by simp)).1

end VSwarm.SimTest
