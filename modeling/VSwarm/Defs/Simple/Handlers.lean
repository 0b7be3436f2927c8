import VSwarm.Lib.Reactive
import VSwarm.Defs.Client.MainLaws

/-! The event handlers of `vswarm_simple.tmpl.py` and its ARM copy, which have the
same Python code.  A generator is the state in which it is suspended; `next`
resumes it. -/

namespace VSwarm.Simple

open VSwarm.Lib VSwarm.Client

inductive Mode | setup | evaluation
  deriving DecidableEq

structure Args where
  mode : Mode := .setup
  function : String := "fibonacci-go"
  atomicWarming : Int := 0
  numInvocations : Int := 5
  checkpointDir : String := "checkpoints/"
  deriving DecidableEq

inductive ExitEvent | workbegin | workend | exit | fail
  deriving DecidableEq

inductive Call
  | print (text : String)
  | statsReset
  | statsDump
  | exit
  | checkpoint (path : String)
  deriving DecidableEq

/-- What `next` gives back; the value is `none` if it raises `StopIteration`. -/
structure Yield (σ : Type) where
  state : σ
  calls : List Call
  value : Option Bool

/-- `workitems` suspended at a `yield`.  After `yield True` the loop body still
has its `yield False` to run. -/
structure Workitems where
  cnt : Int := 1
  afterTrue : Bool := false

def workitems (args : Args) (start : Bool) (g : Workitems) : Yield Workitems :=
  if g.afterTrue then ⟨{ g with afterTrue := false }, [], some false⟩
  else
    let text := if start then "Begin Invocation  " else "End Invocation  "
    let cnt := if start then g.cnt else g.cnt + 1
    if args.mode = .evaluation ∧ cnt ≥ args.numInvocations then
      ⟨⟨cnt, true⟩, [.print (text ++ toString g.cnt)], some true⟩
    else ⟨⟨cnt, false⟩, [.print (text ++ toString g.cnt)], some false⟩

/-- `executeExit`, suspended after its `n`-th `yield`. -/
def executeExit (args : Args) (n : Nat) : Yield Nat :=
  match args.mode, n with
  | .setup, 0 => ⟨1, [.print "1: BOOTING complete"], some false⟩
  | .setup, 1 => ⟨2, [.print "2: Started container"], some false⟩
  | .setup, 2 => ⟨3, [.print "3: Pinned container"], some false⟩
  | .setup, 3 => ⟨4, [.print "4: Stop client"], some false⟩
  | .setup, 4 => ⟨5, [.print "5: Stop container"], some false⟩
  | .setup, 5 => ⟨6, [.print "6: Stop simulation"], some true⟩
  | .evaluation, 0 => ⟨1, [.print "Simulation done", .statsDump, .exit], none⟩
  | _, n => ⟨n, [], none⟩

def ckpPath (args : Args) : String := args.checkpointDir ++ "/" ++ args.function

def executeFail (args : Args) (n : Nat) : Yield Nat :=
  match n with
  | 0 => ⟨1, [.print "1: Client started"], some false⟩
  | 1 => ⟨2, [.print "1: Function warming starts"], some false⟩
  | 2 =>
    ⟨3, .print "1: Function warming done" ::
      (if args.mode = .setup then [.checkpoint (ckpPath args)] else []), some false⟩
  | n + 3 => ⟨n + 3, [.print "1: Function warming done"], some false⟩

theorem executeFail_value (args : Args) (n : Nat) : (executeFail args n).value = some false := by
  rw [executeFail.eq_def]
  split <;> rfl

structure Handlers where
  begins : Workitems := {}
  ends : Workitems := {}
  exits : Nat := 0
  fails : Nat := 0

def Handlers.next (args : Args) (s : Handlers) : ExitEvent → Yield Handlers
  | .workbegin =>
    let y := workitems args true s.begins
    ⟨{ s with begins := y.state }, y.calls, y.value⟩
  | .workend =>
    let y := workitems args false s.ends
    ⟨{ s with ends := y.state }, y.calls, y.value⟩
  | .exit =>
    let y := executeExit args s.exits
    ⟨{ s with exits := y.state }, y.calls, y.value⟩
  | .fail =>
    let y := executeFail args s.fails
    ⟨{ s with fails := y.state }, y.calls, y.value⟩

/-- `simulator.run()` on one exit event.  gem5 falls back to its own handler
once a generator has ended, and `fallback` says whether that one stops. -/
def reactTo {σ : Type} (next : σ → ExitEvent → Yield σ) (fallback : ExitEvent → Bool) (s : σ)
    (e : ExitEvent) : Reactive.Reaction σ Call where
  state := (next s e).state
  calls := (next s e).calls
  stop := (next s e).value.getD (fallback e)

def simulatorStep (args : Args) (fallback : ExitEvent → Bool) :
    Handlers → ExitEvent → Reactive.Reaction Handlers Call :=
  reactTo (Handlers.next args) fallback

def simulate (args : Args) (fallback : ExitEvent → Bool) :
    Handlers → List ExitEvent → Reactive.Outcome Handlers ExitEvent Call :=
  Reactive.run (simulatorStep args fallback)

def writeRunScript (args : Args) : Guest Unit :=
  script
    [.m5Exit, .shell "echo \"Start the container...\"",
      .shell ("docker-compose -f /root/functions.yaml up -d " ++ args.function), .m5Exit,
      .shell "echo \"Pin function container to core 1\"",
      .shell "docker update function --cpuset-cpus 1", .shell "sleep 5", .m5Exit]
    (testClient args.numInvocations args.atomicWarming true {})
    [.m5Exit, .m5Exit, .m5Exit]

def exitEvent : Step → Option ExitEvent
  | .act .m5Exit => some .exit
  | .act (.m5Fail _) => some .fail
  | .act (.workBegin _) => some .workbegin
  | .act (.workEnd _) => some .workend
  | _ => none

def observe {σ : Type} (react : σ → ExitEvent → Reactive.Reaction σ Call) (s : σ) (step : Step) :
    Reactive.Reaction σ Call :=
  match exitEvent step with
  | some e => react s e
  | none => ⟨s, [], false⟩

theorem observe_of_event {σ : Type} {react : σ → ExitEvent → Reactive.Reaction σ Call} {s : σ}
    {step : Step} {e : ExitEvent} (h : exitEvent step = some e) :
    observe react s step = react s e := by
  rw [observe, h]

theorem observe_of_none {σ : Type} {react : σ → ExitEvent → Reactive.Reaction σ Call} {s : σ}
    {step : Step} (h : exitEvent step = none) : observe react s step = ⟨s, [], false⟩ := by
  rw [observe, h]

def guestStep (args : Args) (fallback : ExitEvent → Bool) :
    Handlers → Step → Reactive.Reaction Handlers Call :=
  observe (simulatorStep args fallback)

/-- The guest's steps other than the client's log lines, which the simulator
does not see. -/
def guestSteps (args : Args) (oracle : Nat → Response) : List Step :=
  visible ((writeRunScript args).run oracle 0).steps

def simulateGuest (args : Args) (fallback : ExitEvent → Bool) (oracle : Nat → Response) :
    Reactive.Outcome Handlers Step Call :=
  Reactive.run (guestStep args fallback) {} (guestSteps args oracle)

def workloadCheckpoint (args : Args) : Option String :=
  if args.mode = .evaluation then some (ckpPath args) else none

end VSwarm.Simple
