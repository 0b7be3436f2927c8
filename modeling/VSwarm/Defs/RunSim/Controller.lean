import VSwarm.Lib.Reactive

/-! The simulation controller of `run_sim.tmpl.py` and of
`run_sim_two_machine.tmpl.py`.  Both templates carry the same handlers; where
the two-machine template also drives the second system, the definition takes
the template as a parameter. -/

namespace VSwarm.RunSim

open VSwarm.Lib

inductive Template | runSim | twoMachine
  deriving DecidableEq

inductive Machine | system | driveSys
  deriving DecidableEq

def Template.machines : Template → List Machine
  | .runSim => [.system]
  | .twoMachine => [.system, .driveSys]

inductive Mode | setup | evaluation
  deriving DecidableEq

inductive UseCheckpoint | boot | warm
  deriving DecidableEq

def UseCheckpoint.text : UseCheckpoint → String
  | .boot => "boot"
  | .warm => "warm"

structure Args where
  mode : Mode := .setup
  atomicWarming : Int := 0
  numInvocations : Int := 5
  function : String := ""
  checkpointDir : String := "cpt_1m/"
  useCheckpoint : UseCheckpoint := .warm
  deriving DecidableEq

/-- `exit_event` as `m5.simulate()` returns it: `getCause()` and `getCode()`. -/
structure ExitEvent where
  cause : String
  code : Int
  deriving DecidableEq

inductive Kind
  | fail (code : Int)
  | workbegin (id : Int)
  | workend (id : Int)
  | userInterrupt
  | other (cause : String) (code : Int)
  deriving DecidableEq

def ExitEvent.kind (e : ExitEvent) : Kind :=
  if e.cause = "m5_fail instruction encountered" then .fail e.code
  else if e.cause = "workbegin" then .workbegin e.code
  else if e.cause = "workend" then .workend e.code
  else if e.cause = "user interrupt received" then .userInterrupt
  else .other e.cause e.code

/-- What the script does to the world, one constructor for each call it makes. -/
inductive Call
  | print (text : String)
  | instantiate (ckp : Option String)
  | switchToAtomicCpu (m : Machine)
  | switchToMainCpu (m : Machine)
  | statsReset
  | statsDump
  | checkpoint (path : String)
  deriving DecidableEq

def prGreen (skk : String) : Call := .print ("\x1b[92m " ++ skk ++ "\x1b[00m")

def prYellow (skk : String) : Call := .print ("\x1b[93m " ++ skk ++ "\x1b[00m")

/-- `FAIL_CODES`, with `none` for a code that is not a key. -/
def failCodes (code : Int) : Option String :=
  if code = 1 then some "1: BOOTING complete"
  else if code = 2 then some "2: Started container"
  else if code = 3 then some "3: Pinned container"
  else if code = 4 then some "4: Warming done"
  else if code = 6 then some "6: Container stop"
  else if code = 10 then some "10: Start client"
  else if code = 11 then some "11: Stop client"
  else if code = 21 then some "21: Send request  ->"
  else if code = 22 then some "22: Recv response <-"
  else if code = 31 then some "31: Start warming"
  else if code = 32 then some "32: Stop warming"
  else if code = -1 then some "Exit simulation"
  else none

/-- The two global counters, at their module-level initial values. -/
structure State where
  invToWarm : Int := -1
  invToMeasure : Int := -1
  deriving DecidableEq

/-- A handler's effect, with the Python value it returns (`none` is `None`). -/
structure Handled where
  state : State
  calls : List Call
  ret : Option Bool

def workitem (t : Template) (args : Args) (s : State) (begin : Bool) (id : Int) : Handled :=
  let id := id - 100
  if args.mode ≠ .evaluation then ⟨s, [], none⟩
  else if begin then
    let started := prYellow ("Start invokation: " ++ toString id)
    if s.invToWarm > 0 then ⟨s, [started], none⟩
    else if s.invToWarm = 0 then
      ⟨{ s with invToWarm := -1 },
        [started, prGreen "Warming done"] ++ t.machines.map .switchToMainCpu ++ [.statsReset],
        none⟩
    else ⟨s, [started], none⟩
  else
    let ended := prYellow ("End invokation: " ++ toString id)
    if s.invToWarm > 0 then ⟨{ s with invToWarm := s.invToWarm - 1 }, [ended], none⟩
    else
      let s := if s.invToMeasure > 0 then { s with invToMeasure := s.invToMeasure - 1 } else s
      if s.invToMeasure = 0 then
        ⟨s, [ended, prGreen "Measuring done", .statsDump], some true⟩
      else ⟨s, [ended], none⟩

def ckpPath (args : Args) (name : String) : String :=
  args.checkpointDir ++ "/" ++ args.function ++ "/cpt." ++ name

def executeM5FailCode (args : Args) (s : State) (code : Int) : Handled :=
  match failCodes code with
  | none => ⟨s, [.print ("Nothing to do for fail code: %s " ++ toString code)], some false⟩
  | some text =>
    -- the branch is only entered for code 32, so the name it computes is "warm"
    let ckp := ckpPath args (if code = 1 then "boot" else if code = 32 then "warm" else "xx")
    let taken := if code = 32 then
      [.print ("Create checkpoint:  " ++ ckp), .checkpoint ckp] else []
    if code = -1 then ⟨s, [prYellow text] ++ taken ++ [prGreen "Simulation done."], some true⟩
    else ⟨s, [prYellow text] ++ taken, none⟩

/-- The body of the loop in `simulate` for one exit event.  The last branch
leaves `_exit` as it was, and inside the loop it is false. -/
def handle (t : Template) (args : Args) (s : State) (e : ExitEvent) : Handled :=
  match e.kind with
  | .fail code => executeM5FailCode args s code
  | .workbegin id => workitem t args s true id
  | .workend id => workitem t args s false id
  | .userInterrupt => ⟨s, [.print "Received user interrupt. Exit simulation"], some true⟩
  | .other cause code =>
    ⟨s, [.print ("Exit cause: " ++ cause ++ " | code: " ++ toString code)], some false⟩

def startSimulation : Call := .print "Start simulation..."

def simulateStep (t : Template) (args : Args) (s : State) (e : ExitEvent) :
    Reactive.Reaction State Call where
  state := (handle t args s e).state
  calls := startSimulation :: (handle t args s e).calls
  stop := (handle t args s e).ret = some true

def simulate (t : Template) (args : Args) : State → List ExitEvent →
    Reactive.Outcome State ExitEvent Call :=
  Reactive.run (simulateStep t args)

/-- What is printed once the events are used up: a running loop has announced
the next `m5.simulate()`, and only the two-machine template prints after its
loop has ended. -/
def simulateTail (t : Template) (stopped : Bool) : List Call :=
  if stopped then
    match t with
    | .runSim => []
    | .twoMachine => [prGreen "Simulation done."]
  else [startSimulation]

/-- One execution of the script: the calls of `__m5_main__` before `simulate`,
then the loop.  The loop is `none` if the simulator never came back from the
single `m5.simulate()` that settles a restored checkpoint. -/
structure Execution where
  startup : List Call
  loop : Option (Reactive.Outcome State ExitEvent Call)

def armed (args : Args) : State where
  invToWarm := if args.atomicWarming > 0 then args.atomicWarming else -1
  invToMeasure := args.numInvocations

/-- Only the two-machine template builds a root of its own; the quantum it
prints is 1000 µs in setup mode alone, the one mode that runs on kvm. -/
def makeDualRoot (kvm : Bool) : Call :=
  .print ("Tick freq = 1000000000000 ticks/sec. Set sim quantum to 1000000000 ticks/sec => " ++
    (if kvm then "1000" else "0") ++ "µs")

def configure (t : Template) (root : String) (args : Args) : List Call :=
  .print root ::
    match t with
    | .runSim => []
    | .twoMachine => [makeDualRoot (args.mode = .setup)]

def settle (t : Template) (root : String) (args : Args) : List Call :=
  let ckp := ckpPath args args.useCheckpoint.text
  configure t root args ++ [.print "--- Evaluation Mode ---",
    .print ("Instantiate checkpoint:  " ++ ckp), .instantiate (some ckp)]

def arm (t : Template) (args : Args) : List Call :=
  (if args.atomicWarming > 0 then t.machines.map .switchToAtomicCpu else []) ++
    [prGreen ("Warming for " ++ toString (armed args).invToWarm ++ " invocations"),
      prGreen ("Measure for " ++ toString (armed args).invToMeasure ++ " invocations")]

/-- `__m5_main__`, from the choice of the mode on.  In evaluation mode the
first exit event is consumed before the counters are armed. -/
def m5Main (t : Template) (root : String) (args : Args) (events : List ExitEvent) : Execution :=
  match args.mode with
  | .setup =>
    { startup := configure t root args ++ [.print "--- Setup Mode ---", .instantiate none]
      loop := some (simulate t args {} events) }
  | .evaluation =>
    match events with
    | [] => { startup := settle t root args, loop := none }
    | _ :: events =>
      { startup := settle t root args ++ arm t args
        loop := some (simulate t args (armed args) events) }

end VSwarm.RunSim
