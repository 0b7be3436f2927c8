import Mathlib.Algebra.Ring.Int.Defs
import VSwarm.Lib.Interaction
import VSwarm.Defs.Client.M5Ops

/-! The test client, `tools/client/main.go`.  The gRPC client library is the
environment: it answers the `Init` call and every request. -/

namespace VSwarm.Client

open VSwarm.Lib

/-- What a program on the guest machine does that can be seen from outside.
`m5 exit` and the other shell commands are the run scripts' own. -/
inductive Action
  | log (level : Level) (msg : String)
  | shell (command : String)
  | m5Exit
  | m5Fail (code : Int)
  | workBegin (id : Int)
  | workEnd (id : Int)
  deriving DecidableEq

inductive Site | main | invoke
  deriving DecidableEq

inductive Query
  | init
  | request (site : Site)
  deriving DecidableEq

/-- An answer of the gRPC library: the reply text and the error, if any.  `Init`
returns no reply. -/
structure Response where
  reply : String
  err : Option String
  deriving DecidableEq

abbrev Guest := Interaction.Prog Action Query Response

abbrev Step := Interaction.Step Action Query Response

structure Flags where
  numInvoke : Int := 10
  numWarm : Int := 0
  m5Enable : Bool := false
  verbose : Bool := false

structure Host where
  root : Bool := true
  m5opAddr : Nat := 0xffff0000

def printf (msg : String) : Guest Unit := .perform (.log .info msg)

def warnf (msg : String) : Guest Unit := .perform (.log .warning msg)

def errorf (msg : String) : Guest Unit := .perform (.log .error msg)

def debugf (f : Flags) (msg : String) : Guest Unit :=
  .when f.verbose (.perform (.log .debug msg))

def fatalf (msg : String) : Guest Nat := do
  .perform (.log .fatal msg)
  return 1

def logAll (ms : List M5Ops.Message) : Guest Unit :=
  .performAll (ms.filterMap fun | .log level text => some (.log level text) | .stderr _ => none)

def newM5Ops (h : Host) : Guest Unit := logAll (M5Ops.initMessages h.m5opAddr h.root)

def fail (h : Host) (code : Int) : Guest Unit :=
  if h.root then .perform (.m5Fail code) else logAll (M5Ops.Method.fail 0 code).disabled

def workBegin (h : Host) (id : Int) : Guest Unit :=
  .when h.root (.perform (.workBegin id))

def workEnd (h : Host) (id : Int) : Guest Unit :=
  .when h.root (.perform (.workEnd id))

def logErr (log : String → Guest Unit) (text : String) : Option String → Guest Unit
  | none => pure ()
  | some e => log (text ++ e ++ "\n")

def report (f : Flags) (mod i : Nat) (rep : Response) : Guest Unit := do
  logErr warnf "Fail to invoke: " rep.err
  debugf f ("Invocation " ++ toString i ++ ": " ++ rep.reply)
  .when (i % mod = 0) (printf ("Invoked for " ++ toString i ++ " times\n"))

def invokeLoop (f : Flags) (h : Host) (instrument : Bool) (mod : Nat) :
    Nat → Nat → Guest Unit
  | _, 0 => pure ()
  | i, left + 1 => do
    .when instrument (workBegin h (100 + i))
    let rep ← .query (.request .invoke)
    .when instrument (workEnd h (100 + i))
    report f mod i rep
    invokeLoop f h instrument mod (i + 1) left

def invokeFunction (f : Flags) (h : Host) (n : Int) (instrument : Bool) : Guest Unit :=
  let mod := if n > 2 * 5 then (n / 5).toNat else 1
  invokeLoop f h instrument mod 0 n.toNat

def warmFunction (f : Flags) (h : Host) : Guest Unit := do
  printf ("Invoke functions " ++ toString f.numWarm ++ " times for warming")
  .when f.m5Enable (fail h 31)
  invokeFunction f h f.numWarm false
  .when f.m5Enable (fail h 32)

def main (f : Flags) (h : Host) : Guest Nat := do
  printf "-- Invokation test --"
  .when f.m5Enable (do
    newM5Ops h
    fail h 20)
  let conn ← .query .init
  match conn.err with
  | some e => fatalf ("Fail to init client: " ++ e ++ "\n")
  | none => do
    printf "Connection established.\n"
    let reply ← .query (.request .main)
    logErr errorf "Fail to send request: " reply.err
    printf ("Greeting: " ++ reply.reply)
    .when (f.numWarm > 0) (warmFunction f h)
    invokeFunction f h f.numInvoke f.m5Enable
    printf ("Finished invoking: " ++ reply.reply)
    printf ("SUCCESS: Calling functions for " ++ toString f.numInvoke ++ " times")
    return 0

def flagInt (v : Int) : Option Int := if -2 ^ 63 ≤ v ∧ v < 2 ^ 63 then some v else none

/-- The process started as `test-client -n n -w w [-m5ops]`.  `flag.Parse`
exits with status 2 if a number is out of range. -/
def testClient (n w : Int) (m5ops : Bool) (h : Host) : Guest Nat :=
  match flagInt n, flagInt w with
  | some n, some w => main { numInvoke := n, numWarm := w, m5Enable := m5ops } h
  | _, _ => return 2

/-- A run script: commands, the client, and more commands whatever the client's
exit status was. -/
def script (before : List Action) (client : Guest Nat) (after : List Action) : Guest Unit := do
  .performAll before
  let _ ← client
  .performAll after

end VSwarm.Client
