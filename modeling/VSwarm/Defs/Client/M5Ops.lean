import Mathlib.Data.Nat.Bitwise
import Mathlib.Data.List.Basic

namespace VSwarm.Client

inductive Level | debug | info | warning | error | fatal
  deriving DecidableEq

end VSwarm.Client

namespace VSwarm.M5Ops

open VSwarm.Client (Level)

inductive PseudoOp
  | arm | quiesce | quiesceNs | quiesceCycle | quiesceTime | rpns | wakeCpu
  | exit | fail | sum | initParam | loadSymbol
  | resetStats | dumpStats | dumpResetStats | checkpoint
  | writeFile | readFile | debugBreak | switchCpu | addSymbol | panic
  | workBegin | workEnd | distToggleSync | workload
  deriving DecidableEq

def PseudoOp.func : PseudoOp → ℕ
  | .arm => 0x00
  | .quiesce => 0x01
  | .quiesceNs => 0x02
  | .quiesceCycle => 0x03
  | .quiesceTime => 0x04
  | .rpns => 0x07
  | .wakeCpu => 0x09
  | .exit => 0x21
  | .fail => 0x22
  | .sum => 0x23
  | .initParam => 0x30
  | .loadSymbol => 0x31
  | .resetStats => 0x40
  | .dumpStats => 0x41
  | .dumpResetStats => 0x42
  | .checkpoint => 0x43
  | .writeFile => 0x4F
  | .readFile => 0x50
  | .debugBreak => 0x51
  | .switchCpu => 0x52
  | .addSymbol => 0x53
  | .panic => 0x54
  | .workBegin => 0x5a
  | .workEnd => 0x5b
  | .distToggleSync => 0x62
  | .workload => 0x70

def foreach : List PseudoOp :=
  [.arm, .quiesce, .quiesceNs, .quiesceCycle, .quiesceTime, .rpns, .wakeCpu, .exit, .fail, .sum,
    .initParam, .loadSymbol, .resetStats, .dumpStats, .dumpResetStats, .checkpoint, .writeFile,
    .readFile, .debugBreak, .switchCpu, .addSymbol, .panic, .workBegin, .workEnd, .distToggleSync,
    .workload]

/-- The place of an operation in the window: `shl $8, %rax`. -/
def PseudoOp.offset (o : PseudoOp) : ℕ := o.func <<< 8

def windowSize : ℕ := 0x10000

/-- The operation that the simulator finds at a physical address, for a window at
`base`: its number is the second byte. -/
def decode (base a : ℕ) : Option PseudoOp :=
  if base ≤ a ∧ a < base + windowSize then foreach.find? (·.func = (a - base) >>> 8 % 256) else none

structure Mapping where
  base : ℕ
  base_ne : base ≠ 0
  fits : base + windowSize ≤ 2 ^ 64

/-- The values of `m5_mem`; `MAP_FAILED` is not null. -/
inductive Pointer
  | null
  | mapFailed
  | mapped (m : Mapping)

def Pointer.value : Pointer → ℕ
  | .null => 0
  | .mapFailed => 2 ^ 64 - 1
  | .mapped m => m.base

def Pointer.translate (base : ℕ) : Pointer → ℕ → Option ℕ
  | .mapped m, a =>
    if m.base ≤ a ∧ a < m.base + windowSize then some (base + (a - m.base)) else none
  | _, _ => none

inductive Method
  | exit (delay : ℤ)
  | fail (delay code : ℤ)
  | dumpStats (delay period : ℤ)
  | resetStats (delay period : ℤ)
  | dumpResetStats (delay period : ℤ)
  | workBegin (workid threadid : ℤ)
  | workEnd (workid threadid : ℤ)
  | workload

def Method.op : Method → PseudoOp
  | .exit _ => .exit
  | .fail _ _ => .fail
  | .dumpStats _ _ => .dumpStats
  | .resetStats _ _ => .resetStats
  | .dumpResetStats _ _ => .dumpResetStats
  | .workBegin _ _ => .workBegin
  | .workEnd _ _ => .workEnd
  | .workload => .workload

def Method.args : Method → List (BitVec 64)
  | .exit delay => [.ofInt 64 delay]
  | .fail delay code => [.ofInt 64 delay, .ofInt 64 code]
  | .dumpStats delay period => [.ofInt 64 delay, .ofInt 64 period]
  | .resetStats delay period => [.ofInt 64 delay, .ofInt 64 period]
  | .dumpResetStats delay period => [.ofInt 64 delay, .ofInt 64 period]
  | .workBegin workid threadid => [.ofInt 64 workid, .ofInt 64 threadid]
  | .workEnd workid threadid => [.ofInt 64 workid, .ofInt 64 threadid]
  | .workload => []

inductive Message
  | log (level : Level) (text : String)
  | stderr (text : String)
  deriving DecidableEq

def Method.disabled : Method → List Message
  | .exit _ => [.log .warning "M5 disabled"]
  | .fail _ _ => [.log .warning "M5 disabled"]
  | _ => []

abbrev Issued := PseudoOp × List (BitVec 64)

inductive Status | running | exited (code : ℕ) | panicked | killed
  deriving DecidableEq

structure Process where
  mem : Pointer := .null
  handles : List Bool := []
  issued : List Issued := []
  printed : List Message := []
  status : Status := .running

/-- What the machine answers: whether the user is found and is root, the error if
`/dev/mem` does not open, and what `mmap` returns. -/
structure Machine where
  root : Option Bool
  openError : Option String
  mmap : Option Mapping

inductive Call
  | newM5Ops (machine : Machine)
  | copy (i : ℕ)
  | close (i : ℕ)
  | method (i : ℕ) (m : Method)

def hex (n : ℕ) : String := "0x" ++ String.ofList (Nat.toDigits 16 n)

def Process.print (p : Process) (ms : List Message) : Process :=
  { p with printed := p.printed ++ ms }

/-- `map_m5_mem`; the failure of `mmap` is not noticed. -/
def mapM5Mem (machine : Machine) (p : Process) : Process :=
  match p.mem with
  | .null =>
    match machine.openError with
    | none => { p with mem := machine.mmap.elim .mapFailed .mapped }
    | some e =>
      { p.print [.stderr ("Can't open /dev/mem: " ++ e ++ "\n")] with status := .exited 1 }
  | _ => { p.print [.stderr "m5 mem already mapped.\n"] with status := .exited 1 }

def initMessages (base : ℕ) : Option Bool → List Message
  | none => [.log .warning "Cannot get current user"]
  | some false =>
    [.log .warning "M5 magic instructions require root access",
      .log .warning "Will not be enabled!!!"]
  | some true => [.log .info ("Initialize M5 magic instructions. M5Ops Addr:" ++ hex base ++ "\n")]

def init (base : ℕ) (machine : Machine) (p : Process) : Process :=
  let p := p.print (initMessages base machine.root)
  match machine.root with
  -- the user that is not found is asked for its number
  | none => { p with status := .panicked }
  | some false => { p with handles := p.handles ++ [false] }
  | some true =>
    let p := mapM5Mem machine p
    if p.status = .running then { p with handles := p.handles ++ [true] } else p

def close (i : ℕ) (mapped : Bool) (p : Process) : Process :=
  if mapped then { p with mem := .null, handles := p.handles.set i false } else p

/-- The load of an operation: from an address that is not mapped it is fatal. -/
def load (base : ℕ) (m : Method) (p : Process) : Process :=
  match p.mem.translate base ((p.mem.value + m.op.offset) % 2 ^ 64) with
  | none => { p with status := .killed }
  | some a => { p with issued := p.issued ++ (decode base a).toList.map (·, m.args) }

def method (base : ℕ) (m : Method) (mapped : Bool) (p : Process) : Process :=
  if mapped then load base m p else p.print m.disabled

def step (base : ℕ) (p : Process) : Call → Option Process
  | .newM5Ops machine => if p.status = .running then some (init base machine p) else none
  | .copy i =>
    if p.status = .running then
      p.handles[i]?.map fun b => { p with handles := p.handles ++ [b] }
    else none
  | .close i => if p.status = .running then p.handles[i]?.map (close i · p) else none
  | .method i m => if p.status = .running then p.handles[i]?.map (method base m · p) else none

/-- What the library is for: an operation of an enabled value reaches the
simulator. -/
structure Interface where
  handles : List Bool := []
  issued : List Issued := []
  printed : List Message := []
  status : Status := .running

namespace Interface

def init (base : ℕ) (machine : Machine) (v : Interface) : Interface :=
  let v := { v with printed := v.printed ++ initMessages base machine.root }
  match machine.root, machine.openError with
  | none, _ => { v with status := .panicked }
  | some false, _ => { v with handles := v.handles ++ [false] }
  | some true, e =>
    if true ∈ v.handles then
      { v with printed := v.printed ++ [.stderr "m5 mem already mapped.\n"], status := .exited 1 }
    else
      match e with
      | none => { v with handles := v.handles ++ [true] }
      | some e =>
        { v with printed := v.printed ++ [.stderr ("Can't open /dev/mem: " ++ e ++ "\n")],
                 status := .exited 1 }

def method (m : Method) (mapped : Bool) (v : Interface) : Interface :=
  if mapped then { v with issued := v.issued ++ [(m.op, m.args)] }
  else { v with printed := v.printed ++ m.disabled }

def step (base : ℕ) (v : Interface) : Call → Option Interface
  | .newM5Ops machine => if v.status = .running then some (init base machine v) else none
  | .copy i =>
    if v.status = .running then v.handles[i]?.map fun b => { v with handles := v.handles ++ [b] }
    else none
  | .close i =>
    if v.status = .running then
      v.handles[i]?.map fun _ => { v with handles := v.handles.set i false }
    else none
  | .method i m => if v.status = .running then v.handles[i]?.map (method m · v) else none

end Interface

def Process.view (p : Process) : Interface := ⟨p.handles, p.issued, p.printed, p.status⟩

def Call.sound : Call → Bool
  | .newM5Ops machine => machine.mmap.isSome
  | .copy _ => false
  | .close _ => true
  | .method _ _ => true

/-- The window is mapped exactly as long as there is an enabled value. -/
def Process.Inv (p : Process) : Prop :=
  match p.mem with
  | .null => true ∉ p.handles
  | .mapFailed => False
  | .mapped _ => p.handles.count true = 1

section Window

theorem PseudoOp.func_lt (o : PseudoOp) : o.func < 256 := by cases o <;> decide

theorem PseudoOp.find?_foreach (o : PseudoOp) : foreach.find? (·.func = o.func) = some o := by
  cases o <;> rfl

theorem PseudoOp.offset_eq (o : PseudoOp) : o.offset = 256 * o.func := by
  rw [offset, Nat.shiftLeft_eq, Nat.mul_comm]

theorem PseudoOp.offset_lt (o : PseudoOp) : o.offset + 256 ≤ windowSize := by
  have hlt := o.func_lt
  rw [offset_eq, windowSize]
  omega

theorem decode_offset (base : ℕ) (o : PseudoOp) {i : ℕ} (hi : i < 256) :
    decode base (base + (o.offset + i)) = some o := by
  have hlt := o.func_lt
  have hoffset := o.offset_eq
  have hwindow : base ≤ base + (o.offset + i) ∧ base + (o.offset + i) < base + windowSize := by
    rw [windowSize]
    omega
  have hnumber : (base + (o.offset + i) - base) >>> 8 % 256 = o.func := by
    rw [Nat.shiftRight_eq_div_pow]
    omega
  rw [decode, if_pos hwindow, hnumber, o.find?_foreach]

theorem translate_mapped (base : ℕ) (m : Mapping) (o : PseudoOp) :
    (Pointer.mapped m).translate base (((Pointer.mapped m).value + o.offset) % 2 ^ 64) =
      some (base + (o.offset + 0)) := by
  have hfits := m.fits
  have hoffset := o.offset_lt
  have hvalue : ((Pointer.mapped m).value + o.offset) % 2 ^ 64 = m.base + o.offset := by
    apply Nat.mod_eq_of_lt
    simp only [Pointer.value]
    omega
  rw [hvalue, Pointer.translate, if_pos (by omega), Nat.add_sub_cancel_left, Nat.add_zero]

end Window

section Refinement

variable {base : ℕ} {p p' : Process} {c : Call}

theorem load_mapped {m : Mapping} (h : p.mem = .mapped m) (f : Method) :
    load base f p = { p with issued := p.issued ++ [(f.op, f.args)] } := by
  rw [load, h, translate_mapped]
  simp only
  rw [decode_offset base f.op (by decide)]
  rfl

def Agrees (base : ℕ) (p : Process) (c : Call) : Prop :=
  (step base p c).map Process.view = Interface.step base p.view c ∧
    ∀ p', step base p c = some p' → p'.Inv

theorem agrees_of_running (h : p.status = .running → Agrees base p c) : Agrees base p c := by
  by_cases hrun : p.status = .running
  · exact h hrun
  · have hnone : step base p c = none ∧ Interface.step base p.view c = none := by
      cases c <;> simp [step, Interface.step, Process.view, hrun]
    rw [Agrees, hnone.1, hnone.2]
    exact ⟨rfl, nofun⟩

theorem agrees_of_eq {v : Interface} (hstep : step base p c = some p')
    (hview : Interface.step base p.view c = some v) (h : p'.Inv ∧ p'.view = v) :
    Agrees base p c := by
  rw [Agrees, hstep, hview, Option.map_some, h.2]
  refine ⟨rfl, ?_⟩
  rintro p'' hp''
  obtain rfl := Option.some.inj hp''
  exact h.1

theorem Process.Inv.cases (hp : p.Inv) : (p.mem = .null ∧ true ∉ p.handles) ∨
    ∃ m, p.mem = .mapped m ∧ p.handles.count true = 1 := by
  rw [Process.Inv] at hp
  cases hmem : p.mem with
  | null => exact .inl ⟨rfl, by simpa [hmem] using hp⟩
  | mapFailed => simp [hmem] at hp
  | mapped m => exact .inr ⟨m, rfl, by simpa [hmem] using hp⟩

theorem init_view (hp : p.Inv) (hrun : p.status = .running) {machine : Machine}
    (hmmap : machine.mmap.isSome = true) :
    (init base machine p).Inv ∧
      (init base machine p).view = Interface.init base machine p.view := by
  obtain ⟨root, openError, mmap⟩ := machine
  obtain ⟨m, rfl⟩ := Option.isSome_iff_exists.mp hmmap
  cases root with
  | none => exact ⟨hp, rfl⟩
  | some root =>
    cases root with
    | false =>
      refine ⟨?_, rfl⟩
      rcases hp.cases with ⟨hmem, hnone⟩ | ⟨m', hmem, hone⟩
      · simp [init, Process.print, Process.Inv, hmem, hnone]
      · simp [init, Process.print, Process.Inv, hmem, hone]
    | true =>
      rcases hp.cases with ⟨hmem, hnone⟩ | ⟨m', hmem, hone⟩
      · cases openError with
        | some e =>
          simp [init, mapM5Mem, Process.print, Process.Inv, Interface.init, Process.view, hmem,
            hnone]
        | none =>
          simp [init, mapM5Mem, Process.print, Process.Inv, Interface.init, Process.view, hmem,
            hnone, hrun, List.count_eq_zero_of_not_mem hnone]
      · have htrue : true ∈ p.handles := List.count_pos_iff.mp (by omega)
        simp [init, mapM5Mem, Process.print, Process.Inv, Interface.init, Process.view, hmem, hone,
          htrue]

theorem close_view (hp : p.Inv) {i : ℕ} {mapped : Bool} (hi : p.handles[i]? = some mapped) :
    (close i mapped p).Inv ∧
      (close i mapped p).view = { p.view with handles := p.handles.set i false } := by
  obtain ⟨hlt, hget⟩ := List.getElem?_eq_some_iff.mp hi
  cases mapped with
  | false =>
    have hset : p.handles.set i false = p.handles := by rw [← hget, List.set_getElem_self]
    rw [hset]
    exact ⟨hp, rfl⟩
  | true =>
    refine ⟨?_, rfl⟩
    have htrue : true ∈ p.handles := List.mem_of_getElem? hi
    rcases hp.cases with ⟨-, hnone⟩ | ⟨m, -, hone⟩
    · exact absurd htrue hnone
    · have hcount : (p.handles.set i false).count true = 0 := by
        rw [List.count_set hlt, hget, hone]
        rfl
      simpa [close, Process.Inv] using List.count_eq_zero.mp hcount

theorem method_view (hp : p.Inv) (f : Method) {i : ℕ} {mapped : Bool}
    (hi : p.handles[i]? = some mapped) :
    (method base f mapped p).Inv ∧
      (method base f mapped p).view = Interface.method f mapped p.view := by
  cases mapped with
  | false => exact ⟨hp, rfl⟩
  | true =>
    rcases hp.cases with ⟨-, hnone⟩ | ⟨m, hmem, -⟩
    · exact absurd (List.mem_of_getElem? hi) hnone
    · have hload : method base f true p = { p with issued := p.issued ++ [(f.op, f.args)] } :=
        load_mapped hmem f
      rw [hload]
      exact ⟨hp, rfl⟩

theorem agrees (hp : p.Inv) (hc : c.sound = true) : Agrees base p c := by
  apply agrees_of_running
  intro hrun
  have hview : p.view.status = .running := hrun
  cases c with
  | newM5Ops machine =>
    apply agrees_of_eq _ _ (@init_view base p hp hrun machine hc)
    · exact if_pos hrun
    · exact if_pos hview
  | copy i => cases hc
  | close i =>
    cases hi : p.handles[i]? with
    | none => simp [Agrees, step, Interface.step, Process.view, hrun, hi]
    | some mapped =>
      apply agrees_of_eq _ _ (close_view hp hi)
      · rw [step, if_pos hrun, hi, Option.map_some]
      · simp [Interface.step, Process.view, hrun, hi]
  | method i f =>
    cases hi : p.handles[i]? with
    | none => simp [Agrees, step, Interface.step, Process.view, hrun, hi]
    | some mapped =>
      apply agrees_of_eq _ _ (@method_view base p hp f i mapped hi)
      · rw [step, if_pos hrun, hi, Option.map_some]
      · simp [Interface.step, Process.view, hrun, hi]

theorem foldlM_step_view (base : ℕ) (calls : List Call) (h : ∀ c ∈ calls, c.sound = true) :
    (calls.foldlM (step base) {}).map Process.view = calls.foldlM (Interface.step base) {} := by
  -- from every process in which the window is mapped for the one enabled value
  have hrun : ∀ p : Process, p.Inv → (calls.foldlM (step base) p).map Process.view =
      calls.foldlM (Interface.step base) p.view := by
    induction calls with
    | nil => intro p _; rfl
    | cons c calls ih =>
      intro p hp
      obtain ⟨hc, hcalls⟩ := List.forall_mem_cons.mp h
      obtain ⟨hview, hinv⟩ := @agrees base p c hp hc
      rw [List.foldlM_cons, List.foldlM_cons, ← hview]
      cases hs : step base p c with
      | none => rfl
      | some p' => exact ih hcalls p' (hinv p' hs)
  exact hrun {} (by simp [Process.Inv])

theorem foldlM_step_view_closed :
    let machine : Machine := ⟨some true, none, some ⟨0x7f0000000000, by decide, by decide⟩⟩
    let calls : List Call := [.newM5Ops machine, .method 0 (.fail 0 20), .close 0,
      .method 0 (.fail 0 31)]
    (calls.foldlM (step 0xffff0000) {}).map Process.view =
      some ⟨[false], [(.fail, [0, 20])],
        [.log .info "Initialize M5 magic instructions. M5Ops Addr:0xffff0000\n",
          .log .warning "M5 disabled"], .running⟩ := by
  intro machine calls
  rw [foldlM_step_view 0xffff0000 calls (by decide)]
  rfl

end Refinement

end VSwarm.M5Ops
