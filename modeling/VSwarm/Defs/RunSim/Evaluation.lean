import VSwarm.Defs.RunSim.ControllerLaws

namespace VSwarm.RunSim

open VSwarm.Lib

inductive Cpu | main | atomic
  deriving DecidableEq

def Call.cpu (m : Machine) (cpu : Cpu) : Call → Cpu
  | .switchToAtomicCpu m' => if m' = m then .atomic else cpu
  | .switchToMainCpu m' => if m' = m then .main else cpu
  | _ => cpu

/-- The cores of `m` that run after `calls`.  `__m5_main__` instantiates with
the main cores switched in. -/
def activeCpu (m : Machine) (calls : List Call) : Cpu := calls.foldl (Call.cpu m) .main

theorem foldl_cpu_main {m : Machine} {calls : List Call}
    (h : .switchToAtomicCpu m ∉ calls) : calls.foldl (Call.cpu m) .main = .main := by
  induction calls with
  | nil => rfl
  | cons c calls ih =>
    rw [List.foldl_cons]
    have hc : Call.cpu m .main c = .main := by
      cases c with
      | switchToAtomicCpu m' =>
        have : m' ≠ m := fun hm => h (hm ▸ List.mem_cons_self)
        simp [Call.cpu, this]
      | switchToMainCpu m' => simp [Call.cpu]
      | _ => rfl
    rw [hc]
    exact ih (fun hm => h (List.mem_cons_of_mem c hm))

theorem activeCpu_append_of_mem {m : Machine} {before calls : List Call}
    (hmain : .switchToMainCpu m ∈ calls) (h : .switchToAtomicCpu m ∉ calls) :
    activeCpu m (before ++ calls) = .main := by
  obtain ⟨l, r, rfl⟩ := List.append_of_mem hmain
  have hr : .switchToAtomicCpu m ∉ r := by simp_all
  simp [activeCpu, List.foldl_append, Call.cpu, foldl_cpu_main hr]

structure Contract (t : Template) (W M : Nat) (es : List ExitEvent) (x : Execution)
    (o : Reactive.Outcome State ExitEvent Call) : Prop where
  loop : x.loop = some o
  stopped : o.stopped = (Reactive.nth ExitEvent.isWorkend (W + M) es).isSome
  consumed : o.trace.map Prod.fst =
    es.take (((Reactive.nth ExitEvent.isWorkend (W + M) es).map (· + 1)).getD es.length)
  startup : .statsDump ∉ x.startup ∧ ∀ m, .switchToMainCpu m ∉ x.startup
  dump : Reactive.callTimes (· == .statsDump) o.trace 0 =
    (Reactive.nth ExitEvent.isWorkend (W + M) es).toList
  switch : ∀ m ∈ t.machines, Reactive.callTimes (· == .switchToMainCpu m) o.trace 0 =
    if 0 < W then (Reactive.nth ExitEvent.isWorkbegin (W + 1) es).toList else []
  main : ∀ i k, W < i → i ≤ W + M → Reactive.nth ExitEvent.isWorkbegin i es = some k →
    ∀ m ∈ t.machines,
      activeCpu m (x.startup ++ (o.trace.take (k + 1)).flatMap Prod.snd) = .main

section Laws

variable {t : Template} {root : String} {args : Args} {W M : Nat} {es : List ExitEvent}

theorem armed_budget (hW : args.atomicWarming = W) (hM : args.numInvocations = M)
    (hpos : 1 ≤ M) : (armed args).budget = W + M - 1 := by
  simp only [State.budget, armed, hW, hM]
  split <;> omega

theorem simulate_armed (t : Template) (hmode : args.mode = .evaluation)
    (hW : args.atomicWarming = W) (hM : args.numInvocations = M) (hpos : 1 ≤ M)
    (hes : ∀ e ∈ es, e.aborts = false) :
    (simulate t args (armed args) es).stopped =
      (Reactive.nth ExitEvent.isWorkend (W + M) es).isSome ∧
    (simulate t args (armed args) es).trace.length =
      ((Reactive.nth ExitEvent.isWorkend (W + M) es).map (· + 1)).getD es.length ∧
    Reactive.callTimes (· == .statsDump) (simulate t args (armed args) es).trace 0 =
      (Reactive.nth ExitEvent.isWorkend (W + M) es).toList := by
  have hm : 1 ≤ (armed args).invToMeasure := by simp only [armed, hM]; omega
  have h := simulate_budget t 0 hmode hm (armed_budget hW hM hpos) hes
  obtain ⟨n, hn⟩ : ∃ n, W + M = n + 1 := ⟨W + M - 1, by omega⟩
  rw [hn] at h ⊢
  simpa [Reactive.nth] using h

theorem m5Main_evaluation (t : Template) (root : String) (hmode : args.mode = .evaluation)
    (first : ExitEvent) (es : List ExitEvent) :
    m5Main t root args (first :: es) =
      ⟨settle t root args ++ arm t args, some (simulate t args (armed args) es)⟩ := by
  simp [m5Main, hmode]

theorem countP_switchCalls (m : Machine) (hm : m ∈ t.machines) :
    (switchCalls t).countP (· == .switchToMainCpu m) = 1 := by
  cases t <;> cases m <;> first | decide | simp [Template.machines] at hm

theorem countP_switchCalls_statsReset (t : Template) :
    (switchCalls t).countP (· == .statsReset) = 1 := by
  cases t <;> decide

theorem countP_switchCalls_switchToAtomicCpu (m : Machine) :
    (switchCalls t).countP (· == .switchToAtomicCpu m) = 0 := by
  cases t <;> cases m <;> decide

/-- One statement for the switch, the reset and the return to the atomic cores:
they happen only at the first measured workbegin, and only after a warming. -/
theorem simulate_callTimes_armed (t : Template) (hmode : args.mode = .evaluation)
    (hW : args.atomicWarming = W) (hM : args.numInvocations = M) (hpos : 1 ≤ M)
    (hes : ∀ e ∈ es, e.aborts = false) (halt : alternates false es = true) {c : Call}
    (hc : c.quiet = false) (hdump : c ≠ .statsDump) :
    Reactive.callTimes (· == c) (simulate t args (armed args) es).trace 0 =
      if 0 < W then (Reactive.nth ExitEvent.isWorkbegin (W + 1) es).toList.flatMap
        (List.replicate ((switchCalls t).countP (· == c))) else [] := by
  have hm : 1 ≤ (armed args).invToMeasure := by simp only [armed, hM]; omega
  split
  · rename_i hpos
    have hw : (armed args).invToWarm = W := by simp [armed, hW, hpos]
    rw [simulate_callTimes_of_warming t hmode hm hw (by simp) hes halt hc hdump]
    rfl
  · rename_i hpos
    have hw : (armed args).invToWarm < 0 := by simp [armed, hW]; omega
    exact simulate_callTimes_of_main t hmode hm hw hc hdump

theorem switchToAtomicCpu_notMem_trace (hmode : args.mode = .evaluation)
    (hW : args.atomicWarming = W) (hM : args.numInvocations = M) (hpos : 1 ≤ M)
    (hes : ∀ e ∈ es, e.aborts = false) (halt : alternates false es = true) (m : Machine)
    (k : Nat) :
    .switchToAtomicCpu m ∉ ((simulate t args (armed args) es).trace.take k).flatMap Prod.snd := by
  have htimes := simulate_callTimes_armed t hmode hW hM hpos hes halt
    (c := .switchToAtomicCpu m) rfl (by simp)
  apply Reactive.notMem_of_callTimes_eq_nil (htimes.trans _)
  rw [countP_switchCalls_switchToAtomicCpu]
  simp

theorem switchToMainCpu_times (hmode : args.mode = .evaluation)
    (hW : args.atomicWarming = W) (hM : args.numInvocations = M) (hpos : 1 ≤ M)
    (hes : ∀ e ∈ es, e.aborts = false) (halt : alternates false es = true) {m : Machine}
    (hm : m ∈ t.machines) :
    Reactive.callTimes (· == .switchToMainCpu m) (simulate t args (armed args) es).trace 0 =
      if 0 < W then (Reactive.nth ExitEvent.isWorkbegin (W + 1) es).toList else [] := by
  rw [simulate_callTimes_armed t hmode hW hM hpos hes halt rfl (by simp),
    countP_switchCalls m hm]
  cases Reactive.nth ExitEvent.isWorkbegin (W + 1) es <;> simp

theorem switchToAtomicCpu_notMem_startup (t : Template) (root : String) (m : Machine)
    (hW : args.atomicWarming ≤ 0) : .switchToAtomicCpu m ∉ settle t root args ++ arm t args := by
  simp [settle, arm, prGreen, notMem_configure, show ¬ 0 < args.atomicWarming by omega]

theorem startup_calls (t : Template) (root : String) (args : Args) :
    .statsDump ∉ settle t root args ++ arm t args ∧
      ∀ m, .switchToMainCpu m ∉ settle t root args ++ arm t args := by
  by_cases h : 0 < args.atomicWarming <;> simp [settle, arm, prGreen, notMem_configure, h]

end Laws

theorem m5Main_contract (t : Template) (root : String) {args : Args} {W M : Nat}
    (hmode : args.mode = .evaluation) (hW : args.atomicWarming = W)
    (hM : args.numInvocations = M) (hpos : 1 ≤ M) (first : ExitEvent) {es : List ExitEvent}
    (hes : ∀ e ∈ es, e.aborts = false) (halt : alternates false es = true) :
    ∃ o, Contract t W M es (m5Main t root args (first :: es)) o := by
  obtain ⟨hstop, hlen, hdump⟩ := simulate_armed t hmode hW hM hpos hes
  refine ⟨simulate t args (armed args) es, ?_⟩
  rw [m5Main_evaluation t root hmode]
  refine ⟨rfl, hstop, ?_, startup_calls t root args, hdump, ?_, ?_⟩
  · rw [← hlen]
    exact Reactive.map_fst_trace
  · intro m hm
    exact switchToMainCpu_times hmode hW hM hpos hes halt hm
  · intro i k hi _ hk m hm
    have hno := switchToAtomicCpu_notMem_trace (t := t) hmode hW hM hpos hes halt m (k + 1)
    rcases Nat.eq_zero_or_pos W with rfl | hWpos
    · apply foldl_cpu_main
      rw [List.mem_append, not_or]
      exact ⟨switchToAtomicCpu_notMem_startup t root m (by omega), hno⟩
    · -- the switch happened at the first measured workbegin, which is not later than this one
      obtain ⟨j, hj, hfirst⟩ := Reactive.nth_mono (Nat.succ_pos W) hi hk
      have htimes := switchToMainCpu_times hmode hW hM hpos hes halt hm
      rw [if_pos hWpos, hfirst] at htimes
      have hmem : j ∈ Reactive.callTimes (· == .switchToMainCpu m)
          (simulate t args (armed args) es).trace 0 := by simp [htimes]
      obtain ⟨c, hc, hcm⟩ := Reactive.mem_callTimes hmem
      rw [beq_iff_eq.mp hcm] at hc
      apply activeCpu_append_of_mem _ hno
      obtain ⟨a, ha, hca⟩ := List.mem_flatMap.mp hc
      exact List.mem_flatMap.mpr ⟨a, List.take_subset_take_left _ (by omega) ha, hca⟩

def workbeginEvent (id : Int) : ExitEvent := ⟨"workbegin", id⟩

def workendEvent (id : Int) : ExitEvent := ⟨"workend", id⟩

def failEvent (code : Int) : ExitEvent := ⟨"m5_fail instruction encountered", code⟩

/-- The exit that ends the few instructions run to settle a restored checkpoint. -/
def maxInstsEvent : ExitEvent := ⟨"a thread reached the max instruction count", 0⟩

theorem m5Main_contract_one_one :
    ∃ o, Contract .twoMachine 1 1
      [workbeginEvent 100, failEvent 3, workendEvent 100, workbeginEvent 101, workendEvent 101]
      (m5Main .twoMachine "/vSwarm-u"
        { mode := .evaluation, atomicWarming := 1, numInvocations := 1 }
        [maxInstsEvent, workbeginEvent 100, failEvent 3, workendEvent 100, workbeginEvent 101,
          workendEvent 101]) o :=
  m5Main_contract .twoMachine "/vSwarm-u" rfl rfl rfl (by decide) maxInstsEvent (by decide)
    (by decide)

theorem ExitEvent.isWorkend_of_isWorkbegin {e : ExitEvent} (h : e.isWorkbegin = true) :
    e.isWorkend = false := by
  unfold isWorkbegin at h
  unfold isWorkend
  cases hk : e.kind <;> simp_all

theorem alternates_append {inside : Bool} {l r : List ExitEvent}
    (h : alternates inside (l ++ r) = true) :
    ∃ now, alternates now r = true ∧
      l.countP ExitEvent.isWorkbegin + inside.toNat =
        l.countP ExitEvent.isWorkend + now.toNat := by
  induction l generalizing inside with
  | nil => exact ⟨inside, h, by simp⟩
  | cons d l ih =>
    rw [List.cons_append, alternates] at h
    by_cases hb : d.isWorkbegin = true
    · have he := ExitEvent.isWorkend_of_isWorkbegin hb
      simp only [hb, if_true, Bool.and_eq_true, Bool.not_eq_true'] at h
      obtain ⟨now, hnow, hcount⟩ := ih h.2
      refine ⟨now, hnow, ?_⟩
      simpa [hb, he, h.1] using hcount
    · by_cases he : d.isWorkend = true
      · simp only [hb, he, Bool.false_eq_true, if_false, if_true, Bool.and_eq_true] at h
        obtain ⟨now, hnow, hcount⟩ := ih h.2
        refine ⟨now, hnow, ?_⟩
        simp only [Bool.toNat_false] at hcount
        simp [hb, he, h.1]
        omega
      · simp only [hb, he, Bool.false_eq_true, if_false] at h
        obtain ⟨now, hnow, hcount⟩ := ih h
        refine ⟨now, hnow, ?_⟩
        simpa [hb, he] using hcount

/-- The dumped statistics cover exactly the `M` measured invocations: the last
reset before the dump is made at the first measured workbegin, and `M` work
items begin and end between the two. -/
def Window (W M : Nat) (es : List ExitEvent) (o : Reactive.Outcome State ExitEvent Call) : Prop :=
  ∃ j k, Reactive.nth ExitEvent.isWorkbegin (W + 1) es = some j ∧
    Reactive.callTimes (· == .statsDump) o.trace 0 = [k] ∧ j < k ∧
    j ∈ Reactive.callTimes (· == .statsReset) o.trace 0 ∧
    (∀ i ∈ Reactive.callTimes (· == .statsReset) o.trace 0, i ≤ j) ∧
    ((es.take (k + 1)).drop j).countP ExitEvent.isWorkbegin = M ∧
    ((es.take (k + 1)).drop j).countP ExitEvent.isWorkend = M

theorem countP_take_drop (p : ExitEvent → Bool) {j k : Nat} (h : j ≤ k) (es : List ExitEvent) :
    ((es.take k).drop j).countP p = (es.take k).countP p - (es.take j).countP p := by
  have hsplit := List.take_append_drop j (es.take k)
  rw [List.take_take, Nat.min_eq_left h] at hsplit
  have := congrArg (List.countP p) hsplit
  rw [List.countP_append] at this
  omega

theorem isWorkbegin_counts {n j : Nat} {es : List ExitEvent} (halt : alternates false es = true)
    (hj : Reactive.nth ExitEvent.isWorkbegin (n + 1) es = some j) :
    (es.take j).countP ExitEvent.isWorkbegin = n ∧ (es.take j).countP ExitEvent.isWorkend = n := by
  obtain ⟨l, b, r, rfl, rfl, hb, hcount⟩ := Reactive.nth_eq_some hj
  obtain ⟨now, hnow, hbal⟩ := alternates_append halt
  rw [alternates, if_pos hb, Bool.and_eq_true, Bool.not_eq_true'] at hnow
  rw [hnow.1] at hbal
  simp only [List.take_left, Bool.toNat_false] at hbal ⊢
  omega

theorem isWorkend_counts {n k : Nat} {es : List ExitEvent} (halt : alternates false es = true)
    (hk : Reactive.nth ExitEvent.isWorkend n es = some k) :
    (es.take (k + 1)).countP ExitEvent.isWorkbegin = n ∧
      (es.take (k + 1)).countP ExitEvent.isWorkend = n := by
  obtain ⟨l, e, r, rfl, rfl, he, hcount⟩ := Reactive.nth_eq_some hk
  obtain ⟨now, hnow, hbal⟩ := alternates_append halt
  have hb : e.isWorkbegin = false := by
    cases hb : e.isWorkbegin with
    | true => simp [ExitEvent.isWorkend_of_isWorkbegin hb] at he
    | false => rfl
  rw [alternates, hb, if_neg Bool.false_ne_true, if_pos he, Bool.and_eq_true] at hnow
  rw [hnow.1] at hbal
  simp only [List.take_length_add_append, List.take_succ_cons, List.take_zero, List.countP_append,
    List.countP_singleton, hb, he, Bool.false_eq_true, if_false, if_true, Bool.toNat_false,
    Bool.toNat_true] at hbal ⊢
  omega

theorem alternates_window {W M j k : Nat} {es : List ExitEvent}
    (halt : alternates false es = true) (hpos : 1 ≤ M)
    (hj : Reactive.nth ExitEvent.isWorkbegin (W + 1) es = some j)
    (hk : Reactive.nth ExitEvent.isWorkend (W + M) es = some k) :
    j < k ∧ ((es.take (k + 1)).drop j).countP ExitEvent.isWorkbegin = M ∧
      ((es.take (k + 1)).drop j).countP ExitEvent.isWorkend = M := by
  obtain ⟨hjb, hje⟩ := isWorkbegin_counts halt hj
  obtain ⟨hkb, hke⟩ := isWorkend_counts halt hk
  have hjk : j ≤ k := by
    by_contra hlt
    have hle : (es.take (k + 1)).countP ExitEvent.isWorkend ≤
        (es.take j).countP ExitEvent.isWorkend :=
      (List.take_sublist_take_left (by omega)).countP_le
    omega
  -- the two positions hold events of different kinds
  have hne : j ≠ k := by
    rintro rfl
    obtain ⟨l, b, r, rfl, hl, hb, -⟩ := Reactive.nth_eq_some hj
    obtain ⟨l', e, r', hes, hl', he, -⟩ := Reactive.nth_eq_some hk
    obtain ⟨-, hbe⟩ := List.append_inj hes (hl.trans hl'.symm)
    obtain ⟨rfl, -⟩ := List.cons.inj hbe
    simp [ExitEvent.isWorkend_of_isWorkbegin hb] at he
  refine ⟨by omega, ?_, ?_⟩
  · rw [countP_take_drop _ (by omega)]
    omega
  · rw [countP_take_drop _ (by omega)]
    omega

theorem m5Main_window (t : Template) (root : String) {args : Args} {W M : Nat}
    (hmode : args.mode = .evaluation) (hW : args.atomicWarming = W)
    (hM : args.numInvocations = M) (hpos : 1 ≤ M) (first : ExitEvent) {es : List ExitEvent}
    (hes : ∀ e ∈ es, e.aborts = false) (halt : alternates false es = true)
    (hfull : W + M ≤ es.countP ExitEvent.isWorkend) :
    (∃ o, (m5Main t root args (first :: es)).loop = some o ∧ Window W M es o) ↔ 0 < W := by
  obtain ⟨-, -, hdump⟩ := simulate_armed t hmode hW hM hpos hes
  have hreset := simulate_callTimes_armed t hmode hW hM hpos hes halt
    (c := .statsReset) rfl (by simp)
  rw [m5Main_evaluation t root hmode]
  constructor
  · rintro ⟨o, ho, j, k, -, -, -, hmem, -⟩
    obtain rfl := Option.some.inj ho
    by_contra hW0
    rw [hreset, if_neg hW0] at hmem
    cases hmem
  · intro hWpos
    obtain ⟨k, hk⟩ := Option.isSome_iff_exists.mp
      (Reactive.isSome_nth.mpr ⟨show 0 < W + M by omega, hfull⟩)
    have hbegun : W + 1 ≤ es.countP ExitEvent.isWorkbegin := by
      have hle : (es.take (k + 1)).countP ExitEvent.isWorkbegin ≤
          es.countP ExitEvent.isWorkbegin := (List.take_sublist _ _).countP_le
      have := (isWorkend_counts halt hk).1
      omega
    obtain ⟨j, hj⟩ := Option.isSome_iff_exists.mp
      (Reactive.isSome_nth.mpr ⟨Nat.succ_pos W, hbegun⟩)
    obtain ⟨hjk, hb, he⟩ := alternates_window halt hpos hj hk
    rw [hk] at hdump
    rw [if_pos hWpos, countP_switchCalls_statsReset, hj] at hreset
    refine ⟨_, rfl, j, k, hj, hdump, hjk, ?_, ?_, hb, he⟩
    · simp [hreset]
    · simp [hreset]

theorem m5Main_window_one_one :
    (∃ o, (m5Main .runSim "/vSwarm-u"
        { mode := .evaluation, atomicWarming := 1, numInvocations := 1 }
        [maxInstsEvent, workbeginEvent 100, workendEvent 100, workbeginEvent 101,
          workendEvent 101]).loop = some o ∧
      Window 1 1 [workbeginEvent 100, workendEvent 100, workbeginEvent 101, workendEvent 101] o) ↔
    0 < 1 :=
  m5Main_window .runSim "/vSwarm-u" rfl rfl rfl (by decide) maxInstsEvent (by decide)
    (by decide) (by decide)

theorem m5Main_no_window :
    (∀ e ∈ [workbeginEvent 100, workendEvent 100], e.aborts = false) ∧
    alternates false [workbeginEvent 100, workendEvent 100] = true ∧
    0 + 1 ≤ [workbeginEvent 100, workendEvent 100].countP ExitEvent.isWorkend ∧
    ¬ ∃ o, (m5Main .runSim "/vSwarm-u" { mode := .evaluation, numInvocations := 1 }
        [maxInstsEvent, workbeginEvent 100, workendEvent 100]).loop = some o ∧
      Window 0 1 [workbeginEvent 100, workendEvent 100] o := by
  refine ⟨by decide, by decide, by decide, ?_⟩
  rintro ⟨o, ho, j, k, -, -, -, hmem, -⟩
  obtain rfl := Option.some.inj ho
  revert hmem
  rw [show Reactive.callTimes (· == Call.statsReset) (simulate .runSim _ _ _).trace 0 = []
    by decide]
  exact List.not_mem_nil

end VSwarm.RunSim
