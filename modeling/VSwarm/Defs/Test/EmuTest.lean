import VSwarm.Lib.Shell

/-! The guest script `run_emu_test.template.sh` and the rule `check_emu_log` of
the test Makefile. -/

namespace VSwarm.Test

open VSwarm.Lib

abbrev Line := List Char

inductive Command | up | client | down
  deriving DecidableEq

/-- The shell variables `DOCKER_START_RES`, `INVOKER_RES` and `DOCKER_STOP_RES`;
`none` is a variable that is not set. -/
abbrev Vars := Command → Option Nat

def allCompleted : Line := "SUCCESS: All commands completed successfully".toList

structure Trial where
  status : Command → Nat
  output : Shell.Output allCompleted

def Trial.succeeded (t : Trial) : Bool :=
  t.status .up = 0 ∧ t.status .client = 0 ∧ t.status .down = 0

/-- `command && RES=$?` for each of the three. -/
def record (v : Vars) (status : Command → Nat) : Vars :=
  fun c => if status c = 0 then some 0 else v c

def complete (v : Vars) : Bool := (v .client).isSome && (v .up).isSome && (v .down).isSome

def pullTestFunction (name : Line) (t : Trial) (v : Vars) : List Line :=
  ("Test: ".toList ++ name ++ " ".toList) :: t.output.lines ++
    [if complete (record v t.status) then allCompleted else "FAIL: Commands failed".toList]

def testFunctions (trial : Nat → Trial) : Nat → Vars → List Line → List Line
  | _, _, [] => []
  | i, v, f :: fs =>
    pullTestFunction f (trial i) v ++
      testFunctions trial (i + 1) (record v (trial i).status) fs

structure Guest where
  downloads : Shell.Output allCompleted
  trial : Nat → Trial

/-- `test.log`.  The status of the loop is that of its last `echo`, so the
handler after it is never run. -/
def runEmuTest (g : Guest) (functionsList : List Char) : List Char :=
  Text.unlines (g.downloads.lines ++
    testFunctions g.trial 0 (fun _ => none) (Shell.words (Shell.sedComments functionsList)))

def checkEmuLog (functionsList log : List Char) : Bool :=
  Shell.wcLines (Shell.sedComments functionsList) = Shell.grepCount allCompleted log

def VerdictExact (g : Guest) (names : List Shell.Name) : Prop :=
  checkEmuLog (Shell.listFile names) (runEmuTest g (Shell.listFile names)) = true ↔
    ∀ i < names.length, (g.trial i).succeeded = true

def CountExact (g : Guest) (names : List Shell.Name) : Prop :=
  Shell.grepCount allCompleted (runEmuTest g (Shell.listFile names)) =
    (List.range names.length).countP fun i => (g.trial i).succeeded

def varsAfter (trial : Nat → Trial) : Nat → Vars
  | 0 => fun _ => none
  | k + 1 => record (varsAfter trial k) (trial k).status

section Laws

variable {trial : Nat → Trial}

theorem Command.forall_iff {p : Command → Prop} : (∀ c, p c) ↔ p .up ∧ p .client ∧ p .down := by
  refine ⟨fun h => ⟨h .up, h .client, h .down⟩, ?_⟩
  rintro ⟨hup, hclient, hdown⟩ c
  cases c with
  | up => exact hup
  | client => exact hclient
  | down => exact hdown

theorem isSome_varsAfter {k : Nat} {c : Command} :
    (varsAfter trial k c).isSome = true ↔ ∃ j < k, (trial j).status c = 0 := by
  induction k with
  | zero => simp [varsAfter]
  | succ k ih =>
    by_cases hk : (trial k).status c = 0
    · simp only [varsAfter, record, hk, if_true, Option.isSome_some, true_iff]
      exact ⟨k, Nat.lt_succ_self k, hk⟩
    · simp only [varsAfter, record, hk, if_false, ih]
      constructor
      · rintro ⟨j, hj, h⟩
        exact ⟨j, by omega, h⟩
      · rintro ⟨j, hj, h⟩
        have hne : j ≠ k := fun hjk => hk (hjk ▸ h)
        exact ⟨j, by omega, h⟩

theorem complete_varsAfter {k : Nat} :
    complete (varsAfter trial k) = true ↔ ∀ c, ∃ j < k, (trial j).status c = 0 := by
  simp only [complete, Bool.and_eq_true, isSome_varsAfter]
  rw [Command.forall_iff, and_comm (b := ∃ j < k, (trial j).status .up = 0), and_assoc]

theorem Trial.succeeded_iff {t : Trial} : t.succeeded = true ↔ ∀ c, t.status c = 0 := by
  rw [Command.forall_iff, succeeded, decide_eq_true_eq]

theorem not_infix_test (n : Shell.Name) :
    ¬allCompleted <:+: "Test: ".toList ++ n.text ++ " ".toList := by
  intro h
  have hblank : n.text.count ' ' = 0 := by
    apply List.count_eq_zero_of_not_mem
    intro hmem
    exact absurd (n.isSpace_eq_false hmem) (by decide)
  have hcount := h.sublist.count_le ' '
  rw [List.count_append, List.count_append, hblank] at hcount
  exact absurd hcount (by decide)

theorem countP_pullTestFunction (n : Shell.Name) (t : Trial) (v : Vars) :
    (pullTestFunction n.text t v).countP (Text.contains allCompleted) =
      if complete (record v t.status) then 1 else 0 := by
  have hfail : Text.contains allCompleted "FAIL: Commands failed".toList = false := by decide
  have hdone : Text.contains allCompleted allCompleted = true := decide_eq_true List.infix_rfl
  have htest : Text.contains allCompleted ("Test: ".toList ++ n.text ++ " ".toList) = false :=
    decide_eq_false (not_infix_test n)
  rw [pullTestFunction, List.countP_append, List.countP_cons, htest, t.output.countP_lines,
    List.countP_singleton]
  cases complete (record v t.status) with
  | true => simp only [if_true, hdone, Bool.false_eq_true, if_false]
  | false => simp only [hfail, Bool.false_eq_true, if_false]

theorem countP_testFunctions (names : List Shell.Name) (i : Nat) :
    (testFunctions trial i (varsAfter trial i) (names.map Shell.Name.text)).countP
        (Text.contains allCompleted) =
      (List.range' i names.length).countP fun k => complete (varsAfter trial (k + 1)) := by
  induction names generalizing i with
  | nil => rfl
  | cons n names ih =>
    rw [List.map_cons, testFunctions, List.countP_append, countP_pullTestFunction,
      List.length_cons, List.range'_succ, List.countP_cons, ← ih (i + 1)]
    exact Nat.add_comm _ _

theorem newline_notMem_testFunctions (names : List Shell.Name) (i : Nat) (v : Vars) :
    ∀ l ∈ testFunctions trial i v (names.map Shell.Name.text), '\n' ∉ l := by
  induction names generalizing i v with
  | nil => simp [testFunctions]
  | cons n names ih =>
    intro l hl
    rcases List.mem_append.mp hl with hl | hl
    · rw [pullTestFunction, List.mem_append, List.mem_cons, List.mem_singleton] at hl
      rcases hl with (rfl | hl) | rfl
      · simp [n.notMem_newline]
      · exact (trial i).output.whole l hl
      · split <;> decide
    · exact ih (i + 1) _ l hl

theorem grepCount_runEmuTest (g : Guest) (names : List Shell.Name) :
    Shell.grepCount allCompleted (runEmuTest g (Shell.listFile names)) =
      (List.range names.length).countP fun k => complete (varsAfter g.trial (k + 1)) := by
  rw [runEmuTest, Shell.sedComments_listFile, Shell.words_listFile,
    Shell.grepCount_unlines (by decide) (by decide)]
  · rw [List.countP_append, g.downloads.countP_lines, Nat.zero_add, List.range_eq_range']
    exact countP_testFunctions names 0
  · intro l hl
    rcases List.mem_append.mp hl with hl | hl
    · exact g.downloads.whole l hl
    · exact newline_notMem_testFunctions names 0 _ l hl

theorem complete_varsAfter_mono {j k : Nat} (hjk : j ≤ k)
    (h : complete (varsAfter trial j) = true) : complete (varsAfter trial k) = true := by
  rw [complete_varsAfter] at h ⊢
  intro c
  obtain ⟨i, hi, hc⟩ := h c
  exact ⟨i, by omega, hc⟩

theorem complete_varsAfter_one :
    complete (varsAfter trial 1) = true ↔ (trial 0).succeeded = true := by
  rw [complete_varsAfter, Trial.succeeded_iff]
  simp

theorem checkEmuLog_runEmuTest (g : Guest) (names : List Shell.Name) :
    checkEmuLog (Shell.listFile names) (runEmuTest g (Shell.listFile names)) = true ↔
      (0 < names.length → (g.trial 0).succeeded = true) := by
  rw [checkEmuLog, decide_eq_true_eq, Shell.sedComments_listFile, Shell.wcLines_listFile,
    grepCount_runEmuTest, ← complete_varsAfter_one]
  have hall : (List.range names.length).countP
      (fun k => complete (varsAfter g.trial (k + 1))) = names.length ↔
        ∀ k < names.length, complete (varsAfter g.trial (k + 1)) = true := by
    simpa using List.countP_eq_length (l := List.range names.length)
      (p := fun k => complete (varsAfter g.trial (k + 1)))
  rw [eq_comm, hall]
  constructor
  · intro h hpos
    exact h 0 hpos
  · intro h k hk
    exact complete_varsAfter_mono (Nat.le_add_left 1 k) (h (by omega))

theorem countP_eq_iff_of_imp {α : Type} {p q : α → Bool} {l : List α}
    (h : ∀ x ∈ l, p x = true → q x = true) :
    l.countP q = l.countP p ↔ ∀ x ∈ l, q x = true → p x = true := by
  induction l with
  | nil => simp
  | cons x l ih =>
    have hle := List.countP_mono_left fun y hy => h y (List.mem_cons_of_mem x hy)
    have ih := ih fun y hy => h y (List.mem_cons_of_mem x hy)
    have hx := h x List.mem_cons_self
    rw [List.countP_cons, List.countP_cons, List.forall_mem_cons, ← ih]
    cases hp : p x with
    | true => simp [hx hp]
    | false =>
      cases hq : q x with
      | true =>
        simp
        omega
      | false => simp

/-- The check looks at the first function only, and it is wrong when a later one
fails after that.  A success line is wrong when a function failed for which each
command has succeeded before. -/
theorem verdictExact_iff (g : Guest) (names : List Shell.Name) :
    (VerdictExact g names ↔
      ((g.trial 0).succeeded = true → ∀ i < names.length, (g.trial i).succeeded = true)) ∧
    (CountExact g names ↔
      ∀ i < names.length, (∀ c, ∃ j ≤ i, (g.trial j).status c = 0) →
        (g.trial i).succeeded = true) := by
  constructor
  · rw [VerdictExact, checkEmuLog_runEmuTest]
    constructor
    · intro h hfirst
      exact h.mp fun _ => hfirst
    · intro h
      constructor
      · intro hfirst i hi
        exact h (hfirst (by omega)) i hi
      · intro hall hpos
        exact hall 0 hpos
  · have himp : ∀ i ∈ List.range names.length, (g.trial i).succeeded = true →
        complete (varsAfter g.trial (i + 1)) = true := by
      intro i _ hi
      rw [complete_varsAfter]
      intro c
      exact ⟨i, Nat.lt_succ_self i, Trial.succeeded_iff.mp hi c⟩
    rw [CountExact, grepCount_runEmuTest, countP_eq_iff_of_imp himp]
    simp only [List.mem_range, complete_varsAfter, Nat.lt_succ_iff]

end Laws

def fibonacciPython : Shell.Name where
  text := "fibonacci-python".toList
  nonempty := by decide
  comment := by decide
  space := by decide
  glob := by decide

def aesGo : Shell.Name where
  text := "aes-go".toList
  nonempty := by decide
  comment := by decide
  space := by decide
  glob := by decide

def secondFails : Guest where
  downloads := .none _
  trial i := ⟨fun c => if i = 1 ∧ c = .client then 1 else 0, .none _⟩

theorem not_verdictExact_secondFails :
    ¬VerdictExact secondFails [fibonacciPython, aesGo] ∧
      ¬CountExact secondFails [fibonacciPython, aesGo] := by
  constructor
  · rw [VerdictExact, checkEmuLog_runEmuTest]
    intro h
    exact absurd (h.mp (fun _ => by decide) 1 (by decide)) (by decide)
  · rw [CountExact, grepCount_runEmuTest]
    decide

end VSwarm.Test
