import VSwarm.Lib.Shell
import VSwarm.Defs.Client.MainLog

namespace VSwarm.Install

open VSwarm.Lib VSwarm.Client

abbrev Line := List Char

/-- The logger of the client: every entry is one line, which holds the text that is
looked for if and only if the message does. -/
structure Logger (p : List Char) where
  line : Level → String → Line
  whole : ∀ l msg, '\n' ∉ line l msg
  faithful : ∀ l msg, p <:+: line l msg ↔ p <:+: msg.toList

def Logger.write {p : List Char} (lg : Logger p) : Step → Option Line
  | .act (.log l msg) => some (lg.line l msg)
  | _ => none

/-- One call of `pull_test_function`: what the gRPC library answers, and what
docker-compose and the traces of the shell print before and after the client. -/
structure Trial where
  host : Host
  oracle : Nat → Response
  before : Shell.Output success
  after : Shell.Output success

def Trial.Answered (t : Trial) : Prop :=
  (t.oracle 0).err = none ∧ (t.oracle 1).err = none ∧ ∀ k < 5, (t.oracle (2 + k)).err = none

def Trial.clientSteps (t : Trial) : List Step :=
  ((testClient 5 0 false t.host).run t.oracle 0).steps

structure Guest where
  downloads : Shell.Output success
  trial : Nat → Trial
  handler : Shell.Output success

def pullTestFunction (lg : Logger success) (name : Line) (t : Trial) : List Line :=
  ("Install and test: ".toList ++ name ++ " ".toList) :: t.before.lines ++
    t.clientSteps.filterMap lg.write ++ t.after.lines

def pullAll (lg : Logger success) (trial : Nat → Trial) : Nat → List Line → List Line
  | _, [] => []
  | i, f :: fs => pullTestFunction lg f (trial i) ++ pullAll lg trial (i + 1) fs

def installFunctions (lg : Logger success) (g : Guest) (functionsList : List Char) : List Char :=
  Text.unlines (g.downloads.lines ++
    pullAll lg g.trial 0 (Shell.words (Shell.sedComments functionsList)) ++ g.handler.lines)

def installCheck (functionsList log : List Char) : Bool :=
  Shell.wcLines (Shell.sedComments functionsList) = Shell.grepCount success log

def InstallSound (lg : Logger success) (g : Guest) (names : List Shell.Name) : Prop :=
  installCheck (Shell.listFile names) (installFunctions lg g (Shell.listFile names)) = true →
    ∀ i < names.length, (g.trial i).Answered

def failedInits (g : Guest) (n : Nat) : Nat :=
  (List.range n).countP fun i => ((g.trial i).oracle 0).err.isSome

def strays (g : Guest) (n : Nat) : Nat :=
  ((List.range n).map fun i => stray success (g.trial i).oracle 5).sum

section Laws

variable {lg : Logger success}

theorem Logger.countP_write {p : List Char} (lg : Logger p) (ss : List Step) :
    (ss.filterMap lg.write).countP (Text.contains p) = ss.countP (logs p) := by
  rw [List.countP_filterMap]
  congr 1
  funext s
  cases s with
  | act a =>
    cases a with
    | log l msg => exact decide_eq_decide.mpr (lg.faithful l msg)
    | _ => rfl
  | answer q r => rfl

theorem countP_clientSteps (t : Trial) :
    (t.clientSteps.filterMap lg.write).countP (Text.contains success) =
      stray success t.oracle 5 + if (t.oracle 0).err = none then 1 else 0 := by
  have hclient : testClient 5 0 false t.host =
      main { numInvoke := 5, numWarm := 0, m5Enable := false } t.host := rfl
  rw [lg.countP_write, Trial.clientSteps, hclient, ← mention_verdict 5]
  exact sought_success.logged_main t.oracle t.host rfl rfl (Int.le_refl 0)

theorem not_infix_echo {n : Shell.Name} (hn : ¬success <:+: n.text) :
    ¬success <:+: "Install and test: ".toList ++ n.text ++ " ".toList := by
  have hcons : success = 'S' :: "UCCESS".toList := rfl
  have hblank : " ".toList = [' '] := rfl
  rw [List.append_assoc, hcons, Text.infix_append_of_head (by decide), ← hcons, hblank,
    Text.infix_append_cons (by decide)]
  exact not_or.mpr ⟨hn, by decide⟩

theorem countP_pullTestFunction {n : Shell.Name} (hn : ¬success <:+: n.text) (t : Trial) :
    (pullTestFunction lg n.text t).countP (Text.contains success) =
      stray success t.oracle 5 + if (t.oracle 0).err = none then 1 else 0 := by
  have hecho : ¬Text.contains success ("Install and test: ".toList ++ n.text ++ " ".toList) =
      true := mt of_decide_eq_true (not_infix_echo hn)
  rw [pullTestFunction, List.countP_append, List.countP_append, List.countP_cons_of_neg hecho,
    t.before.countP_lines, t.after.countP_lines, countP_clientSteps, Nat.zero_add, Nat.add_zero]

theorem countP_pullAll (lg : Logger success) (trial : Nat → Trial) {names : List Shell.Name}
    (hnames : ∀ n ∈ names, ¬success <:+: n.text) (i : Nat) :
    (pullAll lg trial i (names.map Shell.Name.text)).countP (Text.contains success) +
        (List.range' i names.length).countP (fun k => ((trial k).oracle 0).err.isSome) =
      ((List.range' i names.length).map fun k => stray success (trial k).oracle 5).sum +
        names.length := by
  induction names generalizing i with
  | nil => rfl
  | cons n names ih =>
    obtain ⟨hn, hnames⟩ := List.forall_mem_cons.mp hnames
    have hrest := ih hnames (i + 1)
    rw [List.map_cons, pullAll, List.countP_append, countP_pullTestFunction hn, List.length_cons,
      List.range'_succ, List.countP_cons, List.map_cons, List.sum_cons]
    cases (trial i).oracle 0 |>.err <;> simp <;> omega

theorem newline_notMem_pullAll {trial : Nat → Trial} (names : List Shell.Name) (i : Nat) :
    ∀ l ∈ pullAll lg trial i (names.map Shell.Name.text), '\n' ∉ l := by
  induction names generalizing i with
  | nil => simp [pullAll]
  | cons n names ih =>
    intro l hl
    rcases List.mem_append.mp hl with hl | hl
    · rw [pullTestFunction, List.mem_append, List.mem_append, List.mem_cons] at hl
      rcases hl with ((rfl | hl) | hl) | hl
      · simp [n.notMem_newline]
      · exact (trial i).before.whole l hl
      · obtain ⟨s, -, hs⟩ := List.mem_filterMap.mp hl
        unfold Logger.write at hs
        split at hs
        · exact Option.some.inj hs ▸ lg.whole _ _
        · cases hs
      · exact (trial i).after.whole l hl
    · exact ih (i + 1) l hl

theorem installCheck_installFunctions (lg : Logger success) (g : Guest) {names : List Shell.Name}
    (hnames : ∀ n ∈ names, ¬success <:+: n.text) :
    installCheck (Shell.listFile names) (installFunctions lg g (Shell.listFile names)) = true ↔
      strays g names.length = failedInits g names.length := by
  have hcount := countP_pullAll lg g.trial hnames 0
  have hwhole : ∀ l ∈ g.downloads.lines ++
      pullAll lg g.trial 0 (names.map Shell.Name.text) ++ g.handler.lines, '\n' ∉ l := by
    intro l hl
    rw [List.mem_append, List.mem_append] at hl
    rcases hl with (hl | hl) | hl
    · exact g.downloads.whole l hl
    · exact newline_notMem_pullAll names 0 l hl
    · exact g.handler.whole l hl
  rw [installCheck, decide_eq_true_eq, installFunctions, Shell.sedComments_listFile,
    Shell.wcLines_listFile, Shell.words_listFile,
    Shell.grepCount_unlines (by decide) (by decide) hwhole, List.countP_append, List.countP_append,
    g.downloads.countP_lines, g.handler.countP_lines, strays, failedInits, List.range_eq_range']
  omega

theorem installSound_iff (lg : Logger success) (g : Guest) {names : List Shell.Name}
    (hnames : ∀ n ∈ names, ¬success <:+: n.text) :
    InstallSound lg g names ↔
      (∀ i < names.length, (g.trial i).Answered) ∨
        strays g names.length ≠ failedInits g names.length := by
  rw [InstallSound, installCheck_installFunctions lg g hnames]
  constructor
  · intro h
    by_cases heq : strays g names.length = failedInits g names.length
    · exact .inl (h heq)
    · exact .inr heq
  · rintro (h | h) heq
    · exact h
    · exact absurd heq h

end Laws

section Runs

def levelName : Level → String
  | .debug => "debug"
  | .info => "info"
  | .warning => "warning"
  | .error => "error"
  | .fatal => "fatal"

def escape (c : Char) : List Char :=
  if c = '\n' then ['\\', 'n'] else if c = '"' then ['\\', '"']
  else if c = '\\' then ['\\', '\\'] else [c]

structure Plain (p : List Char) : Prop extends Sought p where
  quote : '"' ∉ p
  slash : '\\' ∉ p

theorem Plain.escape {p : List Char} (hp : Plain p) : Text.Escape p escape where
  clear c := by
    obtain ⟨q, rfl⟩ := hp.head
    rw [Install.escape]
    split_ifs with hnewline hquote hslash
    · subst hnewline
      exact .inr ⟨hp.line, _, _, rfl, hp.slash, by simp⟩
    · subst hquote
      exact .inr ⟨hp.quote, _, _, rfl, hp.slash, by simp⟩
    · subst hslash
      exact .inr ⟨hp.slash, _, _, rfl, hp.slash, by simp⟩
    · exact .inl rfl

/-- The text format of logrus, at a fixed time. -/
def logrus {p : List Char} (hp : Plain p) : Logger p where
  line l msg := ("time=\"2022-05-04T10:00:00Z\" level=" ++ levelName l ++ " msg=\"").toList ++
    (msg.toList.flatMap Install.escape ++ ['"'])
  whole l msg := by
    rw [List.mem_append, List.mem_append, not_or, not_or]
    refine ⟨by cases l <;> decide, fun h => ?_, by decide⟩
    obtain ⟨c, -, hc⟩ := List.mem_flatMap.mp h
    unfold Install.escape at hc
    split_ifs at hc with hnewline hquote hslash
    · exact absurd hc (by decide)
    · exact absurd hc (by decide)
    · exact absurd hc (by decide)
    · exact hnewline (List.mem_singleton.mp hc).symm
  faithful l msg := by
    obtain ⟨q, rfl⟩ := hp.head
    rw [Text.infix_append_of_head (by cases l <;> decide), Text.infix_append_cons hp.quote,
      hp.escape.infix_flatMap (List.cons_ne_nil _ _)]
    exact or_iff_left (by simp)

theorem plain_success : Plain success where
  toSought := sought_success
  quote := by decide
  slash := by decide

def fibonacciGo : Shell.Name where
  text := "fibonacci-go".toList
  nonempty := by decide
  comment := by decide
  space := by decide
  glob := by decide

def answering (oracle : Nat → Response) : Guest where
  downloads := .none _
  trial _ := ⟨{}, oracle, .none _, .none _⟩
  handler := .none _

theorem installSound_answering :
    InstallSound (logrus plain_success) (answering fun _ => ⟨"Hello", none⟩) [fibonacciGo] :=
  (installSound_iff (logrus plain_success) (answering fun _ => ⟨"Hello", none⟩) (by decide)).mpr
    (.inl fun _ _ => ⟨rfl, rfl, fun _ _ => rfl⟩)

theorem not_installSound_refused :
    ¬InstallSound (logrus plain_success)
      (answering fun k => ⟨"", if k = 0 then none else some "refused"⟩) [fibonacciGo] := by
  rw [InstallSound, installCheck_installFunctions _ _ (by decide)]
  intro h
  obtain ⟨-, hfirst, -⟩ := h (by decide) 0 (by decide)
  exact absurd hfirst (by decide)

end Runs

end VSwarm.Install
