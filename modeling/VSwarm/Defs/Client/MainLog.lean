import Mathlib.Algebra.BigOperators.Group.List.Basic
import Mathlib.Algebra.Order.Ring.Nat
import VSwarm.Lib.Text
import VSwarm.Defs.Client.MainLaws

namespace VSwarm.Client

open VSwarm.Lib

def success : List Char := "SUCCESS".toList

structure Sought (p : List Char) : Prop where
  head : ∃ q, p = 'S' :: q
  line : '\n' ∉ p

theorem sought_success : Sought success := ⟨⟨_, rfl⟩, by decide⟩

section Defs

variable (p : List Char)

def logs : Step → Bool
  | .act (.log _ msg) => Text.contains p msg.toList
  | _ => false

def mention (text : String) : Nat := if Text.contains p text.toList then 1 else 0

def mentionErr (err : Option String) : Nat := err.elim 0 (mention p)

/-- Messages that hold the text only because they quote an error or a reply.
The first reply is quoted twice. -/
def stray (oracle : Nat → Response) (n : Nat) : Nat :=
  match (oracle 0).err with
  | some e => mention p e
  | none =>
    mentionErr p (oracle 1).err + 2 * mention p (oracle 1).reply +
      ((List.range' 2 n).map fun k => mentionErr p (oracle k).err).sum

end Defs

def verdict (count : Int) : String :=
  "SUCCESS: Calling functions for " ++ toString count ++ " times"

theorem verdict_eq (count : Int) :
    verdict count = "SUCCESS: Calling functions for " ++ toString count ++ " times" := rfl

section Quoting

variable {p : List Char}

theorem Sought.contains_quoted (hp : Sought p) {before : String} (text : String)
    (h : 'S' ∉ before.toList) :
    Text.contains p (before ++ text).toList = Text.contains p text.toList := by
  obtain ⟨q, rfl⟩ := hp.head
  rw [Text.contains, Text.contains, decide_eq_decide, String.toList_append]
  exact Text.infix_append_of_head h

theorem Sought.contains_quoted_newline (hp : Sought p) {before : String} (text : String)
    (h : 'S' ∉ before.toList) :
    Text.contains p (before ++ text ++ "\n").toList = Text.contains p text.toList := by
  have hend : p <:+: text.toList ++ ['\n'] ↔ p <:+: text.toList := by
    rw [Text.infix_append_cons hp.line]
    apply or_iff_left
    obtain ⟨q, rfl⟩ := hp.head
    simp
  rw [String.append_assoc, hp.contains_quoted _ h, Text.contains, Text.contains, decide_eq_decide,
    String.toList_append]
  exact hend

theorem Sought.mention_of_notMem (hp : Sought p) {text : String} (h : 'S' ∉ text.toList) :
    mention p text = 0 := by
  obtain ⟨q, rfl⟩ := hp.head
  rw [mention, Text.contains, decide_eq_false (Text.not_infix_of_notMem List.mem_cons_self h)]
  rfl

theorem Sought.mention_quoted (hp : Sought p) {before : String} (text : String)
    (h : 'S' ∉ before.toList) : mention p (before ++ text) = mention p text := by
  rw [mention, hp.contains_quoted text h, mention]

theorem Sought.mention_quoted_newline (hp : Sought p) {before : String} (text : String)
    (h : 'S' ∉ before.toList) : mention p (before ++ text ++ "\n") = mention p text := by
  rw [mention, hp.contains_quoted_newline text h, mention]

theorem mention_verdict (count : Int) : mention success (verdict count) = 1 := by
  have hverdict : success <:+: (verdict count).toList := by
    rw [verdict_eq, String.toList_append, String.toList_append, List.append_assoc]
    exact (show success <:+: "SUCCESS: Calling functions for ".toList by decide).trans
      (List.prefix_append _ _).isInfix
  rw [mention, Text.contains, decide_eq_true hverdict]
  rfl

end Quoting

section Counts

def logged {β : Type} (p : List Char) (oracle : Nat → Response) (n : Nat) (c : Guest β) : Nat :=
  (c.run oracle n).steps.countP (logs p)

variable {p : List Char} (oracle : Nat → Response) (n : Nat)

theorem logged_bind {β γ : Type} (c : Guest β) (k : β → Guest γ) :
    logged p oracle n (c >>= k) = logged p oracle n c +
      logged p oracle (c.run oracle n).next (k (c.run oracle n).value) := by
  rw [logged, Interaction.run_bind, List.countP_append]
  rfl

theorem logged_log_bind {β : Type} (l : Level) (msg : String) (k : Unit → Guest β) :
    logged p oracle n (.perform (.log l msg) >>= k) =
      mention p msg + logged p oracle n (k ()) := by
  rw [logged_bind, logged, mention]
  simp only [Interaction.Prog.perform, Interaction.run_act, Interaction.run_ret, List.countP_cons,
    List.countP_nil, logs, Nat.zero_add]
  rfl

theorem logged_query_bind {β : Type} (q : Query) (k : Response → Guest β) :
    logged p oracle n (.query q >>= k) = logged p oracle (n + 1) (k (oracle n)) := by
  rw [Interaction.query_bind, logged, Interaction.run_ask,
    List.countP_cons_of_neg (by simp [logs])]
  rfl

theorem logged_ret {β : Type} (b : β) : logged p oracle n (.ret b) = 0 := rfl

theorem Sought.logged_logErr (hp : Sought p) (l : Level) {before : String} (h : 'S' ∉ before.toList)
    (err : Option String) :
    logged p oracle n (logErr (fun msg => .perform (.log l msg)) before err) =
      mentionErr p err := by
  cases err with
  | none => rfl
  | some e =>
    rw [mentionErr, Option.elim, ← hp.mention_quoted_newline e h]
    exact logged_log_bind oracle n l _ .ret

theorem Sought.logged_report (hp : Sought p) {f : Flags} (hv : f.verbose = false)
    (mod i : Nat) (rep : Response) :
    logged p oracle n (report f mod i rep) = mentionErr p rep.err := by
  have hinvoked : mention p ("Invoked for " ++ toString i ++ " times\n") = 0 := by
    apply hp.mention_of_notMem
    rw [String.toList_append, String.toList_append, List.mem_append, List.mem_append, not_or,
      not_or]
    exact ⟨⟨by decide, Text.notMem_toString_nat rfl i⟩, by decide⟩
  have hdebug : ∀ msg, debugf f msg = .ret () :=
    fun msg => Interaction.when_of_false (by simp [hv]) _
  have hwarn := hp.logged_logErr oracle n .warning (show 'S' ∉ "Fail to invoke: ".toList by decide)
    rep.err
  have hlast : ∀ n, logged p oracle n
      (.when (i % mod = 0) (printf ("Invoked for " ++ toString i ++ " times\n"))) = 0 := by
    intro n
    unfold Interaction.Prog.when
    split
    · exact (logged_log_bind oracle n .info _ .ret).trans (by rw [hinvoked, logged_ret])
    · rfl
  rw [report, logged_bind, hdebug, Interaction.ret_bind, hlast]
  exact hwarn

theorem Sought.logged_invokeLoop (hp : Sought p) {f : Flags} (hv : f.verbose = false) (h : Host)
    (mod i left : Nat) :
    logged p oracle n (invokeLoop f h false mod i left) =
      ((List.range' n left).map fun k => mentionErr p (oracle k).err).sum := by
  induction left generalizing i n with
  | zero => rfl
  | succ left ih =>
    have hplain : ∀ c : Guest Unit, c.when (false = true) = .ret () :=
      Interaction.when_of_false (by decide)
    rw [invokeLoop, hplain, Interaction.ret_bind, logged_query_bind, hplain,
      Interaction.ret_bind, logged_bind, hp.logged_report oracle (n + 1) hv,
      (silent_report f mod i (oracle n)).next, ih (n + 1)]
    rfl

theorem Sought.logged_main (hp : Sought p) {f : Flags} (h : Host) (hv : f.verbose = false)
    (hm5 : f.m5Enable = false) (hw : f.numWarm ≤ 0) :
    logged p oracle 0 (main f h) =
      stray p oracle f.numInvoke.toNat +
        if (oracle 0).err = none then mention p (verdict f.numInvoke) else 0 := by
  have htest : mention p "-- Invokation test --" = 0 := hp.mention_of_notMem (by decide)
  have hconn : mention p "Connection established.\n" = 0 := hp.mention_of_notMem (by decide)
  have hquiet : ¬f.m5Enable = true := by simp [hm5]
  unfold main
  rw [printf, logged_log_bind, htest, Nat.zero_add, Interaction.when_of_false hquiet,
    Interaction.ret_bind, logged_query_bind]
  cases herr : (oracle 0).err with
  | some e =>
    simp only [stray, herr, reduceCtorEq, if_false, Nat.add_zero]
    rw [fatalf, logged_log_bind, hp.mention_quoted_newline e (by decide)]
    rfl
  | none =>
    have hlog := silent_logErr errorf (silent_log _) "Fail to send request: " (oracle 1).err
    have hsend : logged p oracle 2 (logErr errorf "Fail to send request: " (oracle 1).err) =
        mentionErr p (oracle 1).err := hp.logged_logErr oracle 2 .error (by decide) _
    have hloop : logged p oracle 2 (invokeFunction f h f.numInvoke false) =
        ((List.range' 2 f.numInvoke.toNat).map fun k => mentionErr p (oracle k).err).sum :=
      hp.logged_invokeLoop oracle 2 hv h _ 0 _
    simp only [stray, herr, if_true]
    rw [printf, logged_log_bind, hconn, Nat.zero_add, logged_query_bind, logged_bind,
      hlog.next, hsend, printf, logged_log_bind, hp.mention_quoted _ (by decide),
      Interaction.when_of_false (by omega), Interaction.ret_bind, logged_bind, hm5, hloop,
      printf, logged_log_bind, hp.mention_quoted _ (by decide), printf, logged_log_bind,
      ← verdict_eq, Interaction.pure_eq, logged_ret]
    simp only [Nat.zero_add]
    omega

end Counts

end VSwarm.Client
