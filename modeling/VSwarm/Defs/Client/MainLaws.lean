import VSwarm.Defs.Client.Main

namespace VSwarm.Client

open VSwarm.Lib

def isLog : Step → Bool
  | .act (.log _ _) => true
  | _ => false

def visible (ss : List Step) : List Step := ss.filter (!isLog ·)

@[simp] theorem visible_nil : visible [] = [] := rfl

@[simp] theorem visible_append (ss ss' : List Step) :
    visible (ss ++ ss') = visible ss ++ visible ss' := List.filter_append ..

@[simp] theorem visible_log_cons (l : Level) (msg : String) (ss : List Step) :
    visible (.act (.log l msg) :: ss) = visible ss := rfl

@[simp] theorem visible_answer_cons (q : Query) (r : Response) (ss : List Step) :
    visible (.answer q r :: ss) = .answer q r :: visible ss := rfl

@[simp] theorem visible_m5Fail_cons (code : Int) (ss : List Step) :
    visible (.act (.m5Fail code) :: ss) = .act (.m5Fail code) :: visible ss := rfl

@[simp] theorem visible_m5Exit_cons (ss : List Step) :
    visible (.act .m5Exit :: ss) = .act .m5Exit :: visible ss := rfl

@[simp] theorem visible_shell_cons (command : String) (ss : List Step) :
    visible (.act (.shell command) :: ss) = .act (.shell command) :: visible ss := rfl

@[simp] theorem visible_workBegin_cons (id : Int) (ss : List Step) :
    visible (.act (.workBegin id) :: ss) = .act (.workBegin id) :: visible ss := rfl

@[simp] theorem visible_workEnd_cons (id : Int) (ss : List Step) :
    visible (.act (.workEnd id) :: ss) = .act (.workEnd id) :: visible ss := rfl

structure Silent (p : Guest Unit) : Prop where
  visible : ∀ oracle n, visible (p.run oracle n).steps = []
  next : ∀ oracle n, (p.run oracle n).next = n

theorem silent_log (l : Level) (msg : String) : Silent (.perform (.log l msg)) :=
  ⟨fun _ _ => rfl, fun _ _ => rfl⟩

theorem silent_pure : Silent (pure ()) := ⟨fun _ _ => rfl, fun _ _ => rfl⟩

theorem Silent.when {p : Guest Unit} (c : Prop) [Decidable c] (hp : Silent p) :
    Silent (p.when c) := by
  unfold Interaction.Prog.when
  split
  · exact hp
  · exact silent_pure

theorem silent_logErr (log : String → Guest Unit) (h : ∀ msg, Silent (log msg)) (text : String)
    (err : Option String) : Silent (logErr log text err) := by
  cases err with
  | none => exact silent_pure
  | some e => exact h _

theorem silent_debugf (f : Flags) (msg : String) : Silent (debugf f msg) :=
  .when _ (silent_log _ _)

section Bind

variable {oracle : Nat → Response} {n : Nat} {β : Type}

theorem Silent.visible_bind {p : Guest Unit} (hp : Silent p) (f : Unit → Guest β) :
    Client.visible ((p >>= f).run oracle n).steps =
      Client.visible ((f ()).run oracle n).steps := by
  simp [Interaction.run_bind, hp.visible, hp.next]

theorem Silent.next_bind {p : Guest Unit} (hp : Silent p) (f : Unit → Guest β) :
    ((p >>= f).run oracle n).next = ((f ()).run oracle n).next := by
  simp [Interaction.run_bind, hp.next]

theorem Silent.bind {p q : Guest Unit} (hp : Silent p) (hq : Silent q) :
    Silent (p >>= fun _ => q) :=
  ⟨fun _ _ => by rw [hp.visible_bind, hq.visible], fun _ _ => by rw [hp.next_bind, hq.next]⟩

end Bind

theorem silent_report (f : Flags) (mod i : Nat) (rep : Response) :
    Silent (report f mod i rep) :=
  (silent_logErr warnf (silent_log _) _ _).bind
    ((silent_debugf _ _).bind (.when _ (silent_log _ _)))

/-- The visible steps of `left` invocations from number `i` on, answered by the
oracle from question `n` on. -/
def invocations (oracle : Nat → Response) (instrument : Bool) : Nat → Nat → Nat → List Step
  | _, _, 0 => []
  | i, n, left + 1 =>
    (if instrument then [.act (.workBegin (100 + i))] else []) ++
      [.answer (.request .invoke) (oracle n)] ++
      (if instrument then [.act (.workEnd (100 + i))] else []) ++
      invocations oracle instrument (i + 1) (n + 1) left

theorem invokeLoop_spec (oracle : Nat → Response) (f : Flags) {h : Host} (hroot : h.root = true)
    (instrument : Bool) (mod i left n : Nat) :
    visible ((invokeLoop f h instrument mod i left).run oracle n).steps =
        invocations oracle instrument i n left ∧
      ((invokeLoop f h instrument mod i left).run oracle n).next = n + left := by
  induction left generalizing i n with
  | zero => exact ⟨rfl, rfl⟩
  | succ left ih =>
    obtain ⟨hsteps, hnext⟩ := ih (i + 1) (n + 1)
    have hrep := silent_report f mod i (oracle n)
    cases instrument with
    | true =>
      simp [invokeLoop, invocations, workBegin, workEnd, Interaction.Prog.when, hroot,
        hrep.visible_bind, hrep.next_bind, hsteps, hnext]
      omega
    | false =>
      simp [invokeLoop, invocations, Interaction.Prog.when, hrep.visible_bind, hrep.next_bind,
        hsteps, hnext]
      omega

theorem invokeFunction_spec (oracle : Nat → Response) (f : Flags) {h : Host}
    (hroot : h.root = true) (count : Int) (instrument : Bool) (n : Nat) :
    visible ((invokeFunction f h count instrument).run oracle n).steps =
        invocations oracle instrument 0 n count.toNat ∧
      ((invokeFunction f h count instrument).run oracle n).next = n + count.toNat :=
  invokeLoop_spec oracle f hroot instrument _ 0 _ n

def warming (oracle : Nat → Response) (n : Nat) (w : Int) : List Step :=
  if 0 < w then
    .act (.m5Fail 31) :: invocations oracle false 0 n w.toNat ++ [.act (.m5Fail 32)]
  else []

theorem warmFunction_spec (oracle : Nat → Response) {f : Flags} {h : Host}
    (hroot : h.root = true) (hm5 : f.m5Enable = true) (n : Nat) :
    visible (((warmFunction f h).when (0 < f.numWarm)).run oracle n).steps =
        warming oracle n f.numWarm ∧
      (((warmFunction f h).when (0 < f.numWarm)).run oracle n).next = n + f.numWarm.toNat := by
  by_cases hw : 0 < f.numWarm
  · obtain ⟨hsteps, hnext⟩ := invokeFunction_spec oracle f hroot f.numWarm false n
    simp [Interaction.Prog.when, hw, warmFunction, warming, printf, fail, hroot, hm5,
      Interaction.run_bind, hsteps, hnext, Interaction.Prog.perform]
  · simp [Interaction.Prog.when, hw, warming]
    omega

def session (oracle : Nat → Response) (n : Nat) (f : Flags) : List Step :=
  .act (.m5Fail 20) :: .answer .init (oracle n) ::
    if (oracle n).err.isSome then []
    else
      .answer (.request .main) (oracle (n + 1)) :: warming oracle (n + 2) f.numWarm ++
        invocations oracle true 0 (n + 2 + f.numWarm.toNat) f.numInvoke.toNat

theorem newM5Ops_of_root {h : Host} (hroot : h.root = true) : newM5Ops h =
    printf ("Initialize M5 magic instructions. M5Ops Addr:" ++ M5Ops.hex h.m5opAddr ++ "\n") := by
  rw [newM5Ops, hroot]
  rfl

theorem main_spec (oracle : Nat → Response) {f : Flags} {h : Host} (hroot : h.root = true)
    (hm5 : f.m5Enable = true) (n : Nat) :
    visible ((main f h).run oracle n).steps = session oracle n f := by
  cases herr : (oracle n).err with
  | some e =>
    simp [main, session, printf, newM5Ops_of_root hroot, fail, fatalf, hroot, hm5, herr,
      Interaction.Prog.when, Interaction.Prog.perform]
  | none =>
    obtain ⟨hwarm, hnext⟩ := warmFunction_spec oracle hroot hm5 (n + 1 + 1)
    obtain ⟨hinv, -⟩ := invokeFunction_spec oracle f hroot f.numInvoke true
      (n + 1 + 1 + f.numWarm.toNat)
    have hlog := silent_logErr errorf (silent_log _) "Fail to send request: " (oracle (n + 1)).err
    simp [main, session, printf, newM5Ops_of_root hroot, fail, hroot, hm5, herr,
      Interaction.Prog.perform, Interaction.when_of_true, Interaction.run_bind, hlog.visible, hlog.next, hwarm, hnext, hinv]

theorem flagInt_cases (v : Int) : flagInt v = some v ∨ flagInt v = none := by
  unfold flagInt
  split
  · exact .inl rfl
  · exact .inr rfl

theorem flagInt_pair (n w : Int) :
    (flagInt n = some n ∧ flagInt w = some w) ∨ (flagInt n = none ∨ flagInt w = none) := by
  rcases flagInt_cases n with hn | hn
  · rcases flagInt_cases w with hw | hw
    · exact .inl ⟨hn, hw⟩
    · exact .inr (.inr hw)
  · exact .inr (.inl hn)

theorem flagInt_eq_self {v : Int} (h : 0 ≤ v) : flagInt v = some v ↔ v < 2 ^ 63 := by
  simp only [flagInt, ite_eq_left_iff, reduceCtorEq, imp_false, not_not]
  omega

theorem testClient_spec (oracle : Nat → Response) {h : Host} (hroot : h.root = true) {k w : Int}
    (hk : flagInt k = some k) (hw : flagInt w = some w) (n : Nat) :
    visible ((testClient k w true h).run oracle n).steps =
      session oracle n { numInvoke := k, numWarm := w, m5Enable := true } := by
  simp only [testClient, hk, hw]
  exact main_spec oracle hroot rfl n

theorem testClient_of_bad_flags {k w : Int} (h : flagInt k = none ∨ flagInt w = none)
    (m5ops : Bool) (host : Host) : testClient k w m5ops host = return 2 := by
  unfold testClient
  rcases h with h | h
  · rw [h]
  · rw [h]
    split <;> simp_all

theorem script_steps (oracle : Nat → Response) (before after : List Action)
    (client : Guest Nat) :
    ((script before client after).run oracle 0).steps =
      before.map .act ++ (client.run oracle 0).steps ++ after.map .act := by
  simp [script, Interaction.run_bind]

theorem mem_invocations {oracle : Nat → Response} {instrument : Bool} {i n left : Nat} {s : Step}
    (h : s ∈ invocations oracle instrument i n left) :
    (∃ k, n ≤ k ∧ s = .answer (.request .invoke) (oracle k)) ∨
      instrument = true ∧ ∃ id, s = .act (.workBegin id) ∨ s = .act (.workEnd id) := by
  induction left generalizing i n with
  | zero => simp [invocations] at h
  | succ left ih =>
    have hrest (h : s ∈ invocations oracle instrument (i + 1) (n + 1) left) :
        (∃ k, n ≤ k ∧ s = .answer (.request .invoke) (oracle k)) ∨
          instrument = true ∧ ∃ id, s = .act (.workBegin id) ∨ s = .act (.workEnd id) := by
      rcases ih h with ⟨k, hk, hs⟩ | hs
      · exact .inl ⟨k, by omega, hs⟩
      · exact .inr hs
    cases instrument with
    | true =>
      simp only [invocations, if_true, List.cons_append, List.nil_append, List.mem_cons] at h
      rcases h with rfl | rfl | rfl | h
      · exact .inr ⟨rfl, _, .inl rfl⟩
      · exact .inl ⟨n, Nat.le_refl n, rfl⟩
      · exact .inr ⟨rfl, _, .inr rfl⟩
      · exact hrest h
    | false =>
      rcases List.mem_cons.mp h with rfl | h
      · exact .inl ⟨n, Nat.le_refl n, rfl⟩
      · exact hrest h

theorem length_invocations_false (oracle : Nat → Response) (i n left : Nat) :
    (invocations oracle false i n left).length = left := by
  induction left generalizing i n with
  | zero => rfl
  | succ left ih => simpa [invocations] using ih (i + 1) (n + 1)

def warmup (oracle : Nat → Response) (n : Nat) (w : Int) : List Step :=
  .act (.m5Fail 20) :: .answer .init (oracle n) :: .answer (.request .main) (oracle (n + 1)) ::
    .act (.m5Fail 31) :: invocations oracle false 0 (n + 2) w.toNat

theorem session_of_warm {oracle : Nat → Response} {n : Nat} {f : Flags} (hw : 0 < f.numWarm)
    (hinit : (oracle n).err = none) :
    session oracle n f = warmup oracle n f.numWarm ++ .act (.m5Fail 32) ::
      invocations oracle true 0 (n + 2 + f.numWarm.toNat) f.numInvoke.toNat := by
  simp [session, warming, warmup, hinit, hw]

theorem mem_warmup {oracle : Nat → Response} {n : Nat} {w : Int} {s : Step}
    (h : s ∈ warmup oracle n w) :
    s = .act (.m5Fail 20) ∨ s = .act (.m5Fail 31) ∨ ∃ q r, s = .answer q r := by
  simp only [warmup, List.mem_cons] at h
  rcases h with rfl | rfl | rfl | rfl | h
  · exact .inl rfl
  · exact .inr (.inr ⟨_, _, rfl⟩)
  · exact .inr (.inr ⟨_, _, rfl⟩)
  · exact .inr (.inl rfl)
  · rcases mem_invocations h with ⟨k, -, rfl⟩ | ⟨hfalse, -⟩
    · exact .inr (.inr ⟨_, _, rfl⟩)
    · cases hfalse

def answersInvoke : Step → Bool
  | .answer (.request .invoke) _ => true
  | _ => false

theorem countP_answersInvoke_warmup (oracle : Nat → Response) (n : Nat) (w : Int) :
    (warmup oracle n w).countP answersInvoke = w.toNat := by
  have hinv : (invocations oracle false 0 (n + 2) w.toNat).countP answersInvoke = w.toNat := by
    conv => rhs; rw [← length_invocations_false oracle 0 (n + 2) w.toNat]
    rw [List.countP_eq_length]
    intro s hs
    rcases mem_invocations hs with ⟨k, -, rfl⟩ | ⟨hfalse, -⟩
    · rfl
    · cases hfalse
  simpa [warmup, List.countP_cons, answersInvoke] using hinv

theorem warm_of_mem_session {oracle : Nat → Response} {n : Nat} {f : Flags}
    (h : .act (.m5Fail 32) ∈ session oracle n f) : 0 < f.numWarm ∧ (oracle n).err = none := by
  have hinv : .act (.m5Fail 32) ∉ invocations oracle true 0 (n + 2 + f.numWarm.toNat)
      f.numInvoke.toNat := by
    intro hmem
    rcases mem_invocations hmem with ⟨k, -, hr⟩ | ⟨-, id, hr | hr⟩ <;> cases hr
  unfold session warming at h
  split at h
  · simp at h
  · split at h
    · simp_all
    · simp [hinv] at h

theorem mem_session {oracle : Nat → Response} {n : Nat} {f : Flags} {s : Step}
    (h : s ∈ session oracle n f) :
    s = .answer .init (oracle n) ∨ (∃ site k, n < k ∧ s = .answer (.request site) (oracle k)) ∨
      (∃ code, 0 < code ∧ s = .act (.m5Fail code)) ∨
      ∃ id, s = .act (.workBegin id) ∨ s = .act (.workEnd id) := by
  have hinv {instrument i m left} (hm : n < m) (h : s ∈ invocations oracle instrument i m left) :
      (∃ site k, n < k ∧ s = .answer (.request site) (oracle k)) ∨
        (∃ code, 0 < code ∧ s = .act (.m5Fail code)) ∨
        ∃ id, s = .act (.workBegin id) ∨ s = .act (.workEnd id) := by
    rcases mem_invocations h with ⟨k, hk, hs⟩ | ⟨-, hs⟩
    · exact .inl ⟨.invoke, k, by omega, hs⟩
    · exact .inr (.inr hs)
  rcases List.mem_cons.mp h with rfl | h
  · exact .inr (.inr (.inl ⟨20, by decide, rfl⟩))
  rcases List.mem_cons.mp h with rfl | h
  · exact .inl rfl
  split at h
  · cases h
  rcases List.mem_append.mp h with h | h
  · rcases List.mem_cons.mp h with rfl | h
    · exact .inr (.inl ⟨.main, n + 1, by omega, rfl⟩)
    · unfold warming at h
      split at h
      · rcases List.mem_append.mp h with h | h
        · rcases List.mem_cons.mp h with rfl | h
          · exact .inr (.inr (.inl ⟨31, by decide, rfl⟩))
          · exact .inr (hinv (by omega) h)
        · exact .inr (.inr (.inl ⟨32, by decide, List.mem_singleton.mp h⟩))
      · cases h
  · exact .inr (hinv (by omega) h)

end VSwarm.Client
