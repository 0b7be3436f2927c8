import VSwarm.Defs.Analysis.CheckSimulations
import VSwarm.Defs.RunSim.Ending

namespace VSwarm.RunSim

open VSwarm.Lib VSwarm.Analysis

def Call.text : Call → Option (List Char)
  | .print text => some text.toList
  | _ => none

def Execution.calls (t : Template) (x : Execution) : List Call :=
  x.startup ++
    match x.loop with
    | none => []
    | some o => o.calls ++ simulateTail t o.stopped

def Execution.log (t : Template) (x : Execution) : List Char :=
  Text.unlines ((x.calls t).filterMap Call.text)

/-- The log says that the simulation is done, and the rerun script leaves the
simulation out, exactly when the run has measured its budget. -/
def LogAgrees (filename root : String) (args : Args) (W M : Nat) (events : List ExitEvent) :
    Prop :=
  let x := m5Main .runSim root args events
  let measured := ∃ o, x.loop = some o ∧ Measured W M o
  ((checkLog (x.log .runSim)).success = true ↔ measured) ∧
    (commented ((checkLog (x.log .runSim)).rerun filename) = true ↔ measured)

/-- The events that a run with `n` work ends to go handles: it ends at the last
of these, or at an event that aborts it. -/
def delivered : Nat → List ExitEvent → List ExitEvent
  | _, [] => []
  | n, e :: es =>
    if e.aborts ∨ e.isWorkend ∧ n ≤ 1 then [e]
    else e :: delivered (if e.isWorkend then n - 1 else n) es

def ExitEvent.otherCause (e : ExitEvent) : Option String :=
  match e.kind with
  | .other cause _ => some cause
  | _ => none

def givenTexts (root : String) (args : Args) (es : List ExitEvent) : List String :=
  root :: args.checkpointDir :: args.function :: es.filterMap ExitEvent.otherCause

section Delivered

variable {args : Args} {s : State} {es : List ExitEvent}

theorem delivered_workend {e : ExitEvent} {n : Nat} (ha : e.aborts = false)
    (he : e.isWorkend = true) (hn : 1 < n) :
    delivered n (e :: es) = e :: delivered (n - 1) es := by
  simp [delivered, ha, he, Nat.not_le.mpr hn]

theorem map_fst_trace_delivered (t : Template) (hmode : args.mode = .evaluation)
    (hm : 1 ≤ s.invToMeasure) (es : List ExitEvent) :
    (simulate t args s es).trace.map Prod.fst = delivered (s.budget + 1) es := by
  induction es generalizing s with
  | nil => rfl
  | cons e es ih =>
    have hstep := simulateStep_stepped t hmode hm e
    unfold State.budget at ih ⊢
    unfold simulate at ih ⊢
    rw [Reactive.run]
    generalize simulateStep t args s e = r at hstep ⊢
    cases hstep with
    | aborted cs ha => simp [delivered, ha]
    | idle cs ha hb he => simp [delivered, ha, he, ih hm]
    | begun cs ha hb he => simp [delivered, ha, he, ih hm]
    | switched cs ha hb he hw =>
      have hrest := @ih { s with invToWarm := -1 } hm
      simp only [delivered, ha, he, hw] at hrest ⊢
      simpa using hrest
    | warmed cs ha hb he hw =>
      have hrest := @ih { s with invToWarm := s.invToWarm - 1 } hm
      rw [delivered_workend ha he (by omega)]
      simp only [Bool.false_eq_true, if_false, List.map_cons, hrest]
      congr 2
      omega
    | measured cs ha hb he hw hm' =>
      have hrest := @ih { s with invToMeasure := s.invToMeasure - 1 } (by simp only; omega)
      rw [delivered_workend ha he (by omega)]
      simp only [Bool.false_eq_true, if_false, List.map_cons, hrest]
      congr 2
      omega
    | finished cs ha hb he hw hm' =>
      have hlast : s.invToWarm.toNat + (s.invToMeasure - 1).toNat + 1 ≤ 1 := by omega
      simp only [delivered, he, hlast, and_self, or_true, if_true, List.map_cons, List.map_nil]

theorem aborts_of_mem_delivered {n : Nat} (hpos : 1 ≤ n)
    (hn : n ≤ (beforeAbort es).countP ExitEvent.isWorkend) :
    ∀ e ∈ delivered n es, e.aborts = false := by
  induction es generalizing n with
  | nil => simp [delivered]
  | cons e es ih =>
    cases ha : e.aborts with
    | true =>
      simp [beforeAbort, ha] at hn
      omega
    | false =>
      cases he : e.isWorkend with
      | false =>
        simp only [beforeAbort, ha, Bool.not_false, List.takeWhile_cons_of_pos, he, List.countP_cons,
          Bool.false_eq_true, if_false, Nat.add_zero] at hn
        simpa [delivered, ha, he] using ih hpos hn
      | true =>
        simp only [beforeAbort, ha, Bool.not_false, List.takeWhile_cons_of_pos, he, List.countP_cons,
          if_true] at hn
        obtain hlast | hlt : n = 1 ∨ 1 < n := by omega
        · simp [delivered, he, hlast, ha]
        · rw [delivered_workend ha he hlt]
          simpa [ha] using ih (by omega) (show n - 1 ≤ _ by rw [beforeAbort]; omega)

end Delivered

def Call.mentions (c : Call) : Prop := ∃ text, c.text = some text ∧ simulationDone <:+: text

section Mentions

theorem mentions_print (text : String) :
    (Call.print text).mentions ↔ simulationDone <:+: text.toList := by
  simp [Call.mentions, Call.text]

theorem mentions_of_text_eq_none {c : Call} (h : c.text = none) : ¬c.mentions := by
  rintro ⟨text, htext, -⟩
  rw [h] at htext
  cases htext

theorem not_infix_of_lacks {text : List Char}
    (h : simulationDone.any (fun c => !text.contains c) = true) : ¬simulationDone <:+: text := by
  obtain ⟨c, hc, htext⟩ := List.any_eq_true.mp h
  exact Text.not_infix_of_notMem hc (by simpa using htext)

theorem infix_coloured {before text : String} (h : 'S' ∉ before.toList) :
    simulationDone <:+: (before ++ text ++ "\x1b[00m").toList ↔ simulationDone <:+: text.toList := by
  have hcons : simulationDone = 'S' :: "imulation done".toList := rfl
  have hreset : "\x1b[00m".toList = '\x1b' :: "[00m".toList := rfl
  have hnot : ¬simulationDone <:+: "[00m".toList := not_infix_of_lacks (by decide)
  rw [String.toList_append, String.toList_append, List.append_assoc, hcons,
    Text.infix_append_of_head h, ← hcons, hreset, Text.infix_append_cons (by decide)]
  exact or_iff_left hnot

theorem mentions_prYellow (text : String) :
    (prYellow text).mentions ↔ simulationDone <:+: text.toList := by
  rw [prYellow, mentions_print, infix_coloured (by decide)]

theorem mentions_prGreen (text : String) :
    (prGreen text).mentions ↔ simulationDone <:+: text.toList := by
  rw [prGreen, mentions_print, infix_coloured (by decide)]

theorem notMem_number {before : String} {c : Char} (hc : c ∈ simulationDone)
    (hbefore : c ∉ before.toList) (n : Int) : c ∉ (before ++ toString n).toList := by
  have hletters : simulationDone.all (fun c => !c.isDigit && c != '-') = true := by decide
  have hchar : c.isDigit = false ∧ c ≠ '-' := by simpa using List.all_eq_true.mp hletters c hc
  rw [String.toList_append, List.mem_append, not_or]
  exact ⟨hbefore, Text.notMem_toString_int hchar.1 hchar.2 n⟩

theorem not_infix_number {before : String} {c : Char} (hc : c ∈ simulationDone)
    (hbefore : c ∉ before.toList) (n : Int) :
    ¬simulationDone <:+: (before ++ toString n).toList :=
  Text.not_infix_of_notMem hc (notMem_number hc hbefore n)

theorem not_mentions_startSimulation : ¬startSimulation.mentions := by
  rw [startSimulation, mentions_print]
  exact not_infix_of_lacks (by decide)

theorem not_mentions_workitem {args : Args} {s : State} {begin : Bool} {id : Int} :
    ∀ c ∈ (workitem .runSim args s begin id).calls, ¬c.mentions := by
  have hstart : ¬(prYellow ("Start invokation: " ++ toString (id - 100))).mentions := by
    rw [mentions_prYellow]
    exact not_infix_number (show 'u' ∈ simulationDone by decide) (by decide) _
  have hend : ¬(prYellow ("End invokation: " ++ toString (id - 100))).mentions := by
    rw [mentions_prYellow]
    exact not_infix_number (show 'u' ∈ simulationDone by decide) (by decide) _
  have hwarmed : ¬(prGreen "Warming done").mentions := by
    rw [mentions_prGreen]
    exact not_infix_of_lacks (by decide)
  have hmeasured : ¬(prGreen "Measuring done").mentions := by
    rw [mentions_prGreen]
    exact not_infix_of_lacks (by decide)
  have hswitch : ¬(Call.switchToMainCpu .system).mentions := mentions_of_text_eq_none rfl
  have hreset : ¬Call.statsReset.mentions := mentions_of_text_eq_none rfl
  have hdump : ¬Call.statsDump.mentions := mentions_of_text_eq_none rfl
  simp only [workitem]
  split_ifs <;>
    simp only [Template.machines, List.map_cons, List.map_nil, List.cons_append, List.nil_append,
      List.forall_mem_cons, List.not_mem_nil, false_implies, implies_true, hstart, hend, hwarmed,
      hmeasured, hswitch, hreset, hdump, not_false_eq_true, and_self]

theorem eq_or_of_ite_eq_some {α : Type} {p : Prop} [Decidable p] {a b : α} {o : Option α}
    (h : (if p then some a else o) = some b) : a = b ∨ o = some b := by
  split at h
  · exact .inl (Option.some.inj h)
  · exact .inr h

theorem not_infix_failCodes {code : Int} {text : String} (h : failCodes code = some text) :
    ¬simulationDone <:+: text.toList := by
  unfold failCodes at h
  repeat
    obtain rfl | h := eq_or_of_ite_eq_some h
    · exact not_infix_of_lacks (by decide)
  cases h

theorem infix_ckpPath (args : Args) {name : String} (hname : 'S' ∉ name.toList) :
    simulationDone <:+: (ckpPath args name).toList ↔
      simulationDone <:+: args.checkpointDir.toList ∨ simulationDone <:+: args.function.toList := by
  have hslash : '/' ∉ simulationDone := by decide
  have hcpt : ¬simulationDone <:+: "cpt.".toList ++ name.toList :=
    Text.not_infix_of_notMem (show 'S' ∈ simulationDone by decide)
      (by rw [List.mem_append, not_or]; exact ⟨by decide, hname⟩)
  have hpath : (ckpPath args name).toList = args.checkpointDir.toList ++ '/' ::
      (args.function.toList ++ '/' :: ("cpt.".toList ++ name.toList)) := by
    simp [ckpPath]
  rw [hpath, Text.infix_append_cons hslash, Text.infix_append_cons hslash]
  exact or_congr_right (or_iff_left hcpt)

theorem infix_append_of_notMem {before text : String} (h : 'S' ∉ before.toList) :
    simulationDone <:+: (before ++ text).toList ↔ simulationDone <:+: text.toList := by
  rw [String.toList_append]
  exact Text.infix_append_of_head h

theorem mentions_executeM5FailCode (args : Args) (s : State) (code : Int) :
    (∃ c ∈ (executeM5FailCode args s code).calls, c.mentions) ↔
      code = -1 ∨ code = 32 ∧ (simulationDone <:+: args.checkpointDir.toList ∨
        simulationDone <:+: args.function.toList) := by
  cases hcode : failCodes code with
  | none =>
    have hne : code ≠ -1 ∧ code ≠ 32 := by
      constructor <;> (rintro rfl; cases hcode)
    simp only [executeM5FailCode, hcode, List.mem_singleton, exists_eq_left, mentions_print, hne.1,
      hne.2, false_and, or_self, iff_false]
    exact not_infix_number (show 'u' ∈ simulationDone by decide) (by decide) code
  | some text =>
    have htext : ¬(prYellow text).mentions := by
      rw [mentions_prYellow]
      exact not_infix_failCodes hcode
    by_cases hexit : code = -1
    · subst hexit
      have hdone : (prGreen "Simulation done.").mentions := by
        rw [mentions_prGreen]
        exact ⟨[], ['.'], rfl⟩
      simp only [executeM5FailCode, hcode]
      simp [hdone]
    · by_cases hwarm : code = 32
      · subst hwarm
        have hpath := infix_ckpPath args (show 'S' ∉ "warm".toList by decide)
        have hcreate : (Call.print ("Create checkpoint:  " ++ ckpPath args "warm")).mentions ↔
            simulationDone <:+: args.checkpointDir.toList ∨
              simulationDone <:+: args.function.toList := by
          rw [mentions_print, infix_append_of_notMem (by decide), hpath]
        have htaken : ∀ path, ¬(Call.checkpoint path).mentions :=
          fun _ => mentions_of_text_eq_none rfl
        simp only [executeM5FailCode, hcode]
        simp [htext, hcreate, htaken]
      · simp only [executeM5FailCode, hcode, hexit, hwarm, if_false, List.append_nil,
          List.mem_singleton, exists_eq_left, htext, false_and, or_self]

theorem mentions_settle (root : String) (args : Args) :
    (∃ c ∈ settle .runSim root args, c.mentions) ↔ simulationDone <:+: root.toList ∨
      simulationDone <:+: args.checkpointDir.toList ∨ simulationDone <:+: args.function.toList := by
  have hmode : ¬simulationDone <:+: "--- Evaluation Mode ---".toList :=
    not_infix_of_lacks (by decide)
  have hpath := infix_ckpPath args (show 'S' ∉ args.useCheckpoint.text.toList by
    cases args.useCheckpoint <;> decide)
  have hinstantiate : ¬(Call.instantiate (some (ckpPath args args.useCheckpoint.text))).mentions :=
    mentions_of_text_eq_none rfl
  simp only [settle, configure, List.cons_append, List.nil_append, List.mem_cons,
    exists_eq_or_imp, mentions_print, hmode,
    infix_append_of_notMem (show 'S' ∉ "Instantiate checkpoint:  ".toList by decide), hpath,
    exists_eq_left, hinstantiate, List.not_mem_nil, or_false, false_or]

theorem not_mentions_arm (args : Args) : ∀ c ∈ arm .runSim args, ¬c.mentions := by
  have hafter : 'd' ∉ " invocations".toList := by decide
  have hd : 'd' ∈ simulationDone := by decide
  have htext : ∀ before : String, 'd' ∉ before.toList → ∀ n : Int,
      ¬(prGreen (before ++ toString n ++ " invocations")).mentions := by
    intro before hbefore n
    rw [mentions_prGreen]
    refine Text.not_infix_of_notMem hd ?_
    rw [String.toList_append, List.mem_append, not_or]
    exact ⟨notMem_number hd hbefore n, hafter⟩
  have hwarm := htext "Warming for " (by decide) (armed args).invToWarm
  have hmeasure := htext "Measure for " (by decide) (armed args).invToMeasure
  have hswitch : ¬(Call.switchToAtomicCpu .system).mentions := mentions_of_text_eq_none rfl
  unfold arm
  split <;>
    simp only [Template.machines, List.map_cons, List.map_nil, List.cons_append, List.nil_append,
      List.forall_mem_cons, List.not_mem_nil, false_implies, implies_true, hwarm, hmeasure, hswitch,
      not_false_eq_true, and_self]

def ExitEvent.announces (args : Args) (e : ExitEvent) : Prop :=
  e.kind = .fail (-1) ∨
    e.kind = .fail 32 ∧ (simulationDone <:+: args.checkpointDir.toList ∨
      simulationDone <:+: args.function.toList) ∨
    ∃ cause, e.otherCause = some cause ∧ simulationDone <:+: cause.toList

theorem mentions_exitCause (cause : String) (code : Int) :
    (Call.print ("Exit cause: " ++ cause ++ " | code: " ++ toString code)).mentions ↔
      simulationDone <:+: cause.toList := by
  have hcode : ¬simulationDone <:+: (" code: " ++ toString code).toList :=
    not_infix_number (show 'S' ∈ simulationDone by decide) (by decide) code
  have hline : (cause ++ (" | code: " ++ toString code)).toList =
      (cause.toList ++ [' ']) ++ '|' :: (" code: " ++ toString code).toList := by
    simp
  have hblank : ¬simulationDone <:+ cause.toList ++ [' '] := by
    intro h
    have hlast := h.getLast (by decide)
    rw [List.getLast_concat] at hlast
    cases hlast
  rw [mentions_print, String.append_assoc, String.append_assoc, infix_append_of_notMem (by decide),
    hline, Text.infix_append_cons (by decide), List.infix_concat_iff, or_iff_left hcode]
  exact or_iff_right hblank

theorem mentions_simulateStep (args : Args) (s : State) (e : ExitEvent) :
    (∃ c ∈ (simulateStep .runSim args s e).calls, c.mentions) ↔ e.announces args := by
  simp only [simulateStep, List.mem_cons, exists_eq_or_imp, not_mentions_startSimulation, false_or]
  have hwork : ∀ begin id, ¬∃ c ∈ (workitem .runSim args s begin id).calls, c.mentions := by
    rintro begin id ⟨c, hc, hmentions⟩
    exact not_mentions_workitem c hc hmentions
  cases hk : e.kind with
  | fail code =>
    simp only [handle, hk, mentions_executeM5FailCode]
    simp [ExitEvent.announces, ExitEvent.otherCause, hk]
  | workbegin id => simp [handle, hk, hwork, ExitEvent.announces, ExitEvent.otherCause]
  | workend id => simp [handle, hk, hwork, ExitEvent.announces, ExitEvent.otherCause]
  | userInterrupt =>
    have hinterrupt : ¬simulationDone <:+: "Received user interrupt. Exit simulation".toList :=
      not_infix_of_lacks (by decide)
    simp only [handle, hk, List.mem_singleton, exists_eq_left, mentions_print, hinterrupt]
    simp [ExitEvent.announces, ExitEvent.otherCause, hk]
  | other cause code =>
    simp only [handle, hk, List.mem_singleton, exists_eq_left, mentions_exitCause]
    simp [ExitEvent.announces, ExitEvent.otherCause, hk]

theorem checkLog_log_success (t : Template) (x : Execution) :
    (checkLog (x.log t)).success = true ↔ ∃ c ∈ x.calls t, c.mentions := by
  rw [checkLog_success, Execution.log, Text.infix_unlines (by decide) (by decide)]
  constructor
  · rintro ⟨text, htext, hmentions⟩
    obtain ⟨c, hc, hct⟩ := List.mem_filterMap.mp htext
    exact ⟨c, hc, text, hct, hmentions⟩
  · rintro ⟨c, hc, text, hct, hmentions⟩
    exact ⟨text, List.mem_filterMap.mpr ⟨c, hc, hct⟩, hmentions⟩

theorem not_mentions_simulateTail (stopped : Bool) :
    ∀ c ∈ simulateTail .runSim stopped, ¬c.mentions := by
  cases stopped with
  | true => simp [simulateTail]
  | false => simpa [simulateTail] using not_mentions_startSimulation

end Mentions

section Laws

variable {args : Args} {W M : Nat}

theorem mem_givenTexts {root : String} {es : List ExitEvent} {text : String} :
    text ∈ givenTexts root args es ↔ text = root ∨ text = args.checkpointDir ∨
      text = args.function ∨ ∃ e ∈ es, e.otherCause = some text := by
  simp only [givenTexts, List.mem_cons, List.mem_filterMap]

theorem mentions_startup_or_announces (root : String) (es : List ExitEvent) :
    ((∃ c ∈ settle .runSim root args, c.mentions) ∨ ∃ e ∈ es, e.announces args) ↔
      (∃ text ∈ givenTexts root args es, simulationDone <:+: text.toList) ∨
        ∃ e ∈ es, e.kind = .fail (-1) := by
  simp only [mentions_settle, mem_givenTexts]
  constructor
  · rintro ((h | h | h) | ⟨e, he, hfail | ⟨-, h | h⟩ | ⟨cause, hcause, h⟩⟩)
    · exact .inl ⟨_, .inl rfl, h⟩
    · exact .inl ⟨_, .inr (.inl rfl), h⟩
    · exact .inl ⟨_, .inr (.inr (.inl rfl)), h⟩
    · exact .inr ⟨e, he, hfail⟩
    · exact .inl ⟨_, .inr (.inl rfl), h⟩
    · exact .inl ⟨_, .inr (.inr (.inl rfl)), h⟩
    · exact .inl ⟨cause, .inr (.inr (.inr ⟨e, he, hcause⟩)), h⟩
  · rintro (⟨text, rfl | rfl | rfl | ⟨e, he, hcause⟩, h⟩ | ⟨e, he, hfail⟩)
    · exact .inl (.inl h)
    · exact .inl (.inr (.inl h))
    · exact .inl (.inr (.inr h))
    · exact .inr ⟨e, he, .inr (.inr ⟨text, hcause, h⟩)⟩
    · exact .inr ⟨e, he, .inl hfail⟩

theorem checkLog_m5Main (root : String) (hmode : args.mode = .evaluation)
    (hW : args.atomicWarming = W) (hM : args.numInvocations = M) (hpos : 1 ≤ M)
    (events : List ExitEvent) :
    (checkLog ((m5Main .runSim root args events).log .runSim)).success = true ↔
      (∃ text ∈ givenTexts root args (delivered (W + M) events.tail),
        simulationDone <:+: text.toList) ∨
      ∃ e ∈ delivered (W + M) events.tail, e.kind = .fail (-1) := by
  rw [checkLog_log_success, ← mentions_startup_or_announces]
  cases events with
  | nil => simp [m5Main, hmode, Execution.calls, delivered]
  | cons first es =>
    have hm : 1 ≤ (armed args).invToMeasure := by simp only [armed, hM]; omega
    have htrace := map_fst_trace_delivered .runSim hmode hm es
    rw [armed_budget hW hM hpos, Nat.sub_add_cancel (by omega)] at htrace
    have hcalls := @Reactive.exists_calls_run _ _ _ _ (armed args) es _ _
      (mentions_simulateStep args)
    have hnone {cs : List Call} (h : ∀ c ∈ cs, ¬c.mentions) : ¬∃ c ∈ cs, c.mentions := by
      rintro ⟨c, hc, hmentions⟩
      exact h c hc hmentions
    rw [simulate] at htrace
    rw [m5Main_evaluation .runSim root hmode, Execution.calls, List.tail_cons, ← htrace, ← hcalls]
    simp only [List.mem_append, or_and_right, exists_or, hnone (not_mentions_arm args),
      hnone (not_mentions_simulateTail _), or_false, simulate]

theorem measured_m5Main (root : String) (hmode : args.mode = .evaluation)
    (hW : args.atomicWarming = W) (hM : args.numInvocations = M) (hpos : 1 ≤ M)
    (events : List ExitEvent) :
    (∃ o, (m5Main .runSim root args events).loop = some o ∧ Measured W M o) ↔
      W + M ≤ (beforeAbort events.tail).countP ExitEvent.isWorkend := by
  cases events with
  | nil =>
    have hlt : ¬W + M ≤ (beforeAbort []).countP ExitEvent.isWorkend := by
      simp [beforeAbort]
      omega
    simp [m5Main, hmode, hlt]
  | cons first es =>
    simp [m5Main_evaluation .runSim root hmode, simulate_measured .runSim hmode hW hM hpos]

theorem or_iff_iff {c p q : Prop} (h : c → ¬q) : (p ∨ q ↔ c) ↔ c ∧ p ∨ ¬c ∧ ¬p ∧ ¬q := by
  tauto

theorem logAgrees_iff (filename root : String) (hmode : args.mode = .evaluation)
    (hW : args.atomicWarming = W) (hM : args.numInvocations = M) (hpos : 1 ≤ M)
    (events : List ExitEvent) :
    LogAgrees filename root args W M events ↔
      (W + M ≤ (beforeAbort events.tail).countP ExitEvent.isWorkend ∧
        ∃ text ∈ givenTexts root args (delivered (W + M) events.tail),
          simulationDone <:+: text.toList) ∨
      (¬W + M ≤ (beforeAbort events.tail).countP ExitEvent.isWorkend ∧
        (¬∃ text ∈ givenTexts root args (delivered (W + M) events.tail),
          simulationDone <:+: text.toList) ∧
        ¬∃ e ∈ delivered (W + M) events.tail, e.kind = .fail (-1)) := by
  have hquiet : W + M ≤ (beforeAbort events.tail).countP ExitEvent.isWorkend →
      ¬∃ e ∈ delivered (W + M) events.tail, e.kind = .fail (-1) := by
    rintro hle ⟨e, he, hfail⟩
    have habort := aborts_of_mem_delivered (by omega) hle e he
    simp [ExitEvent.aborts, hfail] at habort
  rw [LogAgrees]
  simp only [commented_rerun, checkLog_m5Main root hmode hW hM hpos,
    measured_m5Main root hmode hW hM hpos, and_self]
  exact or_iff_iff hquiet

end Laws

theorem logAgrees_empty :
    LogAgrees "gem5.log" "/vswarm" { mode := .evaluation, function := "aes-go" } 0 5 [] :=
  (logAgrees_iff "gem5.log" "/vswarm" rfl rfl rfl (by decide) []).mpr
    (.inr ⟨by decide, by
      rintro ⟨text, htext, h⟩
      simp only [givenTexts, List.tail_nil, delivered, List.filterMap_nil, List.mem_cons,
        List.not_mem_nil, or_false] at htext
      rcases htext with rfl | rfl | rfl <;> exact not_infix_of_lacks (by decide) h,
      by simp [delivered]⟩)

theorem not_logAgrees_measured :
    ¬LogAgrees "gem5.log" "/vswarm"
      { mode := .evaluation, function := "aes-go", numInvocations := 1 } 0 1
      [maxInstsEvent, workbeginEvent 100, workendEvent 100] := by
  rintro ⟨hsuccess, -⟩
  rw [measured_m5Main "/vswarm" rfl rfl rfl (by decide),
    checkLog_m5Main "/vswarm" rfl rfl rfl (by decide)] at hsuccess
  have hdelivered : delivered (0 + 1)
      [maxInstsEvent, workbeginEvent 100, workendEvent 100].tail =
        [workbeginEvent 100, workendEvent 100] := by decide
  rw [hdelivered] at hsuccess
  rcases hsuccess.mpr (by decide) with ⟨text, htext, h⟩ | ⟨e, he, hfail⟩
  · have hgiven : text ∈ ["/vswarm", "cpt_1m/", "aes-go"] := htext
    simp only [List.mem_cons, List.not_mem_nil, or_false] at hgiven
    rcases hgiven with rfl | rfl | rfl <;> exact not_infix_of_lacks (by decide) h
  · simp only [List.mem_cons, List.not_mem_nil, or_false] at he
    rcases he with rfl | rfl <;> exact absurd hfail (by decide)

end VSwarm.RunSim
