import VSwarm.Lib.FileSystem
import VSwarm.Lib.Transition
import VSwarm.Defs.RunSim.Log

namespace VSwarm.RunSim

open VSwarm.Lib

inductive Script | setupAll | simAll
  deriving DecidableEq

def Script.args (fn : String) : Script → Args
  | .setupAll => { function := fn, mode := .setup }
  | .simAll => { function := fn, mode := .evaluation, atomicWarming := 10, numInvocations := 10 }

/-- A simulation, and the calls that it still has to make. -/
structure Job where
  args : Args
  todo : List Call

/-- The checkpoints, each with the simulation that took it; the simulations that
were restored from one; and those that ended because there was none. -/
structure Campaign where
  jobs : List Job := []
  cpts : FileSystem String Args := fun _ => none
  restored : List (Args × Args) := []
  refused : List Args := []

inductive Campaign.Label
  | start (script : Script) (fn : String) (events : List ExitEvent)
  | run (i : Nat)

def Campaign.perform (c : Campaign) (i : Nat) (args : Args) (rest : List Call) : Call → Campaign
  | .checkpoint path =>
    { c with jobs := c.jobs.set i ⟨args, rest⟩, cpts := c.cpts.write path args }
  | .instantiate (some path) =>
    match c.cpts path with
    | none => { c with jobs := c.jobs.set i ⟨args, []⟩, refused := args :: c.refused }
    | some snapshot =>
      { c with jobs := c.jobs.set i ⟨args, rest⟩, restored := (args, snapshot) :: c.restored }
  | _ => { c with jobs := c.jobs.set i ⟨args, rest⟩ }

def Campaign.step (root : String) (c : Campaign) : Label → Option Campaign
  | .start script fn events =>
    let args := script.args fn
    some { c with jobs := c.jobs ++ [⟨args, (m5Main .runSim root args events).calls .runSim⟩] }
  | .run i =>
    match c.jobs[i]? with
    | some ⟨args, call :: rest⟩ => some (c.perform i args rest call)
    | _ => none

def Campaign.Leads (root : String) : Campaign → Campaign → Prop :=
  Transition.Reaches (Campaign.step root) fun _ _ => True

/-- Where the scripts keep the checkpoint of a function. -/
def warmPath (fn : String) : String := ckpPath { function := fn } "warm"

def Job.Private (j : Job) : Prop :=
  ∀ path, (.checkpoint path ∈ j.todo ∨ .instantiate (some path) ∈ j.todo) →
    path = warmPath j.args.function

structure Campaign.Inv (c : Campaign) : Prop where
  jobs : ∀ j ∈ c.jobs, j.Private
  cpts : ∀ path snapshot, c.cpts path = some snapshot → path = warmPath snapshot.function
  restored : ∀ r ∈ c.restored, r.2.function = r.1.function

section Paths

variable {t : Template} {args : Args} {s : State} {e : ExitEvent} {path : String}

theorem warmPath_injective {f g : String} (h : warmPath f = warmPath g) : f = g := by
  have hlists := congrArg String.toList h
  simp only [warmPath, ckpPath, String.toList_append, List.append_assoc] at hlists
  exact String.toList_inj.mp (List.append_cancel_right (List.append_cancel_left
    (List.append_cancel_left hlists)))

theorem ckpPath_script (s : Script) (fn : String) :
    ckpPath (s.args fn) (s.args fn).useCheckpoint.text = warmPath fn ∧
      ckpPath (s.args fn) "warm" = warmPath fn := by
  cases s <;> exact ⟨rfl, rfl⟩

/-- The only checkpoint that a simulation takes is the one after the warming. -/
theorem checkpoint_executeM5FailCode {code : Int}
    (h : .checkpoint path ∈ (executeM5FailCode args s code).calls) :
    path = ckpPath args "warm" := by
  by_cases hcode : code = 32
  · subst hcode
    simpa [executeM5FailCode, failCodes, prYellow] using h
  · cases htext : failCodes code with
    | none => simp [executeM5FailCode, htext] at h
    | some text =>
      simp only [executeM5FailCode, htext, hcode, if_false] at h
      split at h <;> simp [prYellow, prGreen] at h

theorem checkpoint_simulateStep (h : .checkpoint path ∈ (simulateStep t args s e).calls) :
    path = ckpPath args "warm" := by
  have hcalls : .checkpoint path ∈ (handle t args s e).calls := by
    simpa [simulateStep, startSimulation] using h
  have hwork : ∀ begin id, .checkpoint path ∉ (workitem t args s begin id).calls := by
    intro begin id
    simp only [workitem]
    split_ifs <;> simp [prYellow, prGreen]
  cases hk : e.kind with
  | fail code =>
    simp only [handle, hk] at hcalls
    exact checkpoint_executeM5FailCode hcalls
  | workbegin id => simp [handle, hk, hwork] at hcalls
  | workend id => simp [handle, hk, hwork] at hcalls
  | userInterrupt => simp [handle, hk] at hcalls
  | other cause code => simp [handle, hk] at hcalls

theorem instantiate_simulateStep {ckp : Option String} :
    .instantiate ckp ∉ (simulateStep t args s e).calls := by
  intro h
  have hcalls : .instantiate ckp ∈ (handle t args s e).calls := by
    simpa [simulateStep, startSimulation] using h
  have hwork : ∀ begin id, .instantiate ckp ∉ (workitem t args s begin id).calls := by
    intro begin id
    simp only [workitem]
    split_ifs <;> simp [prYellow, prGreen]
  cases hk : e.kind with
  | fail code =>
    simp only [handle, hk] at hcalls
    have hquiet := executeM5FailCode_quiet args s code _ hcalls
    cases hquiet
  | workbegin id => simp [handle, hk, hwork] at hcalls
  | workend id => simp [handle, hk, hwork] at hcalls
  | userInterrupt => simp [handle, hk] at hcalls
  | other cause code => simp [handle, hk] at hcalls

theorem mem_loop {c : Call} {startup : List Call} {events : List ExitEvent}
    (h : c ∈ Execution.calls t ⟨startup, some (simulate t args s events)⟩) :
    c ∈ startup ∨ (∃ s e, c ∈ (simulateStep t args s e).calls) ∨ ∃ text, c = .print text := by
  rcases List.mem_append.mp h with h | h
  · exact .inl h
  · rcases List.mem_append.mp h with h | h
    · obtain ⟨s', e, -, hc⟩ := Reactive.mem_calls_run h
      exact .inr (.inl ⟨s', e, hc⟩)
    · have htail : ∀ stopped, c ∈ simulateTail t stopped → ∃ text, c = .print text := by
        intro stopped hc
        cases t <;> cases stopped <;> simp [simulateTail, prGreen, startSimulation] at hc <;>
          exact ⟨_, hc⟩
      exact .inr (.inr (htail _ h))

theorem mem_calls_m5Main {c : Call} {root : String} {events : List ExitEvent}
    (h : c ∈ (m5Main t root args events).calls t) :
    (∃ text, c = .print text) ∨ c = .instantiate none ∨ (∃ m, c = .switchToAtomicCpu m) ∨
      c = .instantiate (some (ckpPath args args.useCheckpoint.text)) ∨
      ∃ s e, c ∈ (simulateStep t args s e).calls := by
  have hsettle : c ∈ settle t root args → (∃ text, c = .print text) ∨
      c = .instantiate (some (ckpPath args args.useCheckpoint.text)) := by
    intro hc
    simp only [settle, List.mem_append, List.mem_cons, List.not_mem_nil, or_false] at hc
    rcases hc with hc | rfl | rfl | rfl
    · exact .inl (prints_configure hc)
    · exact .inl ⟨_, rfl⟩
    · exact .inl ⟨_, rfl⟩
    · exact .inr rfl
  have harm : c ∈ arm t args → (∃ text, c = .print text) ∨ ∃ m, c = .switchToAtomicCpu m := by
    intro hc
    rcases List.mem_append.mp hc with hc | hc
    · split at hc
      · obtain ⟨m, -, rfl⟩ := List.mem_map.mp hc
        exact .inr ⟨m, rfl⟩
      · cases hc
    · simp only [prGreen, List.mem_cons, List.not_mem_nil, or_false] at hc
      exact .inl (hc.elim (⟨_, ·⟩) (⟨_, ·⟩))
  cases hmode : args.mode with
  | setup =>
    simp only [m5Main, hmode] at h
    rcases mem_loop h with hc | hc | hc
    · simp only [List.mem_append, List.mem_cons, List.not_mem_nil, or_false] at hc
      rcases hc with hc | rfl | rfl
      · exact .inl (prints_configure hc)
      · exact .inl ⟨_, rfl⟩
      · exact .inr (.inl rfl)
    · exact .inr (.inr (.inr (.inr hc)))
    · exact .inl hc
  | evaluation =>
    cases events with
    | nil =>
      simp only [m5Main, hmode, Execution.calls, List.append_nil] at h
      rcases hsettle h with hc | hc
      · exact .inl hc
      · exact .inr (.inr (.inr (.inl hc)))
    | cons first events =>
      rw [m5Main_evaluation t root hmode] at h
      rcases mem_loop h with hc | hc | hc
      · rcases List.mem_append.mp hc with hc | hc
        · rcases hsettle hc with hc | hc
          · exact .inl hc
          · exact .inr (.inr (.inr (.inl hc)))
        · rcases harm hc with hc | hc
          · exact .inl hc
          · exact .inr (.inr (.inl hc))
      · exact .inr (.inr (.inr (.inr hc)))
      · exact .inl hc

theorem private_script (root : String) (script : Script) (fn : String) (events : List ExitEvent) :
    Job.Private ⟨script.args fn, (m5Main .runSim root (script.args fn) events).calls .runSim⟩ := by
  obtain ⟨huse, hwarm⟩ := ckpPath_script script fn
  have hfn : (script.args fn).function = fn := by cases script <;> rfl
  rintro path (h | h)
  · rcases mem_calls_m5Main h with ⟨_, hc⟩ | hc | ⟨_, hc⟩ | hc | ⟨s, e, hc⟩
    · cases hc
    · cases hc
    · cases hc
    · cases hc
    · rw [checkpoint_simulateStep hc, hwarm, hfn]
  · rcases mem_calls_m5Main h with ⟨_, hc⟩ | hc | ⟨_, hc⟩ | hc | ⟨s, e, hc⟩
    · cases hc
    · cases hc
    · cases hc
    · obtain rfl := Option.some.inj (Call.instantiate.inj hc)
      rw [huse, hfn]
    · exact absurd hc instantiate_simulateStep

end Paths

section Runs

variable {root : String} {c c' : Campaign} {l : Campaign.Label}

theorem Campaign.step_cases (h : c.step root l = some c') :
    (∃ script fn events, l = .start script fn events ∧ c' = { c with
      jobs := c.jobs ++ [⟨script.args fn,
        (m5Main .runSim root (script.args fn) events).calls .runSim⟩] }) ∨
    ∃ i args call rest, l = .run i ∧ c.jobs[i]? = some ⟨args, call :: rest⟩ ∧
      c' = c.perform i args rest call := by
  cases l with
  | start script fn events => exact .inl ⟨script, fn, events, rfl, (Option.some.inj h).symm⟩
  | run i =>
    simp only [Campaign.step] at h
    split at h
    · rename_i args call rest hjob
      exact .inr ⟨i, args, call, rest, rfl, hjob, (Option.some.inj h).symm⟩
    · cases h

theorem Job.Private.tail {args : Args} {call : Call} {rest : List Call}
    (h : Job.Private ⟨args, call :: rest⟩) : Job.Private ⟨args, rest⟩ := by
  rintro path (hpath | hpath)
  · exact h path (.inl (List.mem_cons_of_mem _ hpath))
  · exact h path (.inr (List.mem_cons_of_mem _ hpath))

theorem private_set (hc : c.Inv) {i : Nat} {job : Job} (hjob : job.Private) :
    ∀ j ∈ c.jobs.set i job, j.Private := by
  intro j hj
  rcases List.mem_or_eq_of_mem_set hj with hj | rfl
  · exact hc.jobs j hj
  · exact hjob

theorem Campaign.Inv.perform (hc : c.Inv) {i : Nat} {args : Args} {call : Call} {rest : List Call}
    (hi : c.jobs[i]? = some ⟨args, call :: rest⟩) : (c.perform i args rest call).Inv := by
  have hjob : Job.Private ⟨args, call :: rest⟩ := hc.jobs _ (List.mem_of_getElem? hi)
  have hjobs := private_set hc (i := i) hjob.tail
  cases call with
  | checkpoint path =>
    have hpath : path = warmPath args.function := hjob path (.inl List.mem_cons_self)
    refine ⟨hjobs, ?_, hc.restored⟩
    intro path' snapshot h
    change c.cpts.write path args path' = some snapshot at h
    by_cases heq : path' = path
    · subst heq
      rw [FileSystem.write_same] at h
      obtain rfl := Option.some.inj h
      exact hpath
    · rw [FileSystem.write_of_ne heq] at h
      exact hc.cpts path' snapshot h
  | instantiate ckp =>
    cases ckp with
    | none => exact ⟨hjobs, hc.cpts, hc.restored⟩
    | some path =>
      have hpath : path = warmPath args.function := hjob path (.inr List.mem_cons_self)
      simp only [Campaign.perform]
      cases hcpt : c.cpts path with
      | none =>
        have hnone : Job.Private ⟨args, []⟩ := by simp [Job.Private]
        exact ⟨private_set hc hnone, hc.cpts, hc.restored⟩
      | some snapshot =>
        refine ⟨hjobs, hc.cpts, ?_⟩
        intro r hr
        rcases List.mem_cons.mp hr with rfl | hr
        · exact warmPath_injective ((hc.cpts path snapshot hcpt).symm.trans hpath)
        · exact hc.restored r hr
  | print text => exact ⟨hjobs, hc.cpts, hc.restored⟩
  | switchToAtomicCpu m => exact ⟨hjobs, hc.cpts, hc.restored⟩
  | switchToMainCpu m => exact ⟨hjobs, hc.cpts, hc.restored⟩
  | statsReset => exact ⟨hjobs, hc.cpts, hc.restored⟩
  | statsDump => exact ⟨hjobs, hc.cpts, hc.restored⟩

theorem Campaign.Inv.step (hc : c.Inv) (h : c.step root l = some c') : c'.Inv := by
  rcases Campaign.step_cases h with ⟨script, fn, events, -, rfl⟩ | ⟨i, args, call, rest, -, hi, rfl⟩
  · refine ⟨?_, hc.cpts, hc.restored⟩
    intro j hj
    rcases List.mem_append.mp hj with hj | hj
    · exact hc.jobs j hj
    · obtain rfl := List.mem_singleton.mp hj
      exact private_script root script fn events
  · exact hc.perform hi

/-- What a step keeps of a function whose checkpoint is there. -/
def Campaign.Keeps (fn : String) (c c' : Campaign) : Prop :=
  (c'.cpts (warmPath fn)).isSome ∧
    c'.refused.countP (·.function = fn) = c.refused.countP (·.function = fn)

theorem Campaign.Inv.keeps_perform (hc : c.Inv) {fn : String}
    (hfn : (c.cpts (warmPath fn)).isSome) {i : Nat} {args : Args} {call : Call} {rest : List Call}
    (hi : c.jobs[i]? = some ⟨args, call :: rest⟩) :
    Campaign.Keeps fn c (c.perform i args rest call) := by
  have hjob : Job.Private ⟨args, call :: rest⟩ := hc.jobs _ (List.mem_of_getElem? hi)
  cases call with
  | checkpoint path =>
    refine ⟨?_, rfl⟩
    change (c.cpts.write path args (warmPath fn)).isSome = true
    by_cases heq : warmPath fn = path
    · rw [heq, FileSystem.write_same]
      rfl
    · rw [FileSystem.write_of_ne heq]
      exact hfn
  | instantiate ckp =>
    cases ckp with
    | none => exact ⟨hfn, rfl⟩
    | some path =>
      have hpath : path = warmPath args.function := hjob path (.inr List.mem_cons_self)
      simp only [Campaign.perform]
      cases hcpt : c.cpts path with
      | none =>
        refine ⟨hfn, List.countP_cons_of_neg ?_⟩
        intro hargs
        obtain rfl : args.function = fn := of_decide_eq_true hargs
        rw [← hpath, hcpt] at hfn
        cases hfn
      | some snapshot => exact ⟨hfn, rfl⟩
  | print text => exact ⟨hfn, rfl⟩
  | switchToAtomicCpu m => exact ⟨hfn, rfl⟩
  | switchToMainCpu m => exact ⟨hfn, rfl⟩
  | statsReset => exact ⟨hfn, rfl⟩
  | statsDump => exact ⟨hfn, rfl⟩

theorem Campaign.Leads.inv (hc : c.Inv) (h : Campaign.Leads root c c') : c'.Inv :=
  h.invariant hc fun _ _ _ hi _ hs => hi.step hs

theorem Campaign.Leads.keeps (hc : c.Inv) (h : Campaign.Leads root c c') {fn : String}
    (hfn : (c.cpts (warmPath fn)).isSome) : Campaign.Keeps fn c c' := by
  induction h with
  | init => exact ⟨hfn, rfl⟩
  | step hleads _ hs ih =>
    obtain ⟨hcpt, hrefused⟩ := ih
    have hinv := Campaign.Leads.inv hc hleads
    rcases Campaign.step_cases hs with ⟨script, fn', events, -, rfl⟩ |
      ⟨i, args, call, rest, -, hi, rfl⟩
    · exact ⟨hcpt, hrefused⟩
    · obtain ⟨hcpt', hrefused'⟩ := hinv.keeps_perform hcpt hi
      exact ⟨hcpt', hrefused'.trans hrefused⟩

theorem Campaign.inv_init : Campaign.Inv {} := by
  constructor <;> simp

end Runs

theorem leads_isolated (root : String) (c : Campaign) (h : Campaign.Leads root {} c) :
    (∀ r ∈ c.restored, r.2.function = r.1.function) ∧
    ∀ fn c', (c.cpts (warmPath fn)).isSome → Campaign.Leads root c c' →
      (∃ snapshot, c'.cpts (warmPath fn) = some snapshot ∧ snapshot.function = fn) ∧
        c'.refused.countP (·.function = fn) = c.refused.countP (·.function = fn) := by
  have hc := Campaign.Leads.inv Campaign.inv_init h
  refine ⟨hc.restored, ?_⟩
  intro fn c' hfn hleads
  obtain ⟨hcpt, hrefused⟩ := hleads.keeps hc hfn
  obtain ⟨snapshot, hsnapshot⟩ := Option.isSome_iff_exists.mp hcpt
  have hpath := (hleads.inv hc).cpts _ snapshot hsnapshot
  exact ⟨⟨snapshot, hsnapshot, (warmPath_injective hpath).symm⟩, hrefused⟩

def setupThenSim : List Campaign.Label :=
  .start .setupAll "aes-go" [failEvent 32] :: List.replicate 7 (.run 0) ++
    .start .simAll "aes-go" [] :: List.replicate 4 (.run 1)

theorem leads_isolated_aes_go :
    ∃ c, setupThenSim.foldlM (Campaign.step "/vSwarm-u") {} = some c ∧
      (c.restored ≠ [] ∧ ∀ r ∈ c.restored, r.2.function = r.1.function) ∧
      (c.cpts (warmPath "aes-go")).isSome ∧
      ∀ c', Campaign.Leads "/vSwarm-u" c c' →
        (∃ snapshot, c'.cpts (warmPath "aes-go") = some snapshot ∧
            snapshot.function = "aes-go") ∧
          c'.refused.countP (·.function = "aes-go") =
            c.refused.countP (·.function = "aes-go") := by
  refine ⟨_, rfl, ?_⟩
  have h := leads_isolated "/vSwarm-u" _
    (Transition.reaches_of_foldlM (fun _ _ => trivial) setupThenSim rfl)
  refine ⟨⟨?_, h.1⟩, ?_, fun c' hc' => h.2 "aes-go" c' ?_ hc'⟩
  · exact List.cons_ne_nil _ _
  · rfl
  · rfl

end VSwarm.RunSim
