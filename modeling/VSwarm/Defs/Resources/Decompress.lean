import VSwarm.Lib.Transition
import VSwarm.Defs.Resources.Artifacts

/-! `decompressParallel` of `artifacts.py`: `pigz` and `tar`, joined by a pipe,
and the loop that polls them.  The three processes take their steps in any
order. -/

namespace VSwarm.Resources.Decompress

open VSwarm.Lib

/-- Where the loop stands: before `ps.poll()`, before `ps2.poll()`, or behind. -/
inductive Python | pollPigz | pollTar | returned
  deriving DecidableEq

/-- The decompressed archive is on its way from `remaining` through the pipe and
the buffer of `tar` to the file.  A process that has ended has an exit status. -/
structure Pipeline where
  remaining : Bytes
  pipe : Bytes := []
  buffer : Bytes := []
  file : Bytes := []
  pigz : Option Nat := none
  tar : Option Nat := none
  python : Python := .pollPigz

inductive Label
  | pigzWrite (n : Nat)
  | pigzExit (status : Nat)
  | tarRead (n : Nat)
  | tarWrite (n : Nat)
  | tarExit (status : Nat)
  | python

/-- Either child may fail at any time.  `pigz` ends when it has written all, `tar`
when it has written all that it could read and the pipe has been closed. -/
def step (capacity : Nat) (v : Pipeline) : Label → Option Pipeline
  | .pigzWrite n =>
    if v.pigz = none ∧ v.pipe.length + n ≤ capacity then
      some { v with remaining := v.remaining.drop n, pipe := v.pipe ++ v.remaining.take n }
    else none
  | .pigzExit status =>
    if v.pigz = none ∧ (status = 0 → v.remaining = []) then some { v with pigz := some status }
    else none
  | .tarRead n =>
    if v.tar = none then
      some { v with pipe := v.pipe.drop n, buffer := v.buffer ++ v.pipe.take n }
    else none
  | .tarWrite n =>
    if v.tar = none then
      some { v with buffer := v.buffer.drop n, file := v.file ++ v.buffer.take n }
    else none
  | .tarExit status =>
    if v.tar = none ∧ (status = 0 → v.pigz.isSome ∧ v.pipe = [] ∧ v.buffer = []) then
      some { v with tar := some status }
    else none
  | .python =>
    match v.python with
    | .pollPigz => some { v with python := if v.pigz.isSome then .returned else .pollTar }
    | .pollTar => some { v with python := if v.tar.isSome then .returned else .pollPigz }
    | .returned => none

def Failed (status : Option Nat) : Prop := ∃ n ≠ 0, status = some n

def Waits (archive : Bytes) (v : Pipeline) : Prop :=
  v.python = .returned → ¬Failed v.pigz → ¬Failed v.tar →
    v.remaining = [] ∧ v.pipe = [] ∧ v.buffer = [] ∧ v.file = archive

/-- The loop is not left because of `pigz` while `tar` is running. -/
def TarDone (v : Pipeline) (l : Label) : Prop :=
  l = .python → v.python = .pollPigz → v.pigz.isSome → v.tar.isSome

structure Inv (archive : Bytes) (v : Pipeline) : Prop where
  whole : v.file ++ (v.buffer ++ (v.pipe ++ v.remaining)) = archive
  pigz : v.pigz = some 0 → v.remaining = []
  tar : v.tar = some 0 → v.pigz.isSome ∧ v.pipe = [] ∧ v.buffer = []
  returned : v.python = .returned → v.tar.isSome

section Laws

variable {archive : Bytes} {capacity : Nat} {v v' : Pipeline} {l : Label}

theorem inv_init (archive : Bytes) : Inv archive { remaining := archive } := by
  constructor <;> simp

theorem Inv.step (h : Inv archive v) (hok : TarDone v l) (hs : step capacity v l = some v') :
    Inv archive v' := by
  cases l with
  | pigzWrite n =>
    obtain ⟨⟨hpigz, -⟩, rfl⟩ := Transition.guarded_eq_some.mp hs
    refine ⟨?_, fun hp => ?_, fun ht => ?_, h.returned⟩
    · rw [← h.whole, List.append_assoc, List.take_append_drop]
    · cases hpigz.symm.trans hp
    · have hended := (h.tar ht).1
      rw [hpigz] at hended
      cases hended
  | pigzExit status =>
    obtain ⟨⟨-, hall⟩, rfl⟩ := Transition.guarded_eq_some.mp hs
    refine ⟨h.whole, fun hp => hall (Option.some.inj hp), fun ht => ?_, h.returned⟩
    exact ⟨rfl, (h.tar ht).2⟩
  | tarRead n =>
    obtain ⟨htar, rfl⟩ := Transition.guarded_eq_some.mp hs
    refine ⟨?_, h.pigz, fun ht => ?_, h.returned⟩
    · rw [← h.whole, List.append_assoc, ← List.append_assoc (v.pipe.take n),
        List.take_append_drop]
    · cases htar.symm.trans ht
  | tarWrite n =>
    obtain ⟨htar, rfl⟩ := Transition.guarded_eq_some.mp hs
    refine ⟨?_, h.pigz, fun ht => ?_, h.returned⟩
    · rw [← h.whole, List.append_assoc, ← List.append_assoc (v.buffer.take n),
        List.take_append_drop]
    · cases htar.symm.trans ht
  | tarExit status =>
    obtain ⟨⟨-, hall⟩, rfl⟩ := Transition.guarded_eq_some.mp hs
    exact ⟨h.whole, h.pigz, fun ht => hall (Option.some.inj ht), fun _ => rfl⟩
  | python =>
    simp only [Decompress.step] at hs
    cases hpy : v.python with
    | pollPigz =>
      simp only [hpy] at hs
      obtain rfl := Option.some.inj hs
      refine ⟨h.whole, h.pigz, h.tar, fun hret => ?_⟩
      cases hpigz : v.pigz with
      | none => simp [hpigz] at hret
      | some status => exact hok rfl hpy (by simp [hpigz])
    | pollTar =>
      simp only [hpy] at hs
      obtain rfl := Option.some.inj hs
      refine ⟨h.whole, h.pigz, h.tar, fun hret => ?_⟩
      cases htar : v.tar with
      | none => simp [htar] at hret
      | some status => rfl
    | returned => simp [hpy] at hs

theorem Inv.waits (h : Inv archive v) : Waits archive v := by
  intro hret hpigz htar
  have hexit : v.tar = some 0 := by
    obtain ⟨status, hstatus⟩ := Option.isSome_iff_exists.mp (h.returned hret)
    by_contra hne
    exact htar ⟨status, fun hzero => hne (hzero ▸ hstatus), hstatus⟩
  obtain ⟨hended, hpipe, hbuffer⟩ := h.tar hexit
  have hrem : v.remaining = [] := by
    obtain ⟨status, hstatus⟩ := Option.isSome_iff_exists.mp hended
    refine h.pigz ?_
    by_contra hne
    exact hpigz ⟨status, fun hzero => hne (hzero ▸ hstatus), hstatus⟩
  have hfile := h.whole
  rw [hpipe, hbuffer, hrem, List.nil_append, List.nil_append, List.append_nil] at hfile
  exact ⟨hrem, hpipe, hbuffer, hfile⟩

theorem reaches_waits
    (h : Transition.Reaches (step capacity) TarDone { remaining := archive } v) :
    Waits archive v :=
  (h.invariant (inv_init archive) fun _ _ _ hv hok hs => hv.step hok hs).waits

theorem reaches_waits_finished :
    ∃ v, Transition.Reaches (step 1) TarDone { remaining := [7] } v ∧ v.python = .returned ∧
      v.pigz = some 0 ∧ v.tar = some 0 ∧ Waits [7] v := by
  have h₁ : Transition.Reaches (step 1) TarDone { remaining := [7] } _ :=
    .step .init (l := .pigzWrite 1) (by simp [TarDone]) rfl
  have h₂ := h₁.step (l := .tarRead 1) (by simp [TarDone]) rfl
  have h₃ := h₂.step (l := .tarWrite 1) (by simp [TarDone]) rfl
  have h₄ := h₃.step (l := .pigzExit 0) (by simp [TarDone]) rfl
  have h₅ := h₄.step (l := .tarExit 0) (by simp [TarDone]) rfl
  have h₆ := h₅.step (l := .python) (by simp [TarDone]) rfl
  exact ⟨_, h₆, rfl, rfl, rfl, reaches_waits h₆⟩

theorem not_waits_buffered :
    ¬∀ archive capacity v,
      Transition.Reaches (step capacity) (fun _ _ => True) { remaining := archive } v →
        Waits archive v := by
  intro h
  have h₁ : Transition.Reaches (step 1) (fun _ _ => True) { remaining := [7] } _ :=
    .step .init (l := .pigzWrite 1) trivial rfl
  have h₂ := h₁.step (l := .pigzExit 0) trivial rfl
  have h₃ := h₂.step (l := .python) trivial rfl
  have hwaits := h [7] 1 _ h₃ rfl (by simp [Failed]) (by simp [Failed])
  cases hwaits.2.1

end Laws

end VSwarm.Resources.Decompress
