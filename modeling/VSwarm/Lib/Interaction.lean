import Mathlib.Data.List.Infix

/-! Programs that act and ask.  A program performs actions `α` and puts
questions `κ` to its environment, whose answers `ρ` decide how it goes on.  A
run against an oracle is complete and computes; the step function executes one
action or answer at a time, for programs that run next to others. -/

namespace VSwarm.Lib.Interaction

inductive Prog (α κ ρ β : Type) : Type
  | ret : β → Prog α κ ρ β
  | act : α → Prog α κ ρ β → Prog α κ ρ β
  | ask : κ → (ρ → Prog α κ ρ β) → Prog α κ ρ β

inductive Step (α κ ρ : Type) : Type
  | act : α → Step α κ ρ
  | answer : κ → ρ → Step α κ ρ
  deriving DecidableEq

def Prog.bind : Prog α κ ρ β → (β → Prog α κ ρ γ) → Prog α κ ρ γ
  | .ret b, f => f b
  | .act a p, f => .act a (p.bind f)
  | .ask q k, f => .ask q (fun r => (k r).bind f)

instance : Monad (Prog α κ ρ) where
  pure := .ret
  bind := .bind

def Prog.perform (a : α) : Prog α κ ρ Unit := .act a (.ret ())

def Prog.performAll (as : List α) : Prog α κ ρ Unit := as.foldr .act (.ret ())

def Prog.query (q : κ) : Prog α κ ρ ρ := .ask q .ret

def Prog.when (c : Prop) [Decidable c] (p : Prog α κ ρ Unit) : Prog α κ ρ Unit :=
  if c then p else .ret ()

@[simp] theorem pure_eq (b : β) : (pure b : Prog α κ ρ β) = .ret b := rfl

@[simp] theorem ret_bind (b : β) (f : β → Prog α κ ρ γ) : (Prog.ret b >>= f) = f b := rfl

@[simp] theorem act_bind (a : α) (p : Prog α κ ρ β) (f : β → Prog α κ ρ γ) :
    (Prog.act a p >>= f) = .act a (p >>= f) := rfl

@[simp] theorem ask_bind (q : κ) (k : ρ → Prog α κ ρ β) (f : β → Prog α κ ρ γ) :
    (Prog.ask q k >>= f) = .ask q (fun r => k r >>= f) := rfl

@[simp] theorem perform_bind (a : α) (f : Unit → Prog α κ ρ γ) :
    (Prog.perform a >>= f) = .act a (f ()) := rfl

@[simp] theorem query_bind (q : κ) (f : ρ → Prog α κ ρ γ) :
    (Prog.query q >>= f) = .ask q f := rfl

theorem when_of_true {c : Prop} [Decidable c] (h : c) (p : Prog α κ ρ Unit) : p.when c = p :=
  if_pos h

theorem when_of_false {c : Prop} [Decidable c] (h : ¬ c) (p : Prog α κ ρ Unit) :
    p.when c = .ret () := if_neg h

structure Run (α κ ρ β : Type) where
  steps : List (Step α κ ρ)
  next : Nat
  value : β

def Prog.run (oracle : Nat → ρ) : Nat → Prog α κ ρ β → Run α κ ρ β
  | n, .ret b => ⟨[], n, b⟩
  | n, .act a p =>
    let r := p.run oracle n
    ⟨.act a :: r.steps, r.next, r.value⟩
  | n, .ask q k =>
    let r := (k (oracle n)).run oracle (n + 1)
    ⟨.answer q (oracle n) :: r.steps, r.next, r.value⟩

section Run

variable {oracle : Nat → ρ} {n : Nat}

@[simp] theorem run_ret (b : β) : (Prog.ret b : Prog α κ ρ β).run oracle n = ⟨[], n, b⟩ := rfl

@[simp] theorem run_act (a : α) (p : Prog α κ ρ β) :
    (Prog.act a p).run oracle n =
      ⟨.act a :: (p.run oracle n).steps, (p.run oracle n).next, (p.run oracle n).value⟩ := rfl

@[simp] theorem run_ask (q : κ) (k : ρ → Prog α κ ρ β) :
    (Prog.ask q k).run oracle n =
      ⟨.answer q (oracle n) :: ((k (oracle n)).run oracle (n + 1)).steps,
        ((k (oracle n)).run oracle (n + 1)).next,
        ((k (oracle n)).run oracle (n + 1)).value⟩ := rfl

theorem run_bind (p : Prog α κ ρ β) (f : β → Prog α κ ρ γ) :
    (p >>= f).run oracle n =
      ⟨(p.run oracle n).steps ++
          ((f (p.run oracle n).value).run oracle (p.run oracle n).next).steps,
        ((f (p.run oracle n).value).run oracle (p.run oracle n).next).next,
        ((f (p.run oracle n).value).run oracle (p.run oracle n).next).value⟩ := by
  induction p generalizing n with
  | ret b => rfl
  | act a p ih => simp [ih]
  | ask q k ih => simp [ih]

@[simp] theorem run_performAll (as : List α) :
    (Prog.performAll as : Prog α κ ρ Unit).run oracle n = ⟨as.map .act, n, ()⟩ := by
  induction as with
  | nil => rfl
  | cons a as ih =>
    rw [Prog.performAll] at ih ⊢
    simp [ih]

end Run

section Steps

variable [DecidableEq α] [DecidableEq κ]

def Prog.step : Prog α κ ρ β → Step α κ ρ → Option (Prog α κ ρ β)
  | .act a p, .act b => if a = b then some p else none
  | .ask q k, .answer q' r => if q = q' then some (k r) else none
  | _, _ => none

def Prog.steps : Prog α κ ρ β → List (Step α κ ρ) → Option (Prog α κ ρ β)
  | p, [] => some p
  | p, s :: ss => (p.step s).bind (·.steps ss)

theorem steps_concat {p p' : Prog α κ ρ β} {ss : List (Step α κ ρ)} {s : Step α κ ρ}
    {q : Prog α κ ρ β} (h : p.steps ss = some q) (hs : q.step s = some p') :
    p.steps (ss ++ [s]) = some p' := by
  induction ss generalizing p with
  | nil =>
    obtain rfl := Option.some.inj h
    simp [Prog.steps, hs]
  | cons t ss ih =>
    obtain ⟨r, hr, hrest⟩ := Option.bind_eq_some_iff.mp h
    exact Option.bind_eq_some_iff.mpr ⟨r, hr, ih hrest⟩

def answers (ss : List (Step α κ ρ)) : List ρ :=
  ss.filterMap fun
    | .act _ => none
    | .answer _ r => some r

theorem steps_prefix_run {p p' : Prog α κ ρ β} {ss : List (Step α κ ρ)}
    (h : p.steps ss = some p') (oracle : Nat → ρ) (n : Nat)
    (ho : ∀ i r, (answers ss)[i]? = some r → oracle (n + i) = r) :
    ss <+: (p.run oracle n).steps := by
  induction ss generalizing p n with
  | nil => exact List.nil_prefix
  | cons s ss ih =>
    obtain ⟨q, hq, hss⟩ := Option.bind_eq_some_iff.mp h
    cases p with
    | ret b => simp [Prog.step] at hq
    | act a p =>
      cases s with
      | answer q' r => simp [Prog.step] at hq
      | act b =>
        simp only [Prog.step, Option.ite_none_right_eq_some, Option.some.injEq] at hq
        obtain ⟨rfl, rfl⟩ := hq
        rw [run_act]
        exact List.cons_prefix_cons.mpr ⟨rfl, ih hss n ho⟩
    | ask q' k =>
      cases s with
      | act b => simp [Prog.step] at hq
      | answer q'' r =>
        simp only [Prog.step, Option.ite_none_right_eq_some, Option.some.injEq] at hq
        obtain ⟨rfl, rfl⟩ := hq
        have hr : oracle n = r := ho 0 r (by simp [answers])
        rw [run_ask, hr]
        refine List.cons_prefix_cons.mpr ⟨rfl, ih hss (n + 1) ?_⟩
        intro i r' hi
        have := ho (i + 1) r' (by simpa [answers] using hi)
        rwa [← Nat.add_assoc, Nat.add_right_comm] at this

theorem steps_of_prefix_run {p : Prog α κ ρ β} {oracle : Nat → ρ} {n : Nat}
    {ss : List (Step α κ ρ)} (h : ss <+: (p.run oracle n).steps) : ∃ q, p.steps ss = some q := by
  induction ss generalizing p n with
  | nil => exact ⟨p, rfl⟩
  | cons s ss ih =>
    cases p with
    | ret b => simp at h
    | act a p =>
      obtain ⟨rfl, hss⟩ := List.cons_prefix_cons.mp h
      obtain ⟨q, hq⟩ := ih hss
      exact ⟨q, by simpa [Prog.steps, Prog.step] using hq⟩
    | ask q k =>
      obtain ⟨rfl, hss⟩ := List.cons_prefix_cons.mp h
      obtain ⟨p, hp⟩ := ih hss
      exact ⟨p, by simpa [Prog.steps, Prog.step] using hp⟩

end Steps

end VSwarm.Lib.Interaction
