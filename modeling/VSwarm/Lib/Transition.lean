import Mathlib.Data.List.Basic

namespace VSwarm.Lib.Transition

variable {σ ℓ : Type}

/-- The states reached from `init` by steps that all satisfy `ok`. -/
inductive Reaches (step : σ → ℓ → Option σ) (ok : σ → ℓ → Prop) (init : σ) : σ → Prop
  | init : Reaches step ok init init
  | step {s s' : σ} {l : ℓ} (h : Reaches step ok init s) (hok : ok s l)
      (hs : step s l = some s') : Reaches step ok init s'

section Laws

variable {step : σ → ℓ → Option σ} {ok : σ → ℓ → Prop} {init s : σ}

theorem guarded_eq_some {p : Prop} [Decidable p] {s' : σ} :
    (if p then some s else none) = some s' ↔ p ∧ s = s' := by
  rw [Option.ite_none_right_eq_some, Option.some.injEq]

theorem Reaches.invariant {I : σ → Prop} (hinit : I init)
    (hstep : ∀ s l s', I s → ok s l → step s l = some s' → I s') (h : Reaches step ok init s) :
    I s := by
  induction h with
  | init => exact hinit
  | step _ hok hs ih => exact hstep _ _ _ ih hok hs

theorem Reaches.trans {s' : σ} (h : Reaches step ok init s) (h' : Reaches step ok s s') :
    Reaches step ok init s' := by
  induction h' with
  | init => exact h
  | step _ hok hs ih => exact .step ih hok hs

theorem reaches_of_foldlM (hok : ∀ s l, ok s l) (ls : List ℓ)
    (h : ls.foldlM step init = some s) : Reaches step ok init s := by
  induction ls generalizing init with
  | nil =>
    obtain rfl := Option.some.inj h
    exact .init
  | cons l ls ih =>
    rw [List.foldlM_cons, Option.bind_eq_bind, Option.bind_eq_some_iff] at h
    obtain ⟨s', hs, htail⟩ := h
    exact Reaches.trans (.step .init (hok init l) hs) (ih htail)

end Laws

end VSwarm.Lib.Transition
