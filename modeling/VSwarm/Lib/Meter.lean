import Mathlib.Algebra.BigOperators.Intervals
import VSwarm.Lib.Reactive

/-! Meters along the trace of an event loop.  Before each event some amount is added to
the total; among the calls that follow, some set the total back and some write it
down. -/

namespace VSwarm.Lib

open Finset

structure Meter (α : Type) where
  total : α
  written : List α

namespace Meter

variable {α ε κ : Type} [AddCommMonoid α] (reset dump : κ → Bool)

def call (m : Meter α) (c : κ) : Meter α :=
  if reset c then { m with total := 0 }
  else if dump c then { m with written := m.written ++ [m.total] }
  else m

/-- The amount before the event at position `i` is `work i`. -/
def run (work : ℕ → α) : ℕ → List (ε × List κ) → Meter α → Meter α
  | _, [], m => m
  | i, a :: tr, m => run work (i + 1) tr (a.2.foldl (call reset dump)
      { m with total := m.total + work i })

section Calls

variable {reset dump} {cs : List κ} {m : Meter α}

end Calls

section Times

variable {p : κ → Bool} {e : ε} {cs : List κ} {tr : List (ε × List κ)} {start k : ℕ}

end Times

section Run

variable {reset dump} {work : ℕ → α} {tr : List (ε × List κ)} {m : Meter α} {start j k : ℕ}

end Run

end Meter

end VSwarm.Lib
