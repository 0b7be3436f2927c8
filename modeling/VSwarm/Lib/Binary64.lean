import Mathlib.Data.Rat.Lemmas
import Mathlib.Tactic.NormNum
import Mathlib.Tactic.Ring

namespace VSwarm.Lib

/-- A finite number of binary64: at most 53 bits, times a power of two from
`2 ^ (-1074)` on. -/
structure Binary64 where
  value : Rat
  negativeZero : Bool
  finite : ∃ (m : Int) (e : Nat), m.natAbs < 2 ^ 53 ∧ e ≤ 2045 ∧ value * 2 ^ 1074 = m * 2 ^ e
  zero : negativeZero = true → value = 0
  deriving DecidableEq

namespace Binary64

def trunc (x : Binary64) : Int := x.value.num.tdiv x.value.den

def Exact (n : Int) : Prop := ∃ x : Binary64, x.negativeZero = false ∧ x.value = n

theorem exact_iff (n : Int) : Exact n ↔
    ∃ e < 2046, (2 : Int) ^ e ∣ n * 2 ^ 1074 ∧ (n * 2 ^ 1074 / 2 ^ e).natAbs < 2 ^ 53 := by
  have hcast : ∀ (m : Int) (e k : Nat), (n : Rat) * 2 ^ k = m * 2 ^ e ↔ n * 2 ^ k = m * 2 ^ e := by
    intro m e k
    norm_cast
  constructor
  · rintro ⟨x, -, hx⟩
    obtain ⟨m, e, hm, he, hvalue⟩ := x.finite
    rw [hx, hcast] at hvalue
    refine ⟨e, Nat.lt_succ_of_le he, ⟨m, by rw [hvalue, mul_comm]⟩, ?_⟩
    rw [hvalue, Int.mul_ediv_cancel _ (pow_ne_zero e two_ne_zero)]
    exact hm
  · rintro ⟨e, he, hdvd, hm⟩
    refine ⟨⟨n, false, ⟨_, e, hm, Nat.le_of_lt_succ he, ?_⟩, nofun⟩, rfl, rfl⟩
    rw [hcast, Int.ediv_mul_cancel hdvd]

instance : DecidablePred Exact := fun n => decidable_of_iff _ (exact_iff n).symm

end Binary64

end VSwarm.Lib
