import Mathlib.Algebra.BigOperators.Group.Finset.Basic
import Mathlib.Data.Nat.Bitwise

namespace VSwarm.Lib.Interleave

open Finset

def channel (low high bits a : ℕ) : ℕ := (a >>> low ^^^ a >>> high) % 2 ^ bits

section Fibers

variable {f : ℕ → ℕ} {bits m i b : ℕ}

/-- A map that commutes with xor takes all of its values equally often: adding a
preimage of `i` carries the addresses of channel `0` to those of channel `i`. -/
theorem card_fiber_xor (hf : ∀ a b, f (a ^^^ b) = f a ^^^ f b) (hb : b < 2 ^ m) :
    #{a ∈ range (2 ^ m) | f a = 0} = #{a ∈ range (2 ^ m) | f a = f b} := by
  have hcancel : ∀ a, a ^^^ b ^^^ b = a := fun a => Nat.xor_xor_cancel_right a b
  apply Finset.card_nbij' (· ^^^ b) (· ^^^ b)
  · intro a ha
    rw [mem_coe, mem_filter, mem_range] at ha ⊢
    refine ⟨Nat.xor_lt_two_pow ha.1 hb, ?_⟩
    rw [hf, ha.2, Nat.zero_xor]
  · intro a ha
    rw [mem_coe, mem_filter, mem_range] at ha ⊢
    refine ⟨Nat.xor_lt_two_pow ha.1 hb, ?_⟩
    rw [hf, ha.2, Nat.xor_self]
  · exact fun a _ => hcancel a
  · exact fun a _ => hcancel a

theorem card_fiber_mul (hf : ∀ a b, f (a ^^^ b) = f a ^^^ f b) (hlt : ∀ a, f a < 2 ^ bits)
    (hsurj : ∀ i < 2 ^ bits, ∃ b < 2 ^ m, f b = i) (hi : i < 2 ^ bits) :
    2 ^ bits * #{a ∈ range (2 ^ m) | f a = i} = 2 ^ m := by
  have hzero : ∀ i < 2 ^ bits,
      #{a ∈ range (2 ^ m) | f a = 0} = #{a ∈ range (2 ^ m) | f a = i} := by
    intro i hi
    obtain ⟨b, hb, rfl⟩ := hsurj i hi
    exact card_fiber_xor hf hb
  have hmaps : Set.MapsTo f (range (2 ^ m)) (range (2 ^ bits)) := by
    intro a _
    exact mem_coe.mpr (mem_range.mpr (hlt a))
  calc
    2 ^ bits * #{a ∈ range (2 ^ m) | f a = i}
      = ∑ j ∈ range (2 ^ bits), #{a ∈ range (2 ^ m) | f a = i} := by simp
    _ = ∑ j ∈ range (2 ^ bits), #{a ∈ range (2 ^ m) | f a = j} := by
      apply sum_congr rfl
      intro j hj
      rw [← hzero i hi, hzero j (mem_range.mp hj)]
    _ = 2 ^ m := by rw [← card_eq_sum_card_fiberwise hmaps, card_range]

end Fibers

section Channel

variable {low high bits m a i : ℕ}

theorem channel_lt (low high bits a : ℕ) : channel low high bits a < 2 ^ bits :=
  Nat.mod_lt _ (Nat.two_pow_pos bits)

theorem testBit_channel (j : ℕ) : (channel low high bits a).testBit j =
    (decide (j < bits) && (a.testBit (low + j) ^^ a.testBit (high + j))) := by
  rw [channel, Nat.testBit_mod_two_pow, Nat.testBit_xor, Nat.testBit_shiftRight,
    Nat.testBit_shiftRight]

theorem channel_eq_iff (hi : i < 2 ^ bits) : channel low high bits a = i ↔
    ∀ j < bits, (a.testBit (low + j) ^^ a.testBit (high + j)) = i.testBit j := by
  constructor
  · rintro rfl j hj
    simp [testBit_channel, hj]
  · intro h
    apply Nat.eq_of_testBit_eq
    intro j
    rw [testBit_channel]
    by_cases hj : j < bits
    · simp [hj, h j hj]
    · have hpow : i < 2 ^ j := hi.trans_le (Nat.pow_le_pow_right (by decide) (Nat.not_lt.mp hj))
      simp [hj, Nat.testBit_lt_two_pow hpow]

theorem channel_xor (a b : ℕ) : channel low high bits (a ^^^ b) =
    channel low high bits a ^^^ channel low high bits b := by
  apply Nat.eq_of_testBit_eq
  intro j
  simp only [testBit_channel, Nat.testBit_xor]
  cases decide (j < bits) <;> simp [Bool.xor_left_comm]

theorem channel_shiftLeft (h : low ≤ high) {c : ℕ} (hc : c < 2 ^ bits) :
    channel low high bits (c <<< low) = c ^^^ c >>> (high - low) := by
  have hhigh : c <<< low >>> high = c >>> (high - low) := by
    rw [← Nat.add_sub_cancel' h, Nat.shiftRight_add, Nat.shiftLeft_shiftRight,
      Nat.add_sub_cancel_left]
  have hlt : c >>> (high - low) < 2 ^ bits := (Nat.shiftRight_le _ _).trans_lt hc
  rw [channel, Nat.shiftLeft_shiftRight, hhigh, Nat.mod_eq_of_lt (Nat.xor_lt_two_pow hc hlt)]

theorem eq_zero_of_shiftRight {c d : ℕ} (hd : 0 < d) (h : c >>> d = c) : c = 0 := by
  by_contra hc
  have hlt : c / 2 ^ d < c := Nat.div_lt_self (Nat.pos_of_ne_zero hc) (Nat.one_lt_two_pow hd.ne')
  rw [Nat.shiftRight_eq_div_pow] at h
  exact hlt.ne h

theorem exists_channel_eq (h : low < high) (hi : i < 2 ^ bits) :
    ∃ b < 2 ^ (low + bits), channel low high bits b = i := by
  have hmaps : Set.MapsTo (fun c => channel low high bits (c <<< low))
      (range (2 ^ bits)) (range (2 ^ bits)) := by
    intro c _
    exact mem_coe.mpr (mem_range.mpr (channel_lt low high bits _))
  have hinj : Set.InjOn (fun c => channel low high bits (c <<< low)) (range (2 ^ bits)) := by
    intro c hc d hd heq
    have hlt := Nat.xor_lt_two_pow (mem_range.mp hc) (mem_range.mp hd)
    have hzero : channel low high bits ((c ^^^ d) <<< low) = 0 := by
      rw [Nat.shiftLeft_xor_distrib, channel_xor, Nat.xor_eq_zero_iff]
      exact heq
    rw [channel_shiftLeft h.le hlt, Nat.xor_eq_zero_iff] at hzero
    exact Nat.eq_of_xor_eq_zero (eq_zero_of_shiftRight (Nat.sub_pos_of_lt h) hzero.symm)
  obtain ⟨c, hc, hchannel⟩ :=
    surjOn_of_injOn_of_card_le _ hmaps hinj le_rfl (mem_coe.mpr (mem_range.mpr hi))
  refine ⟨c <<< low, ?_, hchannel⟩
  rw [Nat.shiftLeft_eq, Nat.add_comm, Nat.pow_add]
  exact Nat.mul_lt_mul_of_pos_right (mem_range.mp hc) (Nat.two_pow_pos low)

theorem card_channel (h : low < high) (hm : low + bits ≤ m) (hi : i < 2 ^ bits) :
    2 ^ bits * #{a ∈ range (2 ^ m) | channel low high bits a = i} = 2 ^ m := by
  apply card_fiber_mul channel_xor (channel_lt low high bits) ?_ hi
  intro i hi
  obtain ⟨b, hb, hchannel⟩ := exists_channel_eq h hi
  exact ⟨b, hb.trans_le (Nat.pow_le_pow_right (by decide) hm), hchannel⟩

end Channel

end VSwarm.Lib.Interleave
