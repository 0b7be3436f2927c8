import Mathlib.Data.Nat.Log
import Mathlib.Order.Interval.Finset.Nat
import VSwarm.Lib.Interleave

namespace VSwarm.Systems

open VSwarm.Lib

/-- The addresses from `start` up to `stop`, which is not among them, as far as
the interleaving selects them. -/
structure AddrRange where
  start : ℕ
  stop : ℕ
  intlvHighBit : ℤ := 0
  xorHighBit : ℤ := 0
  intlvBits : ℕ := 0
  intlvMatch : ℕ := 0
  deriving DecidableEq

def AddrRange.ofSize (size : ℕ) : AddrRange where
  start := 0
  stop := size

def AddrRange.hashBit (r : AddrRange) (a j : ℕ) : Bool :=
  a.testBit (r.intlvHighBit - r.intlvBits + 1 + j).toNat ^^
    a.testBit (r.xorHighBit - r.intlvBits + 1 + j).toNat

def AddrRange.contains (r : AddrRange) (a : ℕ) : Bool :=
  decide (r.start ≤ a ∧ a < r.stop) &&
    (List.range r.intlvBits).all fun j => r.hashBit a j == r.intlvMatch.testBit j

def AddrRange.addresses (r : AddrRange) : Finset ℕ :=
  (Finset.Ico r.start r.stop).filter fun a => r.contains a

inductive Failure
  | fatal (text : String)
  | valueError
  | indexError
  | typeError
  deriving DecidableEq

def interleaveRange (rng : AddrRange) (intlvLowBit xorLowBit intlvBits i : ℕ) : AddrRange where
  start := rng.start
  stop := rng.stop
  intlvHighBit := intlvLowBit + intlvBits - 1
  xorHighBit := xorLowBit + intlvBits - 1
  intlvBits := intlvBits
  intlvMatch := i

def getInterleaveRanges (rng : AddrRange) (num intlvLowBit xorLowBit : ℕ) :
    Except Failure (List AddrRange) :=
  -- `log` raises
  if num = 0 then .error .valueError
  else if 2 ^ Nat.log 2 num ≠ num then
    .error (.fatal "Non-power of two number of memory controllers")
  else
    .ok ((List.range num).map (interleaveRange rng intlvLowBit xorLowBit (Nat.log 2 num)))

def createMemoryController (rng : AddrRange) (nDramCntrl : ℕ := 1) :
    Except Failure (List AddrRange) := do
  let ranges ← getInterleaveRanges rng nDramCntrl 7 20
  (List.range nDramCntrl).mapM fun i => (ranges[i]?).elim (.error .indexError) .ok

/-- Every address of the range belongs to exactly one part, and the parts have the
same number of addresses. -/
structure BalancedPartition (rng : AddrRange) (parts : List AddrRange) : Prop where
  inside : ∀ r ∈ parts, r.addresses ⊆ rng.addresses
  once : ∀ a ∈ rng.addresses, parts.countP (·.contains a) = 1
  balanced : ∀ r ∈ parts, ∀ r' ∈ parts, r.addresses.card = r'.addresses.card

section Ranges

variable {rng : AddrRange} {low high bits num a i : ℕ}

theorem hashBit_interleaveRange (j : ℕ) :
    (interleaveRange rng low high bits i).hashBit a j =
      (a.testBit (low + j) ^^ a.testBit (high + j)) := by
  have hlow : ((low : ℤ) + bits - 1 - bits + 1 + j).toNat = low + j := by omega
  have hhigh : ((high : ℤ) + bits - 1 - bits + 1 + j).toNat = high + j := by omega
  rw [AddrRange.hashBit, interleaveRange, hlow, hhigh]

theorem contains_interleaveRange (hi : i < 2 ^ bits) :
    (interleaveRange rng low high bits i).contains a =
      (decide (rng.start ≤ a ∧ a < rng.stop) &&
        decide (Interleave.channel low high bits a = i)) := by
  rw [AddrRange.contains]
  congr 1
  rw [Bool.eq_iff_iff, decide_eq_true_iff, Interleave.channel_eq_iff hi, List.all_eq_true]
  simp only [hashBit_interleaveRange, beq_iff_eq]
  exact forall_congr' fun j => by rw [← List.mem_range]; rfl

theorem addresses_interleaveRange (hi : i < 2 ^ bits) :
    (interleaveRange rng low high bits i).addresses =
      (Finset.Ico rng.start rng.stop).filter fun a => Interleave.channel low high bits a = i := by
  apply Finset.filter_congr
  intro a ha
  have hrange : rng.start ≤ a ∧ a < rng.stop := Finset.mem_Ico.mp ha
  rw [contains_interleaveRange hi, decide_eq_true hrange, Bool.true_and, decide_eq_true_iff]

theorem Ico_ofSize (size : ℕ) :
    Finset.Ico (AddrRange.ofSize size).start (AddrRange.ofSize size).stop = Finset.range size :=
  (Finset.range_eq_Ico size).symm

theorem addresses_ofSize (size : ℕ) : (AddrRange.ofSize size).addresses = Finset.range size := by
  rw [AddrRange.addresses, Ico_ofSize]
  apply Finset.filter_true_of_mem
  intro a ha
  simpa [AddrRange.contains, AddrRange.ofSize] using ha

theorem getInterleaveRanges_two_pow (rng : AddrRange) (k low high : ℕ) :
    getInterleaveRanges rng (2 ^ k) low high =
      .ok ((List.range (2 ^ k)).map (interleaveRange rng low high k)) := by
  rw [getInterleaveRanges, Nat.log_pow (by decide), if_neg (Nat.two_pow_pos k).ne',
    if_neg (not_not.mpr rfl)]

theorem getInterleaveRanges_fatal (hnum : 1 ≤ num) (h : ∀ k, num ≠ 2 ^ k) :
    getInterleaveRanges rng num low high =
      .error (.fatal "Non-power of two number of memory controllers") := by
  rw [getInterleaveRanges, if_neg (Nat.one_le_iff_ne_zero.mp hnum), if_pos (h _).symm]

theorem mapM_range_getElem? (ranges : List AddrRange) :
    (List.range ranges.length).mapM
        (fun i => (ranges[i]?).elim (Except.error Failure.indexError) Except.ok) =
      Except.ok ranges := by
  induction ranges with
  | nil => rfl
  | cons r ranges ih =>
    rw [List.length_cons, List.range_succ_eq_map, List.mapM_cons, List.mapM_map]
    simp only [Function.comp_def, List.getElem?_cons_succ, ih]
    rfl

theorem createMemoryController_eq (rng : AddrRange) (num : ℕ) :
    createMemoryController rng num = getInterleaveRanges rng num 7 20 := by
  rw [createMemoryController]
  cases h : getInterleaveRanges rng num 7 20 with
  | error e => rfl
  | ok ranges =>
    have hlength : ranges.length = num := by
      rw [getInterleaveRanges] at h
      split at h
      · cases h
      · split at h
        · cases h
        · obtain rfl := Except.ok.inj h
          rw [List.length_map, List.length_range]
    subst hlength
    exact mapM_range_getElem? ranges

end Ranges

section Partition

variable {low high k m : ℕ}

/-- The hash of an address is the number of the one range that has it. -/
theorem countP_contains (rng : AddrRange) (low high k : ℕ) {a : ℕ}
    (ha : rng.start ≤ a ∧ a < rng.stop) :
    ((List.range (2 ^ k)).map (interleaveRange rng low high k)).countP (·.contains a) = 1 := by
  have hchannel : ∀ i ∈ List.range (2 ^ k),
      (interleaveRange rng low high k i).contains a = (i == Interleave.channel low high k a) := by
    intro i hi
    rw [contains_interleaveRange (List.mem_range.mp hi), decide_eq_true ha, Bool.true_and,
      Bool.eq_iff_iff, decide_eq_true_iff, beq_iff_eq, eq_comm]
  have hmem : Interleave.channel low high k a ∈ List.range (2 ^ k) :=
    List.mem_range.mpr (Interleave.channel_lt low high k a)
  rw [List.countP_map]
  calc
    _ = (List.range (2 ^ k)).count (Interleave.channel low high k a) :=
      List.countP_congr fun i hi => by rw [← hchannel i hi]; rfl
    _ = 1 := List.count_eq_one_of_mem List.nodup_range hmem

theorem card_addresses (h : low < high) (hm : low + k ≤ m) {i : ℕ} (hi : i < 2 ^ k) :
    2 ^ k * (interleaveRange (.ofSize (2 ^ m)) low high k i).addresses.card = 2 ^ m := by
  rw [addresses_interleaveRange hi, Ico_ofSize]
  exact Interleave.card_channel h hm hi

theorem balancedPartition_interleaveRange (h : low < high) (hm : low + k ≤ m) :
    BalancedPartition (.ofSize (2 ^ m))
      ((List.range (2 ^ k)).map (interleaveRange (.ofSize (2 ^ m)) low high k)) where
  inside r hr := by
    obtain ⟨i, hi, rfl⟩ := List.mem_map.mp hr
    rw [addresses_interleaveRange (List.mem_range.mp hi), addresses_ofSize, Ico_ofSize]
    apply Finset.filter_subset
  once a ha := by
    rw [addresses_ofSize, Finset.mem_range] at ha
    exact countP_contains _ low high k ⟨Nat.zero_le a, ha⟩
  balanced r hr r' hr' := by
    obtain ⟨i, hi, rfl⟩ := List.mem_map.mp hr
    obtain ⟨i', hi', rfl⟩ := List.mem_map.mp hr'
    apply Nat.eq_of_mul_eq_mul_left (Nat.two_pow_pos k)
    rw [card_addresses h hm (List.mem_range.mp hi), card_addresses h hm (List.mem_range.mp hi')]

theorem getInterleaveRanges_balanced :
    (∀ k m, 7 + k ≤ m → ∃ ranges,
      getInterleaveRanges (.ofSize (2 ^ m)) (2 ^ k) 7 20 = .ok ranges ∧
        ranges.length = 2 ^ k ∧ BalancedPartition (.ofSize (2 ^ m)) ranges) ∧
      ∀ rng num, 1 ≤ num → (∀ k, num ≠ 2 ^ k) → getInterleaveRanges rng num 7 20 =
        .error (.fatal "Non-power of two number of memory controllers") := by
  constructor
  · intro k m hm
    refine ⟨_, getInterleaveRanges_two_pow _ k 7 20, ?_, ?_⟩
    · rw [List.length_map, List.length_range]
    · exact balancedPartition_interleaveRange (by decide) hm
  · intro rng num hnum h
    exact getInterleaveRanges_fatal hnum h

theorem getInterleaveRanges_balanced_four :
    (∃ ranges, getInterleaveRanges (.ofSize (2 ^ 31)) (2 ^ 2) 7 20 = .ok ranges ∧
      ranges.length = 2 ^ 2 ∧ BalancedPartition (.ofSize (2 ^ 31)) ranges) ∧
      getInterleaveRanges (.ofSize (2 ^ 31)) 3 7 20 =
        .error (.fatal "Non-power of two number of memory controllers") := by
  refine ⟨getInterleaveRanges_balanced.1 2 31 (by decide), ?_⟩
  apply getInterleaveRanges_balanced.2 (.ofSize (2 ^ 31)) 3 (by decide)
  intro k hk
  match k with
  | 0 => cases hk
  | 1 => cases hk
  | k + 2 =>
    rw [Nat.pow_add] at hk
    omega

end Partition

end VSwarm.Systems
