import VSwarm.Defs.Client.M5Ops
import VSwarm.Defs.Systems.AddressMap

namespace VSwarm.Systems

open VSwarm.Lib VSwarm.M5Ops

/-- `m5ops_base` of the three systems, and the address that the client for amd64 is
built with. -/
def m5opsBase : ℕ := 0xffff0000

def createMemoryControllers (rng : AddrRange) : List AddrRange := [rng]

/-- No address has two ports, all of the memory is behind the controllers, and the
window of the magic instructions is hidden from both. -/
structure Routed (m : AddressMap) (ranges : List AddrRange) (s : ℕ) : Prop where
  once : ∀ a, (ranges ++ m.bridge).countP (·.contains a) ≤ 1
  memory : ∀ a, ranges.countP (·.contains a) = if a < s then 1 else 0
  available : ∀ e ∈ m.e820, e.rangeType = 1 → ∀ a : ℕ, (a : ℤ) ∈ e.region.addresses →
    ranges.countP (·.contains a) = 1
  window : ∀ a o, decode m5opsBase a = some o →
    (ranges ++ m.bridge).countP (·.contains a) = 0 ∧
      ∃ e ∈ m.e820, e.rangeType = 2 ∧ (a : ℤ) ∈ e.region.addresses

section Ports

theorem contains_plain (start stop a : ℕ) :
    AddrRange.contains { start := start, stop := stop } a = decide (start ≤ a ∧ a < stop) := by
  simp [AddrRange.contains]

theorem countP_bridgeRanges (a : ℕ) :
    bridgeRanges.countP (·.contains a) =
      if (0xC0000000 ≤ a ∧ a < 0xFFFF0000) ∨ (2 ^ 63 ≤ a ∧ a < 0xa000000000000000 - 1) ∨
        (0xc000000000000000 ≤ a ∧ a < 2 ^ 64 - 1) then 1 else 0 := by
  simp only [bridgeRanges, List.countP_cons, List.countP_nil, contains_plain, decide_eq_true_eq,
    ioAddressSpaceBase, interruptsAddressSpaceBase, pciConfigAddressSpaceBase, addrMax]
  split_ifs <;> omega

theorem countP_controllers (s k a : ℕ) :
    ((List.range (2 ^ k)).map (interleaveRange (.ofSize s) 7 20 k)).countP (·.contains a) =
      if a < s then 1 else 0 := by
  by_cases ha : a < s
  · rw [if_pos ha]
    exact countP_contains (.ofSize s) 7 20 k ⟨Nat.zero_le a, ha⟩
  · rw [if_neg ha, List.countP_eq_zero]
    intro r hr
    obtain ⟨i, hi, rfl⟩ := List.mem_map.mp hr
    rw [contains_interleaveRange (List.mem_range.mp hi)]
    simp [AddrRange.ofSize, ha]

theorem decode_bounds {base a : ℕ} {o : PseudoOp} (h : decode base a = some o) :
    base ≤ a ∧ a < base + 0x10000 := by
  rw [decode] at h
  split at h
  · rename_i hwindow
    exact hwindow
  · cases h

theorem routed_singleMap {ranges : List AddrRange} {s : ℕ} (hlow : 0x100000 ≤ s)
    (hhigh : s ≤ 0xC0000000)
    (hranges : ∀ a, ranges.countP (·.contains a) = if a < s then 1 else 0) :
    Routed (singleMap (.ofSize s)) ranges s := by
  have hsize := size_ofSize s
  have hmap := @consistent_singleMap (.ofSize s) (by omega) (by omega)
  have hbridge : (singleMap (.ofSize s)).bridge = bridgeRanges := rfl
  refine ⟨?_, hranges, ?_, ?_⟩
  · intro a
    rw [List.countP_append, hranges, hbridge, countP_bridgeRanges]
    split_ifs <;> omega
  · intro e he htype a ha
    have hlt := hmap.available e he htype a ha
    rw [hranges, if_pos (by omega)]
  · intro a o ho
    have hbounds := decode_bounds ho
    rw [m5opsBase] at hbounds
    constructor
    · rw [List.countP_append, hranges, hbridge, countP_bridgeRanges]
      split_ifs <;> omega
    · refine ⟨m5opEntry, by simp [singleMap], rfl, ?_⟩
      rw [region_m5opEntry]
      show (0xFFFF0000 : ℤ) ≤ a ∧ (a : ℤ) < 2 ^ 32
      omega

theorem initFS_routed (s : ℕ) (hlow : 0x100000 ≤ s) (hhigh : s ≤ 0xC0000000) :
    (∀ k, ∃ m ranges, Skylake.initFS [.ofSize s] = .ok m ∧
      createMemoryController (.ofSize s) (2 ^ k) = .ok ranges ∧ Routed m ranges s) ∧
    (∃ m, Simple.initFS [.ofSize s] = .ok m ∧
      Routed m (createMemoryControllers (.ofSize s)) s) ∧
    ∃ m, Drive.initFS [.ofSize s] = .ok m ∧
      Routed m (createMemoryControllers (.ofSize s)) s := by
  have hplain : Routed (singleMap (.ofSize s)) (createMemoryControllers (.ofSize s)) s := by
    apply routed_singleMap hlow hhigh
    intro a
    rw [createMemoryControllers, List.countP_singleton, AddrRange.ofSize, contains_plain]
    simp
  have hmake := @make_singleMap (.ofSize s) (by rw [size_ofSize]; omega) (by rw [size_ofSize]; omega)
  refine ⟨?_, ⟨_, hmake, hplain⟩, _, hmake, hplain⟩
  intro k
  refine ⟨_, _, hmake, ?_, routed_singleMap hlow hhigh (countP_controllers s k)⟩
  rw [createMemoryController_eq, getInterleaveRanges_two_pow]

theorem initFS_routed_two_gigabytes :
    (∀ k, ∃ m ranges, Skylake.initFS [.ofSize 0x80000000] = .ok m ∧
      createMemoryController (.ofSize 0x80000000) (2 ^ k) = .ok ranges ∧
        Routed m ranges 0x80000000) ∧
    (∃ m, Simple.initFS [.ofSize 0x80000000] = .ok m ∧
      Routed m (createMemoryControllers (.ofSize 0x80000000)) 0x80000000) ∧
    ∃ m, Drive.initFS [.ofSize 0x80000000] = .ok m ∧
      Routed m (createMemoryControllers (.ofSize 0x80000000)) 0x80000000 :=
  initFS_routed 0x80000000 (by decide) (by decide)

end Ports

end VSwarm.Systems
