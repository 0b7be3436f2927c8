import Mathlib.Algebra.Order.Group.Multiset
import Mathlib.Tactic.Abel
import VSwarm.Lib.Wiring

namespace VSwarm.Systems

open VSwarm.Lib

inductive Xbar
  | membus
  | iobus
  | llcBus
  | l3bus
  | llcbus
  | l2bus (cpu : ℕ)
  | mmubus (cpu : ℕ)
  deriving DecidableEq

inductive CacheName
  | iocache
  | llcCache
  | l3cache
  | llc
  | icache (cpu : ℕ)
  | dcache (cpu : ℕ)
  | mmucache (cpu : ℕ)
  | l2cache (cpu : ℕ)
  deriving DecidableEq

inductive Requestor
  | systemPort
  | default
  | icachePort (cpu : ℕ)
  | dcachePort (cpu : ℕ)
  | itbWalker (cpu : ℕ)
  | dtbWalker (cpu : ℕ)
  | intRequestor (cpu : ℕ)
  | memSide (c : CacheName)
  | memSidePorts (x : Xbar)
  | bridgeMemSide
  | apicbridgeMemSide
  | ethernetDma
  deriving DecidableEq

inductive Responder
  | badaddrPio
  | cpuSide (c : CacheName)
  | cpuSidePorts (x : Xbar)
  | bridgeCpuSide
  | apicbridgeCpuSide
  | ethernetPio
  | pio (cpu : ℕ)
  | intResponder (cpu : ℕ)
  | memCntrl
  deriving DecidableEq

abbrev Link := Requestor × Responder

def Requestor.scalar : Requestor → Bool
  | .memSidePorts _ => false
  | _ => true

def Responder.scalar : Responder → Bool
  | .cpuSidePorts _ => false
  | _ => true

/-- What becomes of a request; on the two system buses that depends on its address. -/
def Responder.through : Responder → Option Requestor
  | .cpuSide c => some (.memSide c)
  | .cpuSidePorts .membus => none
  | .cpuSidePorts .iobus => none
  | .cpuSidePorts x => some (.memSidePorts x)
  | .bridgeCpuSide => some .bridgeMemSide
  | .apicbridgeCpuSide => some .apicbridgeMemSide
  | _ => none

section Connections

def cpus (n : ℕ) : List ℕ := List.range n

def membusLinks : List Link :=
  [(.default, .badaddrPio), (.systemPort, .cpuSidePorts .membus)]

def initFSLinks : List Link :=
  [(.bridgeMemSide, .cpuSidePorts .iobus), (.memSidePorts .membus, .bridgeCpuSide),
    (.memSidePorts .iobus, .apicbridgeCpuSide), (.apicbridgeMemSide, .cpuSidePorts .membus),
    (.memSidePorts .iobus, .cpuSide .iocache), (.memSide .iocache, .cpuSidePorts .membus)]

def ethernetLinks : List Link :=
  [(.memSidePorts .iobus, .ethernetPio), (.ethernetDma, .cpuSidePorts .iobus)]

def L1ICache.connectCPU (cpu : ℕ) : List Link := [(.icachePort cpu, .cpuSide (.icache cpu))]

def L1DCache.connectCPU (cpu : ℕ) : List Link := [(.dcachePort cpu, .cpuSide (.dcache cpu))]

def MMUCache.connectCPU (cpu : ℕ) : List Link :=
  [(.memSidePorts (.mmubus cpu), .cpuSide (.mmucache cpu)),
    (.itbWalker cpu, .cpuSidePorts (.mmubus cpu)), (.dtbWalker cpu, .cpuSidePorts (.mmubus cpu))]

def connectBus (c : CacheName) (bus : Xbar) : List Link := [(.memSide c, .cpuSidePorts bus)]

def connectCPUSideBus (c : CacheName) (bus : Xbar) : List Link := [(.memSidePorts bus, .cpuSide c)]

def connectMemSideBus (c : CacheName) (bus : Xbar) : List Link := [(.memSide c, .cpuSidePorts bus)]

def llcLinks : List Link :=
  [(.memSide .llcCache, .cpuSidePorts .membus), (.memSidePorts .llcBus, .cpuSide .llcCache)]

def directLinks (cpu : ℕ) : List Link :=
  [(.icachePort cpu, .cpuSidePorts .llcBus), (.dcachePort cpu, .cpuSidePorts .llcBus),
    (.itbWalker cpu, .cpuSidePorts .llcBus), (.dtbWalker cpu, .cpuSidePorts .llcBus)]

def connectCPUDirectly (n : ℕ) : List Link := llcLinks ++ (cpus n).flatMap directLinks

def interruptLinks (cpu : ℕ) : List Link :=
  [(.memSidePorts .membus, .pio cpu), (.intRequestor cpu, .cpuSidePorts .membus),
    (.memSidePorts .membus, .intResponder cpu)]

def setupInterrupts (n : ℕ) : List Link := (cpus n).flatMap interruptLinks

def memCntrlLinks : List Link := [(.memSidePorts .membus, .memCntrl)]

end Connections

namespace Skylake

def coreLinks (cpu : ℕ) : List Link :=
  L1ICache.connectCPU cpu ++ L1DCache.connectCPU cpu ++ MMUCache.connectCPU cpu ++
    connectBus (.icache cpu) (.l2bus cpu) ++ connectBus (.dcache cpu) (.l2bus cpu) ++
    connectBus (.mmucache cpu) (.l2bus cpu) ++ connectCPUSideBus (.l2cache cpu) (.l2bus cpu) ++
    connectMemSideBus (.l2cache cpu) .l3bus

def createCacheHierarchy (n : ℕ) : List Link :=
  (cpus n).flatMap coreLinks ++ connectCPUSideBus .l3cache .l3bus ++
    connectMemSideBus .l3cache .membus

/-- `_caches`, in the order in which `flushCaches` goes through it. -/
def caches (kvm : Bool) (n : ℕ) : List CacheName :=
  if kvm then [.llcCache]
  else ((cpus n).flatMap fun cpu => [.icache cpu, .dcache cpu, .mmucache cpu, .l2cache cpu]) ++
    [.l3cache]

def init (kvm : Bool) (n : ℕ) : List Link :=
  membusLinks ++ (initFSLinks ++ ethernetLinks) ++
    (if kvm then connectCPUDirectly n else createCacheHierarchy n) ++
    setupInterrupts n ++ memCntrlLinks

end Skylake

namespace Simple

def coreLinks (cpu : ℕ) : List Link :=
  L1ICache.connectCPU cpu ++ L1DCache.connectCPU cpu ++ connectBus (.icache cpu) .llcbus ++
    connectBus (.dcache cpu) .llcbus ++
    [(.itbWalker cpu, .cpuSidePorts .membus), (.dtbWalker cpu, .cpuSidePorts .membus)]

def createCacheHierarchy (n : ℕ) : List Link :=
  connectCPUSideBus .llc .llcbus ++ connectMemSideBus .llc .membus ++ (cpus n).flatMap coreLinks

def init (kvm : Bool) (n : ℕ) : List Link :=
  membusLinks ++ initFSLinks ++
    (if kvm then connectCPUDirectly n else createCacheHierarchy n) ++
    setupInterrupts n ++ memCntrlLinks

end Simple

namespace Drive

def init : List Link :=
  membusLinks ++ (initFSLinks ++ ethernetLinks) ++ connectCPUDirectly 1 ++ setupInterrupts 1 ++
    memCntrlLinks

end Drive

section Paths

def corePorts (cpu : ℕ) : List Requestor :=
  [.icachePort cpu, .dcachePort cpu, .itbWalker cpu, .dtbWalker cpu]

def Responder.cache? : Responder → Option CacheName
  | .cpuSide c => some c
  | _ => none

/-- No port is connected twice, every core has its interrupts, and the requests of
every core go through the caches in `levels` to the memory bus. -/
structure Wired (links : List Link) (n : ℕ) (levels : Requestor → List CacheName) : Prop where
  connected : links.foldlM (Wiring.connect Requestor.scalar Responder.scalar) [] = some links
  interrupts : ∀ cpu < n, (.intRequestor cpu, .cpuSidePorts .membus) ∈ links ∧
    (.memSidePorts .membus, .pio cpu) ∈ links ∧ (.memSidePorts .membus, .intResponder cpu) ∈ links
  cores : ∀ cpu < n, ∀ p ∈ corePorts cpu, ∀ fuel, 7 ≤ fuel →
    (Wiring.trail links Responder.through fuel p).getLast? = some (.cpuSidePorts .membus) ∧
      (Wiring.trail links Responder.through fuel p).filterMap Responder.cache? = levels p

def directLevels (_ : Requestor) : List CacheName := [.llcCache]

def Skylake.hierarchyLevels : Requestor → List CacheName
  | .icachePort cpu => [.icache cpu, .l2cache cpu, .l3cache]
  | .dcachePort cpu => [.dcache cpu, .l2cache cpu, .l3cache]
  | .itbWalker cpu => [.mmucache cpu, .l2cache cpu, .l3cache]
  | .dtbWalker cpu => [.mmucache cpu, .l2cache cpu, .l3cache]
  | _ => []

def Skylake.levels (kvm : Bool) : Requestor → List CacheName :=
  if kvm then directLevels else Skylake.hierarchyLevels

def Simple.hierarchyLevels : Requestor → List CacheName
  | .icachePort cpu => [.icache cpu, .llc]
  | .dcachePort cpu => [.dcache cpu, .llc]
  | _ => []

def Simple.levels (kvm : Bool) : Requestor → List CacheName :=
  if kvm then directLevels else Simple.hierarchyLevels

/-- `flushCaches` goes through all the caches between the cores and the memory bus,
each of them once and before those behind it. -/
structure Flushed (caches : List CacheName) (n : ℕ) (levels : Requestor → List CacheName) :
    Prop where
  once : caches.Nodup
  order : ∀ cpu < n, ∀ p ∈ corePorts cpu, (levels p).Sublist caches
  used : 0 < n → ∀ c ∈ caches, ∃ cpu < n, ∃ p ∈ corePorts cpu, c ∈ levels p

end Paths

section Owners

def Xbar.owner : Xbar → Option ℕ
  | .l2bus cpu => some cpu
  | .mmubus cpu => some cpu
  | _ => none

def CacheName.owner : CacheName → Option ℕ
  | .icache cpu => some cpu
  | .dcache cpu => some cpu
  | .mmucache cpu => some cpu
  | .l2cache cpu => some cpu
  | _ => none

def Requestor.owner : Requestor → Option ℕ
  | .icachePort cpu => some cpu
  | .dcachePort cpu => some cpu
  | .itbWalker cpu => some cpu
  | .dtbWalker cpu => some cpu
  | .intRequestor cpu => some cpu
  | .memSide c => c.owner
  | .memSidePorts x => x.owner
  | _ => none

def Responder.owner : Responder → Option ℕ
  | .cpuSide c => c.owner
  | .pio cpu => some cpu
  | .intResponder cpu => some cpu
  | _ => none

def Requestor.single : Requestor → Bool
  | .memSidePorts .membus => false
  | .memSidePorts .iobus => false
  | _ => true

structure Parts (links : List Link) (n : ℕ) where
  fixed : List Link
  core : ℕ → List Link
  perm : links.Perm (fixed ++ (List.range n).flatMap core)
  fixed_requestors : ((fixed.map Prod.fst).filter Requestor.single).Nodup
  fixed_responders : ((fixed.map Prod.snd).filter Responder.scalar).Nodup
  core_requestors : ∀ cpu, (((core cpu).map Prod.fst).filter Requestor.single).Nodup
  core_responders : ∀ cpu, (((core cpu).map Prod.snd).filter Responder.scalar).Nodup
  fixed_owner : ∀ p ∈ (fixed.map Prod.fst).filter Requestor.single, p.owner = none
  fixed_owner' : ∀ p ∈ (fixed.map Prod.snd).filter Responder.scalar, p.owner = none
  core_owner : ∀ cpu, ∀ p ∈ ((core cpu).map Prod.fst).filter Requestor.single, p.owner = some cpu
  core_owner' : ∀ cpu, ∀ p ∈ ((core cpu).map Prod.snd).filter Responder.scalar, p.owner = some cpu

variable {links : List Link} {n : ℕ}

theorem Parts.nodup_requestors (parts : Parts links n) :
    ((links.map Prod.fst).filter Requestor.single).Nodup :=
  Wiring.nodup_ports Prod.fst Requestor.single parts.fixed_requestors parts.core_requestors
    parts.fixed_owner parts.core_owner parts.perm

theorem Parts.nodup_responders (parts : Parts links n) :
    ((links.map Prod.snd).filter Responder.scalar).Nodup :=
  Wiring.nodup_ports Prod.snd Responder.scalar parts.fixed_responders parts.core_responders
    parts.fixed_owner' parts.core_owner' parts.perm

theorem Parts.connected (parts : Parts links n) :
    links.foldlM (Wiring.connect Requestor.scalar Responder.scalar) [] = some links := by
  have hscalar : (links.map Prod.fst).filter Requestor.scalar =
      ((links.map Prod.fst).filter Requestor.single).filter Requestor.scalar := by
    rw [List.filter_filter]
    refine List.filter_congr fun p _ => ?_
    cases p with
    | memSidePorts x => cases x <;> rfl
    | _ => rfl
  apply Wiring.foldlM_connect
  · rw [List.nil_append, hscalar]
    exact parts.nodup_requestors.filter _
  · exact parts.nodup_responders

theorem Parts.target (parts : Parts links n) {p : Requestor} {q : Responder}
    (hp : p.single = true) (h : (p, q) ∈ links) : Wiring.target links p = some q :=
  Wiring.target_of_mem parts.nodup_requestors hp h

theorem Parts.mem_fixed (parts : Parts links n) {l : Link} (h : l ∈ parts.fixed) : l ∈ links :=
  parts.perm.mem_iff.mpr (List.mem_append_left _ h)

theorem Parts.mem_core (parts : Parts links n) {cpu : ℕ} (hcpu : cpu < n) {l : Link}
    (h : l ∈ parts.core cpu) : l ∈ links :=
  parts.perm.mem_iff.mpr
    (List.mem_append_right _ (List.mem_flatMap.mpr ⟨cpu, List.mem_range.mpr hcpu, h⟩))

theorem Parts.trail_step (parts : Parts links n) {p p' : Requestor} {q : Responder}
    (h : (p, q) ∈ links) (hp : p.single = true) (hq : q.through = some p') (fuel : ℕ) :
    Wiring.trail links Responder.through (fuel + 1) p =
      q :: Wiring.trail links Responder.through fuel p' := by
  rw [Wiring.trail_cons (parts.target hp h), hq]

theorem Parts.trail_end (parts : Parts links n) {p : Requestor} {q : Responder}
    (h : (p, q) ∈ links) (hp : p.single = true) (hq : q.through = none) (fuel : ℕ) :
    Wiring.trail links Responder.through (fuel + 1) p = [q] := by
  rw [Wiring.trail_cons (parts.target hp h), hq]

theorem perm_init (pre fixed post : List Link) {mid : List Link} {core : ℕ → List Link}
    (h : mid.Perm (fixed ++ (cpus n).flatMap core)) :
    (pre ++ mid ++ setupInterrupts n ++ post).Perm
      ((pre ++ fixed ++ post) ++
        (List.range n).flatMap fun cpu => core cpu ++ interruptLinks cpu) := by
  have hcores := List.flatMap_append_perm (cpus n) core interruptLinks
  rw [← Multiset.coe_eq_coe] at h hcores ⊢
  simp only [← Multiset.coe_add, setupInterrupts, cpus] at h hcores ⊢
  rw [h, ← hcores]
  abel

def directParts (pre : List Link) (hpre : pre = membusLinks ++ (initFSLinks ++ ethernetLinks) ∨
    pre = membusLinks ++ initFSLinks) (n : ℕ) :
    Parts (pre ++ connectCPUDirectly n ++ setupInterrupts n ++ memCntrlLinks) n where
  fixed := pre ++ llcLinks ++ memCntrlLinks
  core cpu := directLinks cpu ++ interruptLinks cpu
  perm := perm_init pre llcLinks memCntrlLinks (List.Perm.refl _)
  fixed_requestors := by rcases hpre with rfl | rfl <;> decide
  fixed_responders := by rcases hpre with rfl | rfl <;> decide
  core_requestors cpu := by simp [directLinks, interruptLinks, Requestor.single, List.filter_cons]
  core_responders cpu := by simp [directLinks, interruptLinks, Responder.scalar, List.filter_cons]
  fixed_owner := by rcases hpre with rfl | rfl <;> decide
  fixed_owner' := by rcases hpre with rfl | rfl <;> decide
  core_owner cpu := by simp [directLinks, interruptLinks, Requestor.single, Requestor.owner]
  core_owner' cpu := by simp [directLinks, interruptLinks, Responder.scalar, Responder.owner]

def Skylake.hierarchyParts (n : ℕ) : Parts (Skylake.init false n) n where
  fixed := membusLinks ++ (initFSLinks ++ ethernetLinks) ++
    (connectCPUSideBus .l3cache .l3bus ++ connectMemSideBus .l3cache .membus) ++ memCntrlLinks
  core cpu := Skylake.coreLinks cpu ++ interruptLinks cpu
  perm := by
    apply perm_init
    rw [if_neg Bool.false_ne_true, Skylake.createCacheHierarchy, List.append_assoc]
    exact List.perm_append_comm
  fixed_requestors := by decide
  fixed_responders := by decide
  core_requestors cpu := by
    simp [coreLinks, L1ICache.connectCPU, L1DCache.connectCPU, MMUCache.connectCPU, connectBus,
      connectCPUSideBus, connectMemSideBus, interruptLinks, Requestor.single, List.filter_cons]
  core_responders cpu := by
    simp [coreLinks, L1ICache.connectCPU, L1DCache.connectCPU, MMUCache.connectCPU, connectBus,
      connectCPUSideBus, connectMemSideBus, interruptLinks, Responder.scalar, List.filter_cons]
  fixed_owner := by decide
  fixed_owner' := by decide
  core_owner cpu := by
    simp [coreLinks, L1ICache.connectCPU, L1DCache.connectCPU, MMUCache.connectCPU, connectBus,
      connectCPUSideBus, connectMemSideBus, interruptLinks, Requestor.single, Requestor.owner,
      CacheName.owner, Xbar.owner]
  core_owner' cpu := by
    simp [coreLinks, L1ICache.connectCPU, L1DCache.connectCPU, MMUCache.connectCPU, connectBus,
      connectCPUSideBus, connectMemSideBus, interruptLinks, Responder.scalar, Responder.owner,
      CacheName.owner]

def Simple.hierarchyParts (n : ℕ) : Parts (Simple.init false n) n where
  fixed := membusLinks ++ initFSLinks ++
    (connectCPUSideBus .llc .llcbus ++ connectMemSideBus .llc .membus) ++ memCntrlLinks
  core cpu := Simple.coreLinks cpu ++ interruptLinks cpu
  perm := by
    apply perm_init
    rw [if_neg Bool.false_ne_true]
    exact List.Perm.refl _
  fixed_requestors := by decide
  fixed_responders := by decide
  core_requestors cpu := by
    simp [coreLinks, L1ICache.connectCPU, L1DCache.connectCPU, connectBus, interruptLinks,
      Requestor.single, List.filter_cons]
  core_responders cpu := by
    simp [coreLinks, L1ICache.connectCPU, L1DCache.connectCPU, connectBus, interruptLinks,
      Responder.scalar, List.filter_cons]
  fixed_owner := by decide
  fixed_owner' := by decide
  core_owner cpu := by
    simp [coreLinks, L1ICache.connectCPU, L1DCache.connectCPU, connectBus, interruptLinks,
      Requestor.single, Requestor.owner, CacheName.owner]
  core_owner' cpu := by
    simp [coreLinks, L1ICache.connectCPU, L1DCache.connectCPU, connectBus, interruptLinks,
      Responder.scalar, Responder.owner, CacheName.owner]

end Owners

section Trails

variable {links : List Link} {n cpu : ℕ}

theorem Parts.wired (parts : Parts links n) {levels : Requestor → List CacheName}
    (hinterrupts : ∀ cpu, interruptLinks cpu ⊆ parts.core cpu)
    (hcores : ∀ cpu < n, ∀ p ∈ corePorts cpu, ∃ trail, ∀ fuel,
      Wiring.trail links Responder.through (fuel + 7) p = trail ∧
        trail.getLast? = some (.cpuSidePorts .membus) ∧
        trail.filterMap Responder.cache? = levels p) :
    Wired links n levels := by
  refine ⟨parts.connected, ?_, ?_⟩
  · intro cpu hcpu
    have hmem : ∀ l ∈ interruptLinks cpu, l ∈ links :=
      fun l hl => parts.mem_core hcpu (hinterrupts cpu hl)
    exact ⟨hmem _ (by simp [interruptLinks]), hmem _ (by simp [interruptLinks]),
      hmem _ (by simp [interruptLinks])⟩
  · intro cpu hcpu p hp fuel hfuel
    obtain ⟨k, rfl⟩ := Nat.exists_eq_add_of_le' hfuel
    obtain ⟨trail, htrail⟩ := hcores cpu hcpu p hp
    obtain ⟨heq, hlast, hcaches⟩ := htrail k
    rw [heq]
    exact ⟨hlast, hcaches⟩

theorem direct_wired (pre : List Link)
    (hpre : pre = membusLinks ++ (initFSLinks ++ ethernetLinks) ∨
      pre = membusLinks ++ initFSLinks) (n : ℕ) :
    Wired (pre ++ connectCPUDirectly n ++ setupInterrupts n ++ memCntrlLinks) n directLevels := by
  apply (directParts pre hpre n).wired
  · exact fun cpu => List.subset_append_right _ _
  · intro cpu hcpu p hp
    have hcore : (p, .cpuSidePorts .llcBus) ∈ (directParts pre hpre n).core cpu := by
      apply List.mem_append_left
      simpa [corePorts, directLinks] using hp
    have hsingle : p.single = true := by
      simp only [corePorts, List.mem_cons, List.not_mem_nil, or_false] at hp
      rcases hp with rfl | rfl | rfl | rfl <;> rfl
    have hfixed : ∀ l ∈ llcLinks,
        l ∈ pre ++ connectCPUDirectly n ++ setupInterrupts n ++ memCntrlLinks := by
      intro l hl
      exact (directParts pre hpre n).mem_fixed (List.mem_append_left _ (List.mem_append_right _ hl))
    refine ⟨[.cpuSidePorts .llcBus, .cpuSide .llcCache, .cpuSidePorts .membus], fun fuel => ?_⟩
    rw [(directParts pre hpre n).trail_step ((directParts pre hpre n).mem_core hcpu hcore) hsingle
        rfl,
      (directParts pre hpre n).trail_step
        (hfixed (.memSidePorts .llcBus, .cpuSide .llcCache) (by simp [llcLinks])) rfl rfl,
      (directParts pre hpre n).trail_end
        (hfixed (.memSide .llcCache, .cpuSidePorts .membus) (by simp [llcLinks])) rfl rfl]
    exact ⟨rfl, rfl, rfl⟩

def Skylake.shared (cpu : ℕ) : List Responder :=
  [.cpuSidePorts (.l2bus cpu), .cpuSide (.l2cache cpu), .cpuSidePorts .l3bus, .cpuSide .l3cache,
    .cpuSidePorts .membus]

theorem Skylake.trail_memSide {c : CacheName} (hcpu : cpu < n)
    (hc : (.memSide c, .cpuSidePorts (.l2bus cpu)) ∈ Skylake.coreLinks cpu) (fuel : ℕ) :
    Wiring.trail (Skylake.init false n) Responder.through (fuel + 5) (.memSide c) =
      Skylake.shared cpu := by
  have hcore : ∀ l ∈ Skylake.coreLinks cpu, l ∈ Skylake.init false n :=
    fun l hl => (Skylake.hierarchyParts n).mem_core hcpu (List.mem_append_left _ hl)
  have hfixed : ∀ l ∈ connectCPUSideBus .l3cache .l3bus ++ connectMemSideBus .l3cache .membus,
      l ∈ Skylake.init false n := by
    intro l hl
    exact (Skylake.hierarchyParts n).mem_fixed (List.mem_append_left _ (List.mem_append_right _ hl))
  rw [(Skylake.hierarchyParts n).trail_step (hcore _ hc) rfl rfl,
    (Skylake.hierarchyParts n).trail_step
      (hcore (.memSidePorts (.l2bus cpu), .cpuSide (.l2cache cpu))
        (by simp [coreLinks, connectCPUSideBus])) rfl rfl,
    (Skylake.hierarchyParts n).trail_step
      (hcore (.memSide (.l2cache cpu), .cpuSidePorts .l3bus)
        (by simp [coreLinks, connectMemSideBus])) rfl rfl,
    (Skylake.hierarchyParts n).trail_step
      (hfixed (.memSidePorts .l3bus, .cpuSide .l3cache) (by simp [connectCPUSideBus])) rfl rfl,
    (Skylake.hierarchyParts n).trail_end
      (hfixed (.memSide .l3cache, .cpuSidePorts .membus) (by simp [connectMemSideBus])) rfl rfl]
  rfl

theorem Skylake.hierarchy_wired (n : ℕ) :
    Wired (Skylake.init false n) n Skylake.hierarchyLevels := by
  apply (Skylake.hierarchyParts n).wired
  · exact fun cpu => List.subset_append_right _ _
  · intro cpu hcpu p hp
    have hcore : ∀ l ∈ Skylake.coreLinks cpu, l ∈ Skylake.init false n :=
      fun l hl => (Skylake.hierarchyParts n).mem_core hcpu (List.mem_append_left _ hl)
    have hmmu : (.memSidePorts (.mmubus cpu), .cpuSide (.mmucache cpu)) ∈
        Skylake.coreLinks cpu := by
      simp [coreLinks, MMUCache.connectCPU]
    simp only [corePorts, List.mem_cons, List.not_mem_nil, or_false] at hp
    rcases hp with rfl | rfl | rfl | rfl
    · refine ⟨.cpuSide (.icache cpu) :: Skylake.shared cpu, fun fuel => ?_⟩
      rw [(Skylake.hierarchyParts n).trail_step (hcore (.icachePort cpu, .cpuSide (.icache cpu))
          (by simp [coreLinks, L1ICache.connectCPU])) rfl rfl,
        Skylake.trail_memSide hcpu (by simp [coreLinks, connectBus])]
      exact ⟨rfl, rfl, rfl⟩
    · refine ⟨.cpuSide (.dcache cpu) :: Skylake.shared cpu, fun fuel => ?_⟩
      rw [(Skylake.hierarchyParts n).trail_step (hcore (.dcachePort cpu, .cpuSide (.dcache cpu))
          (by simp [coreLinks, L1DCache.connectCPU])) rfl rfl,
        Skylake.trail_memSide hcpu (by simp [coreLinks, connectBus])]
      exact ⟨rfl, rfl, rfl⟩
    · refine ⟨.cpuSidePorts (.mmubus cpu) :: .cpuSide (.mmucache cpu) :: Skylake.shared cpu,
        fun fuel => ?_⟩
      rw [(Skylake.hierarchyParts n).trail_step (hcore (.itbWalker cpu, .cpuSidePorts (.mmubus cpu))
          (by simp [coreLinks, MMUCache.connectCPU])) rfl rfl,
        (Skylake.hierarchyParts n).trail_step (hcore _ hmmu) rfl rfl,
        Skylake.trail_memSide hcpu (by simp [coreLinks, connectBus])]
      exact ⟨rfl, rfl, rfl⟩
    · refine ⟨.cpuSidePorts (.mmubus cpu) :: .cpuSide (.mmucache cpu) :: Skylake.shared cpu,
        fun fuel => ?_⟩
      rw [(Skylake.hierarchyParts n).trail_step (hcore (.dtbWalker cpu, .cpuSidePorts (.mmubus cpu))
          (by simp [coreLinks, MMUCache.connectCPU])) rfl rfl,
        (Skylake.hierarchyParts n).trail_step (hcore _ hmmu) rfl rfl,
        Skylake.trail_memSide hcpu (by simp [coreLinks, connectBus])]
      exact ⟨rfl, rfl, rfl⟩

def Simple.shared : List Responder :=
  [.cpuSidePorts .llcbus, .cpuSide .llc, .cpuSidePorts .membus]

theorem Simple.trail_memSide {c : CacheName} (hcpu : cpu < n)
    (hc : (.memSide c, .cpuSidePorts .llcbus) ∈ Simple.coreLinks cpu) (fuel : ℕ) :
    Wiring.trail (Simple.init false n) Responder.through (fuel + 3) (.memSide c) =
      Simple.shared := by
  have hfixed : ∀ l ∈ connectCPUSideBus .llc .llcbus ++ connectMemSideBus .llc .membus,
      l ∈ Simple.init false n := by
    intro l hl
    exact (Simple.hierarchyParts n).mem_fixed (List.mem_append_left _ (List.mem_append_right _ hl))
  rw [(Simple.hierarchyParts n).trail_step
      ((Simple.hierarchyParts n).mem_core hcpu (List.mem_append_left _ hc)) rfl rfl,
    (Simple.hierarchyParts n).trail_step
      (hfixed (.memSidePorts .llcbus, .cpuSide .llc) (by simp [connectCPUSideBus])) rfl rfl,
    (Simple.hierarchyParts n).trail_end
      (hfixed (.memSide .llc, .cpuSidePorts .membus) (by simp [connectMemSideBus])) rfl rfl]
  rfl

theorem Simple.hierarchy_wired (n : ℕ) :
    Wired (Simple.init false n) n Simple.hierarchyLevels := by
  apply (Simple.hierarchyParts n).wired
  · exact fun cpu => List.subset_append_right _ _
  · intro cpu hcpu p hp
    have hcore : ∀ l ∈ Simple.coreLinks cpu, l ∈ Simple.init false n :=
      fun l hl => (Simple.hierarchyParts n).mem_core hcpu (List.mem_append_left _ hl)
    simp only [corePorts, List.mem_cons, List.not_mem_nil, or_false] at hp
    rcases hp with rfl | rfl | rfl | rfl
    · refine ⟨.cpuSide (.icache cpu) :: Simple.shared, fun fuel => ?_⟩
      rw [(Simple.hierarchyParts n).trail_step (hcore (.icachePort cpu, .cpuSide (.icache cpu))
          (by simp [coreLinks, L1ICache.connectCPU])) rfl rfl,
        Simple.trail_memSide hcpu (by simp [coreLinks, connectBus])]
      exact ⟨rfl, rfl, rfl⟩
    · refine ⟨.cpuSide (.dcache cpu) :: Simple.shared, fun fuel => ?_⟩
      rw [(Simple.hierarchyParts n).trail_step (hcore (.dcachePort cpu, .cpuSide (.dcache cpu))
          (by simp [coreLinks, L1DCache.connectCPU])) rfl rfl,
        Simple.trail_memSide hcpu (by simp [coreLinks, connectBus])]
      exact ⟨rfl, rfl, rfl⟩
    · refine ⟨[.cpuSidePorts .membus], fun fuel => ?_⟩
      rw [(Simple.hierarchyParts n).trail_end (hcore (.itbWalker cpu, .cpuSidePorts .membus)
        (by simp [coreLinks])) rfl rfl]
      exact ⟨rfl, rfl, rfl⟩
    · refine ⟨[.cpuSidePorts .membus], fun fuel => ?_⟩
      rw [(Simple.hierarchyParts n).trail_end (hcore (.dtbWalker cpu, .cpuSidePorts .membus)
        (by simp [coreLinks])) rfl rfl]
      exact ⟨rfl, rfl, rfl⟩

def Skylake.coreCaches (cpu : ℕ) : List CacheName :=
  [.icache cpu, .dcache cpu, .mmucache cpu, .l2cache cpu]

theorem Skylake.flushed_hierarchy (n : ℕ) :
    Flushed (Skylake.caches false n) n Skylake.hierarchyLevels := by
  have hcaches : Skylake.caches false n = (List.range n).flatMap Skylake.coreCaches ++ [.l3cache] :=
    rfl
  have howner : ∀ cpu, ∀ c ∈ Skylake.coreCaches cpu, c.owner = some cpu := by
    simp [coreCaches, CacheName.owner]
  refine ⟨?_, ?_, ?_⟩
  · rw [hcaches]
    refine (Wiring.nodup_flatMap_range (by simp [coreCaches]) howner n).append
      (List.nodup_singleton _) ?_
    intro c hc hl3
    obtain ⟨cpu, -, hcpu⟩ := List.mem_flatMap.mp hc
    rw [List.mem_singleton] at hl3
    have hnone := howner cpu c hcpu
    rw [hl3] at hnone
    cases hnone
  · intro cpu hcpu p hp
    have hcore : (Skylake.coreCaches cpu ++ [CacheName.l3cache]).Sublist
        (Skylake.caches false n) := by
      rw [hcaches]
      apply List.Sublist.append_right
      rw [List.flatMap_def]
      exact List.sublist_flatten_of_mem (List.mem_map.mpr ⟨cpu, List.mem_range.mpr hcpu, rfl⟩)
    apply List.Sublist.trans _ hcore
    simp only [corePorts, List.mem_cons, List.not_mem_nil, or_false] at hp
    rcases hp with rfl | rfl | rfl | rfl <;>
      simp [Skylake.hierarchyLevels, coreCaches, List.sublist_cons_iff]
  · intro hn c hc
    rw [hcaches, List.mem_append, List.mem_singleton] at hc
    rcases hc with hc | rfl
    · obtain ⟨cpu, hcpu, hc⟩ := List.mem_flatMap.mp hc
      refine ⟨cpu, List.mem_range.mp hcpu, ?_⟩
      simp only [coreCaches, List.mem_cons, List.not_mem_nil, or_false] at hc
      rcases hc with rfl | rfl | rfl | rfl <;> simp [corePorts, Skylake.hierarchyLevels]
    · exact ⟨0, hn, .icachePort 0, by simp [corePorts], by simp [Skylake.hierarchyLevels]⟩

theorem flushed_direct (n : ℕ) : Flushed (Skylake.caches true n) n directLevels := by
  refine ⟨List.nodup_singleton _, fun _ _ _ _ => List.Sublist.refl _, ?_⟩
  intro hn c hc
  exact ⟨0, hn, .icachePort 0, by simp [corePorts], hc⟩

end Trails

theorem init_wired (kvm : Bool) (n : ℕ) :
    Wired (Skylake.init kvm n) n (Skylake.levels kvm) ∧
    Wired (Simple.init kvm n) n (Simple.levels kvm) ∧
    Wired Drive.init 1 directLevels ∧
    Flushed (Skylake.caches kvm n) n (Skylake.levels kvm) := by
  refine ⟨?_, ?_, direct_wired _ (.inl rfl) 1, ?_⟩
  · cases kvm with
    | true => exact direct_wired _ (.inl rfl) n
    | false => exact Skylake.hierarchy_wired n
  · cases kvm with
    | true => exact direct_wired _ (.inr rfl) n
    | false => exact Simple.hierarchy_wired n
  · cases kvm with
    | true => exact flushed_direct n
    | false => exact Skylake.flushed_hierarchy n

end VSwarm.Systems
