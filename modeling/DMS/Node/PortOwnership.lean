import DMS.Core.Ledger
import DMS.Core.Reach
import DMS.Node.PortAllocator

/-! # Who holds which port

A run of the port allocator next to the ledger of the allocations that ports were reserved for.
The books are kept as long as no call reserves ports for an allocation that has some already.
-/

namespace DMS.Node

open Ledger PortAllocator

/-- A call of the allocator, with what the operating system answers in it. -/
inductive PortCall
  | allocate (probe : Probe) (allocationID : GoString) (ports : List Int)
  | allocateRandom (probe : Probe) (allocationID : GoString) (numPorts : Int)
  | release (allocationID : GoString)

namespace PortCall

/-- The state after the call and the ports that it reserved. -/
def exec (pa : PortAllocator) : PortCall → PortAllocator × PortResult (List Int)
  | .allocate probe allocationID ports =>
    let (pa, result) := pa.allocate probe allocationID ports
    (pa, result.map fun _ => ports)
  | .allocateRandom probe allocationID numPorts => pa.allocateRandom probe allocationID numPorts
  | .release allocationID => (pa.release allocationID, .ok [])

def Succeeds (pa : PortAllocator) (call : PortCall) : Prop := (call.exec pa).2.isOk = true

def Fresh (pa : PortAllocator) : PortCall → Prop
  | .allocate _ allocationID ports => ports = [] ∨ pa.ports allocationID = []
  | .allocateRandom _ allocationID _ => pa.ports allocationID = []
  | .release _ => True

instance (pa : PortAllocator) (call : PortCall) : Decidable (call.Succeeds pa) :=
  inferInstanceAs (Decidable (_ = true))

instance (pa : PortAllocator) : ∀ call : PortCall, Decidable (call.Fresh pa)
  | .allocate _ _ _ => inferInstanceAs (Decidable (_ ∨ _))
  | .allocateRandom _ _ _ => inferInstanceAs (Decidable (_ = _))
  | .release _ => inferInstanceAs (Decidable True)

/-- Who holds which port after a call that reserved the given ports. -/
def record (owner : Ledger Int GoString) (reserved : List Int) : PortCall → Ledger Int GoString
  | .allocate _ allocationID _ | .allocateRandom _ allocationID _ =>
    owner.grant allocationID reserved
  | .release allocationID => owner.revoke allocationID

end PortCall

structure Tracked where
  pa : PortAllocator
  owner : Ledger Int GoString

namespace Tracked

def start (config : PortConfig) : Tracked := ⟨newPortAllocator config, empty⟩

def step (st : Tracked) (call : PortCall) : Tracked :=
  match call.exec st.pa with
  | (pa, .ok reserved) => ⟨pa, call.record st.owner reserved⟩
  | (pa, .error _) => ⟨pa, st.owner⟩

def Run (config : PortConfig) (guard : PortAllocator → PortCall → Prop) : Tracked → Prop :=
  Reach (fun st => st = start config) (fun st call => call.Succeeds st.pa ∧ guard st.pa call) step

end Tracked

namespace PortAllocator

variable {pa : PortAllocator} {probe : Probe} {allocationID : GoString}

theorem ports_insert (pa : PortAllocator) (allocationID : GoString) (ports : List Int)
    (reserved : Finset Int) (id : GoString) :
    PortAllocator.ports ⟨pa.config, pa.allocations.insert allocationID ports, reserved⟩ id =
      if id = allocationID then ports else pa.ports id :=
  GoMap.list_insert ..

theorem release_cases (allocationID : GoString) (pa : PortAllocator) :
    (pa.ports allocationID = [] ∧ pa.release allocationID = pa) ∨
      pa.release allocationID = ⟨pa.config, pa.allocations.erase allocationID,
        pa.reserved \ (pa.ports allocationID).toFinset⟩ := by
  unfold release ports GoMap.list
  cases pa.allocations.lookup allocationID with
  | none => exact .inl ⟨rfl, rfl⟩
  | some allocated => exact .inr (by simp [releasePorts_eq])

theorem release_reserved (allocationID : GoString) (pa : PortAllocator) :
    (pa.release allocationID).reserved = pa.reserved \ (pa.ports allocationID).toFinset := by
  rcases release_cases allocationID pa with ⟨hnil, heq⟩ | heq
  · simp [heq, hnil]
  · rw [heq]

theorem ports_release (allocationID : GoString) (pa : PortAllocator) (id : GoString) :
    (pa.release allocationID).ports id = if id = allocationID then [] else pa.ports id := by
  rcases release_cases allocationID pa with ⟨hnil, heq⟩ | heq
  · rw [heq]
    split
    · next h => rw [h, hnil]
    · rfl
  · rw [heq]
    exact GoMap.list_erase ..

theorem allocateRandom_ok {numPorts r}
    (h : (pa.allocateRandom probe allocationID numPorts).2 = .ok r) :
    pa.allocateRandom probe allocationID numPorts =
      pa.reserve probe.bind failedToAllocate allocationID
        (pa.getAvailablePorts probe.scan numPorts) := by
  unfold allocateRandom at h ⊢
  dsimp only at h ⊢
  split
  · next hzero => simp [hzero] at h
  rename_i hzero
  split
  · next hneg => simp [hzero, hneg] at h
  rename_i hneg
  split
  · next hlen => simp [hzero, hneg, hlen] at h
  · rfl

end PortAllocator

namespace PortCall

variable {pa : PortAllocator} {call : PortCall}

theorem exec_cases {reserved} (hok : (call.exec pa).2 = .ok reserved) :
    (∃ probe id, call = .allocate probe id [] ∧ reserved = [] ∧
      (call.exec pa).1 = pa) ∨
    (∃ free text id ports, (pa.reserve free text id ports).2 = .ok reserved ∧
      (call.exec pa).1 = (pa.reserve free text id ports).1 ∧
      (∀ owner, call.record owner reserved = owner.grant id reserved) ∧
      (call.Fresh pa ↔ pa.ports id = [])) ∨
    ∃ id, call = .release id := by
  cases call with
  | allocate probe id ports =>
    by_cases hports : ports = []
    · subst hports
      exact .inl ⟨probe, id, rfl, (Except.ok.inj hok).symm, rfl⟩
    simp only [exec, allocate_of_ne_nil hports] at hok ⊢
    cases hres : (pa.reserve probe.bind cannotAllocate id ports).2 with
    | error e => simp [hres, Except.map] at hok
    | ok r =>
      obtain ⟨rfl, _, _⟩ := reserve_ok hres
      obtain rfl : r = reserved := by simpa [hres, Except.map] using hok
      exact .inr (.inl ⟨_, _, _, _, hres, rfl, fun _ => rfl, by simp [Fresh, hports]⟩)
  | allocateRandom probe id numPorts =>
    have hreserve := allocateRandom_ok hok
    simp only [exec, hreserve] at hok ⊢
    exact .inr (.inl ⟨_, _, _, _, hok, rfl, fun _ => rfl, Iff.rfl⟩)
  | release id => exact .inr (.inr ⟨id, rfl⟩)

theorem books_exec {owner reserved}
    (h : Books owner pa.ports pa.reserved) (hok : (call.exec pa).2 = .ok reserved)
    (hfresh : call.Fresh pa) :
    Books (call.record owner reserved) (call.exec pa).1.ports (call.exec pa).1.reserved := by
  rcases exec_cases hok with ⟨_, _, rfl, rfl, hstate⟩ |
    ⟨_, _, _, _, hres, hstate, hrecord, hiff⟩ | ⟨id, rfl⟩
  · rw [hstate]
    simpa [record] using h
  · obtain ⟨rfl, hfree, hreserve⟩ := reserve_ok hres
    rw [hstate, hrecord, hreserve]
    exact h.grant hfree (hiff.mp hfresh) (ports_insert pa _ _ _)
  · simp only [exec, record, release_reserved]
    exact h.revoke (ports_release id pa)

theorem balanced_exec_iff (h : Balanced pa.ports pa.reserved) (hok : call.Succeeds pa) :
    Balanced (call.exec pa).1.ports (call.exec pa).1.reserved ↔ call.Fresh pa := by
  cases hres : (call.exec pa).2 with
  | error e => simp [Succeeds, hres, Except.isOk, Except.toBool] at hok
  | ok reserved =>
    constructor
    · intro hafter
      rcases exec_cases hres with ⟨_, _, rfl, _, _⟩ |
        ⟨_, _, _, _, hreserve, hstate, _, hiff⟩ | ⟨_, rfl⟩
      · exact .inl rfl
      · obtain ⟨rfl, hfree, hreserve⟩ := reserve_ok hreserve
        rw [hstate, hreserve] at hafter
        by_contra hnot
        exact h.not_overwrite hfree (fun hnil => hnot (hiff.mpr hnil)) (ports_insert pa _ _ _)
          hafter
      · trivial
    intro hfresh
    obtain ⟨owner, hbooks⟩ := h.books
    exact (books_exec hbooks hres hfresh).balanced

end PortCall

theorem Tracked.Run.books {config st} (h : Tracked.Run config (fun pa call => call.Fresh pa) st) :
    Books st.owner st.pa.ports st.pa.reserved := by
  refine Reach.invariant (fun st => Books st.owner st.pa.ports st.pa.reserved) ?_ ?_ h
  · rintro st rfl
    exact books_empty fun _ => rfl
  intro st call hbooks hguard
  unfold Tracked.step
  split
  · next pa reserved hexec =>
    have hafter := PortCall.books_exec hbooks (congrArg Prod.snd hexec) hguard.2
    rwa [hexec] at hafter
  · next pa e hexec =>
    simp [PortCall.Succeeds, hexec, Except.isOk, Except.toBool] at hguard

/-- In every state that successful calls reach while none reserves ports for an allocation that
has some already, each reserved port is listed under exactly one allocation and each listed port
is reserved. A release then frees the ports of its allocation and no other. No other successful
call keeps the books balanced. -/
theorem ports_owned (config : PortConfig) (st : Tracked)
    (hrun : Tracked.Run config (fun pa call => call.Fresh pa) st) :
    (∀ port ∈ st.pa.reserved, ∃! id, port ∈ st.pa.ports id) ∧
    (∀ id, ∀ port ∈ st.pa.ports id, port ∈ st.pa.reserved) ∧
    (∀ id port, st.owner port = some id → port ∉ (st.pa.release id).reserved) ∧
    (∀ id other port, other ≠ id → st.owner port = some other →
      port ∈ (st.pa.release id).reserved) ∧ ∀ call : PortCall, call.Succeeds st.pa →
      (Balanced (call.exec st.pa).1.ports (call.exec st.pa).1.reserved ↔ call.Fresh st.pa) := by
  have hbooks := hrun.books
  have hbalanced := hbooks.balanced
  refine ⟨hbalanced.holder, hbalanced.inUse, ?_, ?_, ?_⟩
  · intro id port howner
    rw [release_reserved, Finset.mem_sdiff, List.mem_toFinset, hbooks.mem_listed]
    exact fun h => h.2 howner
  · intro id other port hne howner
    rw [release_reserved, Finset.mem_sdiff, List.mem_toFinset, hbooks.mem_listed,
      hbooks.mem_used, howner]
    simp [hne]
  · intro call hok
    exact PortCall.balanced_exec_iff hbalanced hok

def afterCalls (calls : List PortCall) : Tracked := calls.foldl Tracked.step (.start ⟨30000, 30003⟩)

theorem run_afterCalls {guard calls}
    (h : Reach.Passes (fun st call => PortCall.Succeeds st.pa call ∧ guard st.pa call) Tracked.step
      (.start ⟨30000, 30003⟩) calls) : Tracked.Run ⟨30000, 30003⟩ guard (afterCalls calls) := by
  have hinit : Tracked.Run ⟨30000, 30003⟩ guard (.start ⟨30000, 30003⟩) := .init rfl
  exact hinit.foldl h

/-- The ports of `alloc1` go to `alloc3` once they are released. -/
def freshCalls : List PortCall :=
  [.allocate allFree (ascii "alloc1") [30001, 30002], .allocateRandom allFree (ascii "alloc2") 1,
    .release (ascii "alloc1"), .allocateRandom allFree (ascii "alloc3") 2]

theorem freshCalls_release : (afterCalls freshCalls).pa.reserved = {30000, 30001, 30002} ∧
      30000 ∈ ((afterCalls freshCalls).pa.release (ascii "alloc3")).reserved ∧
      30001 ∉ ((afterCalls freshCalls).pa.release (ascii "alloc3")).reserved := by
  have h := ports_owned ⟨30000, 30003⟩ (afterCalls freshCalls) (run_afterCalls (by decide))
  exact ⟨by decide, h.2.2.2.1 (ascii "alloc3") (ascii "alloc2") 30000 (by decide) (by decide),
    h.2.2.1 (ascii "alloc3") 30001 (by decide)⟩

/-- The calls that `Commit` makes for a static and a dynamic port of one allocation. -/
def commitCalls : List PortCall :=
  [.allocate allFree (ascii "alloc1") [30001], .allocateRandom allFree (ascii "alloc1") 1]

/-- The static port is reserved and listed nowhere, and it stays reserved when the
allocation is released. -/
theorem commitCalls_leak_port :
    Tracked.Run ⟨30000, 30003⟩ (fun _ _ => True) (afterCalls commitCalls) ∧
      (afterCalls commitCalls).owner 30001 = some (ascii "alloc1") ∧
      30001 ∈ (afterCalls commitCalls).pa.reserved ∧
      (∀ id, ∀ port ∈ (afterCalls commitCalls).pa.ports id, port ≠ 30001) ∧
      30001 ∈ ((afterCalls commitCalls).pa.release (ascii "alloc1")).reserved :=
  ⟨run_afterCalls (by decide), by decide, by decide, GoMap.forall_mem_list (by decide), by decide⟩

end DMS.Node
