import DMS.Core.GoMap
import DMS.Core.GoValue
import Mathlib.Data.Finset.Basic
import Mathlib.Data.Finset.Lattice.Lemmas

/-! # The port allocator

`portAllocator` of `dms/node/allocator.go`. It keeps the set of reserved ports and,
for each allocation, the list of ports that were given to it. Whether the operating
system lets a port be bound is not up to the allocator; a call is given the answers.
-/

namespace DMS.Node

structure PortConfig where
  availableRangeFrom : Int
  availableRangeTo : Int
deriving DecidableEq, Repr

structure PortAllocator where
  config : PortConfig
  allocations : GoMap GoString (List Int)
  reserved : Finset Int

/-- What `IsFreePort` answers in one call: first while the range is searched, then
while ports are reserved. No port is asked about twice in either phase. -/
structure Probe where
  scan : Int → Bool
  bind : Int → Bool

/-- The errors without the texts they are wrapped in. A negative length is not an
error that is returned; `make` panics on it. -/
inductive PortCause
  | outsideRange (port availableFrom availableTo : Int)
  | alreadyReserved (port : Int)
  | notFree (port : Int)
  | zeroPorts
  | tooFew (numPorts : Int)
  | capOutOfRange
deriving DecidableEq, Repr

/-- The texts that the two exported calls put in front of the error for a port. -/
def cannotAllocate (port : Int) : String := s!"cannot allocate port {port}"

def failedToAllocate (port : Int) : String := s!"failed to allocate port {port}"

abbrev PortResult (α : Type) := Except (GoError PortCause) α

def newPortAllocator (config : PortConfig) : PortAllocator := ⟨config, ∅, ∅⟩

namespace PortAllocator

def ports (pa : PortAllocator) (allocationID : GoString) : List Int :=
  pa.allocations.list allocationID

/-- The unexported `allocate`. -/
def allocatePort (free : Int → Bool) (port : Int) (pa : PortAllocator) : PortResult PortAllocator :=
  if port < pa.config.availableRangeFrom ∨ port > pa.config.availableRangeTo then
    .error (.new (.outsideRange port pa.config.availableRangeFrom pa.config.availableRangeTo))
  else if port ∈ pa.reserved then .error (.new (.alreadyReserved port))
  else if !free port then .error (.new (.notFree port))
  else .ok { pa with reserved := insert port pa.reserved }

/-- The unexported `release`. -/
def releasePorts (ports : List Int) (pa : PortAllocator) : PortAllocator :=
  { pa with reserved := ports.foldl (fun r p => if p ∉ r then r else r.erase p) pa.reserved }

/-- The loop over the ports to reserve, up to the first one that cannot be. -/
def allocatePorts (free : Int → Bool) :
    List Int → PortAllocator → PortAllocator × Option (Int × GoError PortCause)
  | [], pa => (pa, none)
  | port :: rest, pa =>
    match allocatePort free port pa with
    | .error e => (pa, some (port, e))
    | .ok pa => allocatePorts free rest pa

/-- What follows the early returns of `Allocate` and of `AllocateRandom`: reserve the
ports and enter them, or release the list again. -/
def reserve (free : Int → Bool) (text : Int → String) (allocationID : GoString) (ports : List Int)
    (pa : PortAllocator) : PortAllocator × PortResult (List Int) :=
  match allocatePorts free ports pa with
  | (pa, some (port, e)) => (pa.releasePorts ports, .error (e.wrap (text port)))
  | (pa, none) => ({ pa with allocations := pa.allocations.insert allocationID ports }, .ok ports)

def allocate (probe : Probe) (allocationID : GoString) (ports : List Int) (pa : PortAllocator) :
    PortAllocator × PortResult Unit :=
  if ports = [] then (pa, .ok ())
  else
    let (pa, result) := pa.reserve probe.bind cannotAllocate allocationID ports
    (pa, result.map fun _ => ())

/-- The loop of `getAvailablePorts` from `port` on, with `fuel` ports left up to the
end of the range. -/
def availableLoop (free : Int → Bool) (pa : PortAllocator) (numPorts : Int) :
    Nat → Int → List Int → List Int
  | 0, _, ports => ports
  | fuel + 1, port, ports =>
    if (ports.length : Int) < numPorts then
      if port ∈ pa.reserved then availableLoop free pa numPorts fuel (port + 1) ports
      else if free port then availableLoop free pa numPorts fuel (port + 1) (ports ++ [port])
      else availableLoop free pa numPorts fuel (port + 1) ports
    else ports

def getAvailablePorts (free : Int → Bool) (numPorts : Int) (pa : PortAllocator) : List Int :=
  availableLoop free pa numPorts
    (pa.config.availableRangeTo + 1 - pa.config.availableRangeFrom).toNat
    pa.config.availableRangeFrom []

def allocateRandom (probe : Probe) (allocationID : GoString) (numPorts : Int)
    (pa : PortAllocator) : PortAllocator × PortResult (List Int) :=
  if numPorts = 0 then (pa, .error (.new .zeroPorts))
  else if numPorts < 0 then (pa, .error (.new .capOutOfRange))
  else
    let portsToAllocate := pa.getAvailablePorts probe.scan numPorts
    if (portsToAllocate.length : Int) ≠ numPorts then
      (pa.releasePorts portsToAllocate, .error (.new (.tooFew numPorts)))
    else
      pa.reserve probe.bind failedToAllocate allocationID portsToAllocate

def release (allocationID : GoString) (pa : PortAllocator) : PortAllocator :=
  match pa.allocations.lookup allocationID with
  | none => pa
  | some allocated =>
    let pa := pa.releasePorts allocated
    { pa with allocations := pa.allocations.erase allocationID }

theorem releasePorts_eq (ports : List Int) (pa : PortAllocator) :
    pa.releasePorts ports = { pa with reserved := pa.reserved \ ports.toFinset } := by
  unfold releasePorts
  congr 1
  generalize pa.reserved = reserved
  induction ports generalizing reserved with
  | nil => simp
  | cons port ports ih =>
    have herase : (if port ∉ reserved then reserved else reserved.erase port) =
        reserved.erase port := by
      split
      · next h => exact (Finset.erase_eq_of_notMem h).symm
      · rfl
    rw [List.foldl_cons, herase, ih, List.toFinset_cons]
    ext x
    simp only [Finset.mem_sdiff, Finset.mem_erase, Finset.mem_insert]
    tauto

variable {free : Int → Bool} {pa pa' : PortAllocator} {ports : List Int} {probe : Probe}
  {id : GoString}

theorem allocatePort_eq_ok {port} (h : allocatePort free port pa = .ok pa') :
    port ∉ pa.reserved ∧ pa' = { pa with reserved := insert port pa.reserved } := by
  unfold allocatePort at h
  simp only [Outcome.ite_error_eq_ok, Except.ok.injEq] at h
  exact ⟨h.2.1, h.2.2.2.symm⟩

theorem allocatePorts_eq_some {fault} (h : allocatePorts free ports pa = (pa', some fault)) :
    ∃ taken, taken ⊆ ports.toFinset ∧ pa' = { pa with reserved := pa.reserved ∪ taken } := by
  induction ports generalizing pa with
  | nil => simp [allocatePorts] at h
  | cons port ports ih =>
    unfold allocatePorts at h
    split at h
    · obtain ⟨rfl, _⟩ := Prod.mk.inj h
      exact ⟨∅, Finset.empty_subset _, by simp⟩
    rename_i next hport
    obtain ⟨_, rfl⟩ := allocatePort_eq_ok hport
    obtain ⟨taken, htaken, rfl⟩ := ih h
    refine ⟨insert port taken, ?_, by simp⟩
    rw [List.toFinset_cons]
    exact Finset.insert_subset_insert port htaken

theorem allocatePorts_eq_none (h : allocatePorts free ports pa = (pa', none)) :
    (∀ port ∈ ports, port ∉ pa.reserved) ∧
      pa' = { pa with reserved := pa.reserved ∪ ports.toFinset } := by
  induction ports generalizing pa with
  | nil =>
    simp only [allocatePorts, Prod.mk.injEq, and_true] at h
    simp [h]
  | cons port ports ih =>
    unfold allocatePorts at h
    split at h
    · simp at h
    rename_i next hport
    obtain ⟨hfresh, rfl⟩ := allocatePort_eq_ok hport
    obtain ⟨hrest, rfl⟩ := ih h
    constructor
    · intro q hq
      rcases List.mem_cons.mp hq with rfl | hq
      · exact hfresh
      · intro hmem
        exact hrest q hq (Finset.mem_insert_of_mem hmem)
    · simp

theorem not_mem_reserved_of_mem_getAvailablePorts {numPorts port}
    (h : port ∈ pa.getAvailablePorts free numPorts) : port ∉ pa.reserved := by
  have hloop : ∀ fuel from' ports, (∀ q ∈ ports, q ∉ pa.reserved) →
      ∀ q ∈ availableLoop free pa numPorts fuel from' ports, q ∉ pa.reserved := by
    intro fuel
    induction fuel with
    | zero => intro from' ports hports; exact hports
    | succ fuel ih =>
      intro from' ports hports
      unfold availableLoop
      split
      · split
        · exact ih _ _ hports
        rename_i hfresh
        split
        · refine ih _ _ ?_
          intro q hq
          rcases List.mem_append.mp hq with hq | hq
          · exact hports q hq
          · rw [List.mem_singleton.mp hq]
            exact hfresh
        · exact ih _ _ hports
      · exact hports
  exact hloop _ _ [] (by simp) port h

section Reserve

variable {free : Int → Bool} {text : Int → String} {id : GoString} {ports : List Int}
  {pa : PortAllocator}

/-- A failed reservation takes every port of the list out of the reserved set, whoever
it was reserved for. -/
theorem reserve_error {e} (h : (pa.reserve free text id ports).2 = .error e) :
    (pa.reserve free text id ports).1 = { pa with reserved := pa.reserved \ ports.toFinset } := by
  unfold reserve at h ⊢
  split
  · next pa' port fault hloop =>
    obtain ⟨taken, htaken, rfl⟩ := allocatePorts_eq_some hloop
    rw [releasePorts_eq, Finset.union_sdiff_distrib, Finset.sdiff_eq_empty_iff_subset.mpr htaken,
      Finset.union_empty]
  rename_i pa' hloop
  rw [hloop] at h
  simp at h

theorem reserve_ok {r} (h : (pa.reserve free text id ports).2 = .ok r) :
    r = ports ∧ (∀ port ∈ ports, port ∉ pa.reserved) ∧
      (pa.reserve free text id ports).1 =
        ⟨pa.config, pa.allocations.insert id ports, pa.reserved ∪ ports.toFinset⟩ := by
  unfold reserve at h ⊢
  split
  · next pa' port fault hloop =>
    rw [hloop] at h
    simp at h
  rename_i pa' hloop
  rw [hloop] at h
  obtain ⟨hfresh, rfl⟩ := allocatePorts_eq_none hloop
  exact ⟨(Except.ok.inj h).symm, hfresh, rfl⟩

end Reserve

theorem sdiff_reserved_eq_self : { pa with reserved := pa.reserved \ ports.toFinset } = pa ↔
      ∀ port ∈ ports, port ∉ pa.reserved := by
  have hset : { pa with reserved := pa.reserved \ ports.toFinset } = pa ↔
      pa.reserved \ ports.toFinset = pa.reserved := by
    constructor
    · intro h
      exact congrArg PortAllocator.reserved h
    · intro h
      rw [h]
  rw [hset, Finset.sdiff_eq_self_iff_disjoint, Finset.disjoint_right]
  simp

theorem allocate_of_ne_nil (hports : ports ≠ []) : pa.allocate probe id ports =
      ((pa.reserve probe.bind cannotAllocate id ports).1,
        (pa.reserve probe.bind cannotAllocate id ports).2.map fun _ => ()) := by
  rw [allocate, if_neg hports]

theorem allocate_error {e} (h : (pa.allocate probe id ports).2 = .error e) :
    (pa.allocate probe id ports).1 = { pa with reserved := pa.reserved \ ports.toFinset } := by
  by_cases hports : ports = []
  · simp [allocate, hports] at h
  rw [allocate_of_ne_nil hports] at h ⊢
  cases hres : (pa.reserve probe.bind cannotAllocate id ports).2 with
  | error e' => exact reserve_error hres
  | ok r => simp [hres, Except.map] at h

theorem allocateRandom_error {numPorts e} (h : (pa.allocateRandom probe id numPorts).2 = .error e) :
    (pa.allocateRandom probe id numPorts).1 = pa := by
  have hsame : { pa with
      reserved := pa.reserved \ (pa.getAvailablePorts probe.scan numPorts).toFinset } = pa :=
    sdiff_reserved_eq_self.mpr fun _ hport => not_mem_reserved_of_mem_getAvailablePorts hport
  unfold allocateRandom at h ⊢
  dsimp only at h ⊢
  split
  · rfl
  rename_i hzero
  rw [if_neg hzero] at h
  split
  · rfl
  rename_i hneg
  rw [if_neg hneg] at h
  split
  · rw [releasePorts_eq, hsame]
  rename_i hlen
  rw [if_neg hlen] at h
  rw [reserve_error h, hsame]

end PortAllocator

/-- A failed `Allocate` leaves the allocator as it was exactly when none of the ports
it was asked for had been reserved before; a failed `AllocateRandom` always does. -/
theorem failed_reservation_unchanged_iff (pa : PortAllocator) (probe : Probe)
    (allocationID : GoString) : (∀ ports e, (pa.allocate probe allocationID ports).2 = .error e →
      ((pa.allocate probe allocationID ports).1 = pa ↔ ∀ port ∈ ports, port ∉ pa.reserved)) ∧
    ∀ numPorts e, (pa.allocateRandom probe allocationID numPorts).2 = .error e →
      (pa.allocateRandom probe allocationID numPorts).1 = pa := by
  constructor
  · intro ports e h
    rw [PortAllocator.allocate_error h]
    exact PortAllocator.sdiff_reserved_eq_self
  · intro numPorts e h
    exact PortAllocator.allocateRandom_error h

def samplePorts : PortAllocator := newPortAllocator ⟨30000, 30003⟩

def allFree : Probe := ⟨fun _ => true, fun _ => true⟩

/-- The first port is held by `alloc1`. -/
def heldPort : PortAllocator := (samplePorts.allocate allFree (ascii "alloc1") [30000]).1

theorem heldPort_outside_range_unchanged :
    (heldPort.allocate allFree (ascii "alloc2") [30001, 8099]).1 = heldPort ∧
      (heldPort.allocateRandom allFree (ascii "alloc2") 4).1 = heldPort := by
  have h := failed_reservation_unchanged_iff heldPort allFree (ascii "alloc2")
  exact ⟨(h.1 [30001, 8099] _ rfl).mpr (by decide), h.2 4 _ rfl⟩

/-- Asking for a port of `alloc1` fails and frees the port; the next call gets it,
while it is still listed under `alloc1`. -/
theorem heldPort_freed_by_failure :
    (samplePorts.allocate allFree (ascii "alloc1") [30000]).2 = .ok () ∧
      (heldPort.allocate allFree (ascii "alloc2") [30000]).2.isOk = false ∧
      heldPort.reserved = {30000} ∧
      (heldPort.allocate allFree (ascii "alloc2") [30000]).1.reserved = ∅ ∧
      ((heldPort.allocate allFree (ascii "alloc2") [30000]).1.allocate allFree (ascii "alloc3")
        [30000]).2 = .ok () ∧
      30000 ∈ ((heldPort.allocate allFree (ascii "alloc2") [30000]).1.allocate allFree
        (ascii "alloc3") [30000]).1.ports (ascii "alloc1") :=
  ⟨by rfl, by rfl, by decide, by decide, by rfl, by decide⟩

end DMS.Node
