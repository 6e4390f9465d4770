import DMS.Node.PortOwnership
import DMS.Resources.Manager

/-! # The allocator of a node

`allocator` of `dms/node/allocator.go`, on the resource manager and the port allocator: `Commit`
promises resources and ports, `Allocate` turns the promise into a running allocation, and
`Uncommit` and `Release` take the two back.
-/

namespace DMS.Node

open DMS.Types Resources

variable {κ : Type}

/-- What `SetCommittedPorts` stores in an allocation. -/
structure Allocation where
  committedPorts : GoMap Int Int
  dynamicPorts : Int

structure Allocator (κ : Type) where
  resources : Store κ
  ports : PortAllocator
  commits : GoMap GoString Int
  commitPorts : GoMap GoString (GoMap Int Int)
  commitDynamicPorts : GoMap GoString Int
  allocations : GoMap GoString Allocation

/-- The answers in one call of `Commit`. The ports are asked for in two calls of the
port allocator. -/
structure CommitEnv (κ : Type) where
  hardware : Except String Bool
  call : Call κ
  static : Probe
  dynamic : Probe
  now : Int

structure AllocateEnv (κ : Type) where
  hardware : Except String Bool
  mount : Except String Unit
  call : Call κ
  newAllocation : Except String Unit
  start : Except String Unit

structure ReleaseEnv (κ : Type) where
  terminate : Except String Unit
  call : Call κ
  unmount : Except String Unit

inductive AllocatorCause (κ : Type)
  | noHardwareCapacity
  | notCommitted (allocationID : GoString)
  | resources (cause : ManagerCause κ)
  | port (cause : PortCause)
  | answer (text : String)
deriving DecidableEq, Repr

abbrev AllocatorResult (κ α : Type) := Except (GoError (AllocatorCause κ)) α

/-- The text that `Release` puts in front of an error of the resource manager. -/
def deallocateResourcesFor (allocationID : GoString) : String :=
  s!"deallocate resources for allocation id: {printed allocationID}"

/-- The start of `Commit` and of `Allocate`: the hardware has to have the capacity. -/
def hardwareCheck (answer : Except String Bool) : AllocatorResult κ Unit :=
  match answer with
  | .error text => .error ((GoError.new (.answer text)).wrap "check hardware capacity")
  | .ok false => .error (.new .noHardwareCapacity)
  | .ok true => .ok ()

/-- The part of `Commit` that reserves the ports, first the static ones. When the dynamic ones
fail, the ports of the allocation are released. -/
def commitPorts (env : CommitEnv κ) (allocationID : GoString) (ports : GoMap Int Int)
    (numDynamicPorts : Int) (pa : PortAllocator) : PortAllocator × AllocatorResult κ Unit :=
  match pa.allocate env.static allocationID (env.call.order.visit ports.keys) with
  | (pa, .error e) => (pa, .error ((e.lift .port).wrap "allocate port"))
  | (pa, .ok _) =>
    if numDynamicPorts > 0 then
      match pa.allocateRandom env.dynamic allocationID numDynamicPorts with
      | (pa, .error e) =>
        (pa.release allocationID, .error ((e.lift .port).wrap "failed to allocate ports"))
      | (pa, .ok _) => (pa, .ok ())
    else (pa, .ok ())

namespace Allocator

variable [Cores κ]

def commit (env : CommitEnv κ) (allocationID : GoString) (resources : CommittedResources κ)
    (ports : GoMap Int Int) (numDynamicPorts expiry : Int) (a : Allocator κ) :
    Allocator κ × AllocatorResult κ Unit :=
  match hardwareCheck env.hardware with
  | .error e => (a, .error e)
  | .ok _ =>
    match a.resources.commitResources env.call resources with
    | (s, .error e) =>
      ({ a with resources := s }, .error ((e.lift .resources).wrap "commit resources"))
    | (s, .ok _) =>
      match Node.commitPorts env allocationID ports numDynamicPorts a.ports with
      | (pa, .error e) =>
        -- A failure of the revert is only logged.
        ({ a with resources := (s.uncommitResources allocationID).1, ports := pa }, .error e)
      | (pa, .ok _) =>
        ({ a with
          resources := s
          ports := pa
          commits := a.commits.insert allocationID (env.now + expiry)
          commitPorts := a.commitPorts.insert allocationID ports
          commitDynamicPorts := a.commitDynamicPorts.insert allocationID numDynamicPorts },
          .ok ())

def uncommit (allocationID : GoString) (a : Allocator κ) : Allocator κ × AllocatorResult κ Unit :=
  let a := { a with ports := a.ports.release allocationID }
  if allocationID ∉ a.commits then (a, .ok ())
  else
    match a.resources.uncommitResources allocationID with
    | (s, .error e) =>
      ({ a with resources := s }, .error ((e.lift .resources).wrap "uncommit resources"))
    | (s, .ok _) =>
      ({ a with
        resources := s
        commits := a.commits.erase allocationID
        commitPorts := a.commitPorts.erase allocationID
        commitDynamicPorts := a.commitDynamicPorts.erase allocationID }, .ok ())

def allocate (env : AllocateEnv κ) (allocationID : GoString) (a : Allocator κ) :
    Allocator κ × AllocatorResult κ Allocation :=
  if allocationID ∉ a.commits then (a, .error (.new (.notCommitted allocationID)))
  else
    match hardwareCheck env.hardware with
    | .error e => (a, .error e)
    | .ok _ =>
      match env.mount with
      | .error text => (a, .error (.new (.answer text)))
      | .ok _ =>
        match a.resources.allocateResources env.call allocationID with
        | (s, .error e) =>
          ({ a with resources := s }, .error ((e.lift .resources).wrap "allocate resources"))
        | (s, .ok _) =>
          match env.newAllocation with
          | .error text =>
            ({ a with resources := s },
              .error ((GoError.new (.answer text)).wrap "create allocation"))
          | .ok _ =>
            -- An absent key reads as the empty map and as zero.
            let allocation : Allocation := ⟨(a.commitPorts.lookup allocationID).getD ∅,
                (a.commitDynamicPorts.lookup allocationID).getD 0⟩
            match env.start with
            | .error text =>
              ({ a with resources := s },
                .error ((GoError.new (.answer text)).wrap "start allocation"))
            | .ok _ =>
              ({ a with
                resources := s
                commits := a.commits.erase allocationID
                commitPorts := a.commitPorts.erase allocationID
                commitDynamicPorts := a.commitDynamicPorts.erase allocationID
                allocations := a.allocations.insert allocationID allocation },
                .ok allocation)

def release (env : ReleaseEnv κ) (allocationID : GoString) (a : Allocator κ) :
    Allocator κ × AllocatorResult κ Unit :=
  let a := { a with ports := a.ports.release allocationID }
  if allocationID ∉ a.allocations then (a, .ok ())
  else
    match env.terminate with
    | .error text => (a, .error ((GoError.new (.answer text)).wrap "terminate allocation"))
    | .ok _ =>
      match a.resources.deallocateResources env.call allocationID with
      | (s, .error e) =>
        ({ a with resources := s },
          .error ((e.lift .resources).wrap (deallocateResourcesFor allocationID)))
      | (s, .ok _) =>
        match env.unmount with
        | .error text =>
          ({ a with resources := s }, .error ((GoError.new (.answer text)).wrap "unmount volume"))
        | .ok _ =>
          ({ a with resources := s, allocations := a.allocations.erase allocationID }, .ok ())

/-- What `handleDeploymentRevert` does for one allocation; errors are only logged. -/
def revert (env : ReleaseEnv κ) (allocationID : GoString) (a : Allocator κ) : Allocator κ :=
  if allocationID ∈ a.allocations then (a.release env allocationID).1
  else (a.uncommit allocationID).1

end Allocator

end DMS.Node
