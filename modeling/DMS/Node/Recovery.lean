import DMS.Core.Sweep
import DMS.Node.AllocationRecords
import DMS.Node.Allocator

/-! # Recovery of persisted allocations

`restoreAllocations` of `dms/node/alloc_recovery.go`. After a restart the allocations of an
ensemble are committed and created again from the persisted record, and run. When a step fails,
all of them are released and uncommitted.
-/

namespace DMS.Node

open DMS.Types Resources Sweep

variable {κ : Type}

inductive ExecutorType
  | docker
  | containerd
deriving DecidableEq, Repr

/-- The cases of `createExecutor`. -/
def executorType (executionType : GoString) : Option ExecutorType :=
  if executionType = ascii "docker" then some .docker
  else if executionType = ascii "containerd" then some .containerd
  else none

structure Recovery (κ : Type) where
  resources : Resources κ
  ports : GoMap Int Int
  dynamicPortsNum : Int
  executionType : GoString
  subnetID : GoString

/-- The allocator, and the type of the executor that each allocation was given. -/
structure Books (κ : Type) where
  allocator : Allocator κ
  executors : GoMap GoString ExecutorType

/-- `AllocationsStatePersist`, with the allocations by their identifiers. -/
abbrev PersistedEnsemble (κ : Type) := EnsembleRecord (Recovery κ)

/-- The answers in one call of `restoreAllocations`. Those of the calls for one allocation are
given by its identifier. -/
structure RestoreEnv (κ : Type) where
  commitOrder : RangeOrder
  hardware : GoString → Except String Bool
  call : GoString → Call κ
  now : Int
  decodeKey : GoString → Except String Unit
  parseKey : GoString → Except String Unit
  /-- The handle of the orchestrator is not empty. -/
  supervisor : Bool
  createOrder : RangeOrder
  newExecutor : GoString → Except String Unit
  createChild : GoString → Except String Unit
  allocate : GoString → AllocateEnv κ
  allocationDID : GoString → Except String Unit
  grantAllocation : GoString → Except String Unit
  grantEnsemble : GoString → Except String Unit
  networkOrder : RangeOrder
  createSubnet : GoString → Except String Unit
  join : GoString → Except String Unit
  mapPorts : GoString → Except String Unit
  addBehaviors : Except String Unit
  runOrder : RangeOrder
  run : GoString → Except String Unit
  rollbackOrder : RangeOrder
  release : GoString → ReleaseEnv κ

/-- An error from outside, with the text that is put in front of it. -/
def answered (context : String) : Except String Unit → AllocatorResult κ Unit
  | .ok _ => .ok ()
  | .error text => .error ((GoError.new (.answer text)).wrap context)

/-- `DefaultCommitTimeout` in seconds. -/
def defaultCommitTimeout : Int := 30

namespace Allocator

variable [Cores κ]

/-- `RestoreAllocCommit`. The ports are written down, and not reserved. -/
def restoreAllocCommit (hardware : Except String Bool) (call : Call κ) (now : Int)
    (allocationID : GoString) (resources : Resources κ) (ports : GoMap Int Int)
    (numDynamicPorts : Int) (a : Allocator κ) : Allocator κ × AllocatorResult κ Unit :=
  match hardwareCheck hardware with
  | .error e => (a, .error e)
  | .ok _ =>
    match a.resources.commitResources call ⟨resources, allocationID⟩ with
    | (s, .error e) =>
      ({ a with resources := s }, .error ((e.lift .resources).wrap "commit resources for restore"))
    | (s, .ok _) =>
      ({ a with
        resources := s
        commits := a.commits.insert allocationID (now + defaultCommitTimeout)
        commitPorts := a.commitPorts.insert allocationID ports
        commitDynamicPorts := a.commitDynamicPorts.insert allocationID numDynamicPorts },
        .ok ())

end Allocator

namespace Books

variable [Cores κ] (env : RestoreEnv κ) (ap : PersistedEnsemble κ)

/-- The body of the first loop of `restoreAllocations`. -/
def commitOne (id : GoString) (b : Books κ) : Books κ × AllocatorResult κ Unit :=
  match ap.allocations.lookup id with
  | none => (b, .ok ())
  | some st =>
    match b.allocator.restoreAllocCommit (env.hardware id) (env.call id) env.now id
        st.content.resources st.content.ports st.content.dynamicPortsNum with
    | (a, .error e) =>
      ({ b with allocator := a }, .error (e.wrap ("restore allocation commit " ++ printed id)))
    | (a, .ok _) =>
      match answered ("decode private key for allocation " ++ printed id) (env.decodeKey id) with
      | .error e => ({ b with allocator := a }, .error e)
      | .ok _ =>
        ({ b with allocator := a },
          answered ("parse private key for allocation " ++ printed id) (env.parseKey id))

def createAllocation (executionType id : GoString) (b : Books κ) :
    Books κ × AllocatorResult κ Unit :=
  match executorType executionType with
  | none =>
    (b, .error ((GoError.new (.answer ("unsupported executor type: " ++
      printed executionType))).wrap "create executor"))
  | some executor =>
    match (answered "create executor" (env.newExecutor id)).mapError (·.wrap "create executor") with
    | .error e => (b, .error e)
    | .ok _ =>
      match answered "create allocation actor" (env.createChild id) with
      | .error e => (b, .error e)
      | .ok _ =>
        match b.allocator.allocate (env.allocate id) id with
        | (a, .error e) => ({ b with allocator := a }, .error (e.wrap "allocate"))
        | (a, .ok _) => (⟨a, b.executors.insert id executor⟩, .ok ())

/-- The capabilities that `createAllocations` grants the orchestrator for an allocation. -/
def grantCaps (id : GoString) : AllocatorResult κ Unit := do
  answered "deriving allocation did" (env.allocationDID id)
  answered "granting allocation capabilities on allocation namespace" (env.grantAllocation id)
  answered "granting orch capabilities on ensemble namespace" (env.grantEnsemble id)

/-- The body of the loop of `createAllocations`. -/
def createOne (id : GoString) (b : Books κ) : Books κ × AllocatorResult κ Unit :=
  match ap.allocations.lookup id with
  | none => (b, .ok ())
  | some st =>
    match b.createAllocation env st.content.executionType id with
    | (b, .error e) => (b, .error (e.wrap ("create allocation " ++ printed id)))
    | (b, .ok _) => (b, grantCaps env id)

def createAllocations (b : Books κ) : Books κ × AllocatorResult κ Unit :=
  if ap.allocations.keys = [] then
    (b, .error (.new (.answer ("no allocations to create for ensembleID: " ++
      printed ap.ensembleID))))
  else if env.supervisor = false then (b, .error (.new (.answer "invalid supervisor handle")))
  else sweep (createOne env ap) (env.createOrder.visit ap.allocations.keys) b

def connect (id : GoString) (created : List GoString) : List GoString × AllocatorResult κ Unit :=
  match ap.allocations.lookup id with
  | none => (created, .ok ())
  | some st =>
    let subnet := if st.content.subnetID ∈ created then .ok ()
      else env.createSubnet st.content.subnetID
    match answered ("create subnet on restore of " ++ printed ap.ensembleID) subnet with
    | .error e => (created, .error e)
    | .ok _ =>
      match answered ("join subnet on restore of " ++ printed ap.ensembleID) (env.join id) with
      | .error e => (st.content.subnetID :: created, .error e)
      | .ok _ =>
        (st.content.subnetID :: created,
          answered ("map ports on restore of " ++ printed ap.ensembleID) (env.mapPorts id))

def runOne (id : GoString) (b : Books κ) : Books κ × AllocatorResult κ Unit :=
  if id ∉ b.allocator.allocations then
    (b, .error ((GoError.new (.answer "allocation not found")).wrap
      ("get allocation " ++ printed id ++ " after restore")))
  else (b, answered ("run allocation " ++ printed id ++ " after restore") (env.run id))

/-- The steps after the allocations have been created, which leave the books as they are. -/
def operate (b : Books κ) : Books κ × AllocatorResult κ Unit :=
  match (sweep (connect env ap) (env.networkOrder.visit ap.allocations.keys) []).2 with
  | .error e => (b, .error e)
  | .ok _ =>
    match answered ("add ensemble behaviors for restored alloc " ++ printed ap.ensembleID)
        env.addBehaviors with
    | .error e => (b, .error e)
    | .ok _ => sweep (runOne env) (env.runOrder.visit ap.allocations.keys) b

/-- `restoreAllocations` without the deferred function. -/
def tryRestore (b : Books κ) : Books κ × AllocatorResult κ Unit :=
  match sweep (commitOne env ap) (env.commitOrder.visit ap.allocations.keys) b with
  | (b, .error e) => (b, .error e)
  | (b, .ok _) =>
    match b.createAllocations env ap with
    | (b, .error e) =>
      (b, .error (e.wrap ("create allocations for persisted alloc " ++ printed ap.ensembleID)))
    | (b, .ok _) => b.operate env ap

/-- What the rollback does for one allocation; errors are only logged. -/
def rollbackOne (b : Books κ) (id : GoString) : Books κ :=
  { b with allocator := ((b.allocator.release (env.release id) id).1.uncommit id).1 }

def rollbackRestoredAlloc (b : Books κ) : Books κ :=
  (env.rollbackOrder.visit ap.allocations.keys).foldl (rollbackOne env) b

def restoreAllocations (b : Books κ) : Books κ × AllocatorResult κ Unit :=
  match b.tryRestore env ap with
  | (b, .error e) => (b.rollbackRestoredAlloc env ap, .error e)
  | (b, .ok _) => (b, .ok ())

end Books

end DMS.Node
