import DMS.Core.Documents
import DMS.Jobs.Manifest

/-! # The persisted records of allocations

`saveAllocationsState` and `deletePersistedAllocationState` of `dms/node/alloc_recovery.go`,
and the callback `allocStatusUpdate` that calls them, in a goroutine of its own for each change of
a status: it reads the records and writes one of them back.
-/

namespace DMS.Node

open Jobs

/-- What is persisted of an allocation, with the fields that recovery reads as `content`. -/
structure AllocationState (γ : Type) where
  allocationID : GoString
  deploymentID : GoString
  content : γ

/-- `AllocationsStatePersist` without the identifier, which the database gives. -/
structure EnsembleRecord (γ : Type) where
  ensembleID : GoString
  allocations : GoMap GoString (AllocationState γ)

abbrev Records (γ : Type) := Documents (EnsembleRecord γ)

variable {γ : Type}

inductive RecordWrite (γ : Type)
  | nothing
  | create (record : EnsembleRecord γ)
  | update (id : Nat) (record : EnsembleRecord γ)
  | delete (id : Nat)

/-- What `saveAllocationsState` writes when the query has found the records of the ensemble
among `all`. Several records are only warned about. -/
def saveAllocationsState (all : List (Nat × EnsembleRecord γ)) (as : AllocationState γ) :
    RecordWrite γ :=
  match all.filter (·.2.ensembleID = as.deploymentID) with
  | [] => .create ⟨as.deploymentID, (∅ : GoMap GoString _).insert as.allocationID as⟩
  | [(id, record)] =>
    .update id { record with allocations := record.allocations.insert as.allocationID as }
  | _ => .nothing

/-- What `deletePersistedAllocationState` writes: the first record that lists the allocation. -/
def deletePersistedAllocationState (all : List (Nat × EnsembleRecord γ))
    (allocationID : GoString) : RecordWrite γ :=
  match all.find? (allocationID ∈ ·.2.allocations) with
  | none => .nothing
  | some (id, record) =>
    let rest := record.allocations.erase allocationID
    if rest.keys = [] then .delete id else .update id { record with allocations := rest }

/-- `createAllocStatePersist`, when the allocations of an ensemble are made. -/
def createAllocStatePersist (store : Records γ) (ensembleID : GoString) : Records γ :=
  match store.docs.filter (·.2.ensembleID = ensembleID) with
  | [] => store.create ⟨ensembleID, ∅⟩
  | _ => store

def RecordWrite.apply (store : Records γ) : RecordWrite γ → Records γ
  | .nothing => store
  | .create record => store.create record
  | .update id record => store.update id record
  | .delete id => store.delete id

/-- The cases of `allocStatusUpdate`: whether the allocation is saved or deleted, if any. -/
def recorded : AllocationStatus → Option Bool
  | .running => some true
  | .stopped => some false
  | .failed => some false
  | .completed => some false
  | .terminated => some false
  | _ => none

/-- What a callback holds after it has read the records. -/
structure Reading (γ : Type) where
  store : Records γ
  order : RangeOrder
  state : AllocationState γ

/-- A status change of an allocation whose callback has not finished. -/
structure Callback (γ : Type) where
  allocID : GoString
  status : AllocationStatus
  reading : Option (Reading γ)

structure ReadEnv (γ : Type) where
  /-- `GetAllocation` finds the allocation. -/
  found : Bool
  /-- The state of the node is `nodeStateRunning`. -/
  nodeRunning : Bool
  /-- `PersistState` has a private key to store. -/
  privKey : Bool
  content : γ
  findAll : Bool
  order : RangeOrder

structure TrackedAllocation where
  deploymentID : GoString
  status : AllocationStatus
  /-- The last status with a case in `allocStatusUpdate` was `Running`. -/
  lasting : Bool
deriving DecidableEq, Repr

/-- The allocations of a node, the persisted records, and the callbacks that are under way, the
oldest first. -/
structure RecordKeeper (γ : Type) where
  allocations : GoMap GoString TrackedAllocation
  store : Records γ
  pending : List (Callback γ)

/-- `PersistState`; without a private key it is the zero value. -/
def persistState [Inhabited γ] (env : ReadEnv γ) (allocID deploymentID : GoString) :
    AllocationState γ :=
  if env.privKey then ⟨allocID, deploymentID, env.content⟩ else ⟨[], [], default⟩

namespace Callback

def write (c : Callback γ) (r : Reading γ) : RecordWrite γ :=
  match recorded c.status with
  | none => .nothing
  | some true => saveAllocationsState (r.order.visit r.store.docs) r.state
  | some false => deletePersistedAllocationState (r.order.visit r.store.docs) c.allocID

def reads (c : Callback γ) (env : ReadEnv γ) : Bool :=
  match recorded c.status with
  | none => false
  | some true => env.found && env.findAll
  | some false => env.nodeRunning && env.findAll

end Callback

inductive KeeperStep (γ : Type)
  | change (allocID : GoString) (ns : AllocationStatus)
  | read (k : Nat) (env : ReadEnv γ)
  | finish (k : Nat) (stored : Bool)

namespace RecordKeeper

/-- `setStatus` with its goroutine. -/
def change (allocID : GoString) (ns : AllocationStatus) (s : RecordKeeper γ) : RecordKeeper γ :=
  match s.allocations.lookup allocID with
  | none => s
  | some t =>
    if t.status = ns then s
    else
      { s with
        allocations := s.allocations.insert allocID
          ⟨t.deploymentID, ns, (recorded ns).getD t.lasting⟩
        pending := s.pending ++ [⟨allocID, ns, none⟩] }

def drop (k : Nat) (s : RecordKeeper γ) : RecordKeeper γ :=
  { s with pending := s.pending.eraseIdx k }

/-- The part of a callback up to the query. Without a reading it is over. -/
def read [Inhabited γ] (k : Nat) (env : ReadEnv γ) (s : RecordKeeper γ) : RecordKeeper γ :=
  match s.pending[k]? with
  | some ⟨allocID, status, none⟩ =>
    if (⟨allocID, status, none⟩ : Callback γ).reads env then
      let deploymentID := ((s.allocations.lookup allocID).map (·.deploymentID)).getD []
      { s with
        pending := s.pending.set k ⟨allocID, status,
          some ⟨s.store, env.order, persistState env allocID deploymentID⟩⟩ }
    else s.drop k
  | _ => s

/-- The part of a callback after the query; the database may refuse to store. -/
def finish (k : Nat) (stored : Bool) (s : RecordKeeper γ) : RecordKeeper γ :=
  match s.pending[k]? with
  | some ⟨allocID, status, some r⟩ =>
    { s.drop k with
      store :=
        if stored then ((⟨allocID, status, some r⟩ : Callback γ).write r).apply s.store
        else s.store }
  | _ => s

def step [Inhabited γ] (s : RecordKeeper γ) : KeeperStep γ → RecordKeeper γ
  | .change allocID ns => s.change allocID ns
  | .read k env => s.read k env
  | .finish k stored => s.finish k stored

/-- New allocations with their deployments, after records have been created for the given
ensembles. -/
def start (deployments : GoMap GoString GoString) (ensembles : List GoString) : RecordKeeper γ where
  allocations := GoMap.mapValues (fun _ deploymentID => ⟨deploymentID, .pending, false⟩) deployments
  store := ensembles.foldl createAllocStatePersist .empty
  pending := []

end RecordKeeper

end DMS.Node
