import DMS.Core.Collection
import DMS.Core.GoMap
import DMS.Core.GoTime

/-! # The store of deployments

`Query` of `dms/orchestrator/deployments_store.go` over a document database. A document
has the fields that queries look at, and the deployment itself as the bytes of its JSON
form.
-/

namespace DMS.Orchestrator

open Collection

inductive DeploymentStatus
  | preparing
  | generating
  | committing
  | provisioning
  | running
  | updating
  | failed
  | shuttingDown
  | completed
deriving DecidableEq, Repr

def DeploymentStatus.string : DeploymentStatus → GoString
  | .preparing => ascii "Preparing"
  | .generating => ascii "Generating"
  | .committing => ascii "Committing"
  | .provisioning => ascii "Provisioning"
  | .running => ascii "Running"
  | .updating => ascii "Updating"
  | .failed => ascii "Failed"
  | .shuttingDown => ascii "ShuttingDown"
  | .completed => ascii "Completed"

/-- `OrchestratorView`; `metadata` is that of its manifest. -/
structure OrchestratorView where
  orchestratorID : GoString
  status : DeploymentStatus
  createdAt : GoTime
  updatedAt : GoTime
  completedAt : Option GoTime
  metadata : GoMap GoString GoString

/-- A document of the collection `deployments`, with times in seconds. `deployment` is
`none` when there are no data or they do not decode. -/
structure DeploymentDoc where
  orchestratorID : GoString
  status : DeploymentStatus
  createdAt : Int
  updatedAt : Int
  deployment : Option OrchestratorView

structure DeploymentQuery where
  orchestratorID : GoString
  statusFilter : List DeploymentStatus
  createdAfter : Option GoTime
  createdBefore : Option GoTime
  updatedAfter : Option GoTime
  updatedBefore : Option GoTime
  limit : Int
  offset : Int
  sortBy : GoString

/-- The conditions of `Query`, which hold together; a filter that is not set is none. -/
def DeploymentQuery.criteria (q : DeploymentQuery) (doc : DeploymentDoc) : Bool :=
  (q.orchestratorID = [] ∨ doc.orchestratorID = q.orchestratorID) ∧
  (q.statusFilter = [] ∨ doc.status ∈ q.statusFilter) ∧
  (∀ t ∈ q.createdAfter, t.unix ≤ doc.createdAt) ∧
  (∀ t ∈ q.createdBefore, doc.createdAt ≤ t.unix) ∧
  (∀ t ∈ q.updatedAfter, t.unix ≤ doc.updatedAt) ∧
  (∀ t ∈ q.updatedBefore, doc.updatedAt ≤ t.unix)

def mapSortField (field : GoString) : GoString :=
  if field = ascii "created_at" ∨ field = ascii "createdAt" then ascii "created_at"
  else if field = ascii "updated_at" ∨ field = ascii "updatedAt" then ascii "updated_at"
  else if field = ascii "status" then ascii "status"
  else field

/-- The order a query asks for: newest first unless it names a field, in descending order
behind a minus. -/
def DeploymentQuery.sort (q : DeploymentQuery) : SortOption :=
  match q.sortBy with
  | [] => ⟨ascii "created_at", -1⟩
  | 45 :: field => ⟨mapSortField field, -1⟩
  | field => ⟨mapSortField field, 1⟩

/-- `Query`. A sum past the largest `int` would turn negative, which is no limit; a limit
that large leaves nothing out either. -/
def queryDeployments (db : Collection DeploymentDoc) (q : DeploymentQuery) :
    List OrchestratorView × Int :=
  let totalDocs := db.count q.criteria
  let effectiveLimit := if q.limit ≤ 0 then 1000 else q.limit
  let allDocs := db.findAll q.criteria q.sort
    (if 0 < q.offset then q.offset + effectiveLimit else effectiveLimit)
  let docs :=
    if 0 < q.offset then
      if q.offset < allDocs.length then
        let docs := allDocs.drop q.offset.toNat
        if 0 < q.limit ∧ q.limit < docs.length then docs.take q.limit.toNat else docs
      else []
    else allDocs
  (docs.filterMap fun doc => doc.deployment, totalDocs)

theorem queryDeployments_window (db : Collection DeploymentDoc) {q : DeploymentQuery}
    {size off : Nat} (hlimit : q.limit = size) (hsize : 1 ≤ size) (hoffset : q.offset = off) :
    queryDeployments db q =
      ((((db.arrange q.sort (db.docs.filter q.criteria)).drop off).take size).filterMap
        fun doc => doc.deployment, ((db.docs.filter q.criteria).length : Int)) := by
  unfold queryDeployments count findAll limit findSorted
  generalize db.arrange q.sort (db.docs.filter q.criteria) = sorted
  have hpos : ¬ q.limit ≤ 0 := by omega
  dsimp only
  rw [if_neg hpos, hlimit, hoffset]
  cases off with
  | zero =>
    have hbound : ¬ (size : Int) < 0 := by omega
    simp [hbound]
  | succ off =>
    have hlong : 0 < ((off + 1 : Nat) : Int) := by omega
    have hbound : ¬ (off + 1 : Nat) + (size : Int) < 0 := by omega
    have htoNat : ((off + 1 : Nat) + (size : Int)).toNat = off + 1 + size := by
      omega
    rw [if_pos hlong, if_pos hlong, if_neg hbound, htoNat, Int.toNat_natCast, Int.toNat_natCast]
    have hwindow : (sorted.take (off + 1 + size)).drop (off + 1) =
        (sorted.drop (off + 1)).take size := by
      rw [List.drop_take, Nat.add_sub_cancel_left]
    congr 2
    split
    · rw [hwindow]
      split
      · rw [List.take_take, Nat.min_self]
      · rfl
    rename_i hend
    rw [List.length_take] at hend
    have hpast : sorted.length ≤ off + 1 := by omega
    rw [List.drop_of_length_le hpast, List.take_nil]

end DMS.Orchestrator
