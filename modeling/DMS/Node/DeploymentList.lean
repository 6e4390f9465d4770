import DMS.Core.Paging
import DMS.Orchestrator.DeploymentsStore

/-! # Listing deployments

`handleDeploymentList` of `dms/node/behaviors_deployment.go`. The store applies the
filters it can see, the offset and the limit; the handler then drops the deployments whose
metadata do not match, and counts what is left for the offset of the next page.
-/

namespace DMS.Node

open Orchestrator

structure DeploymentListRequest where
  metadata : GoMap GoString GoString
  limit : Int
  offset : Int
  status : List DeploymentStatus
  id : GoString
  createdAfter : Option GoTime
  createdBefore : Option GoTime
  updatedAfter : Option GoTime
  updatedBefore : Option GoTime
  sortBy : GoString

structure DeploymentInfo where
  orchestratorID : GoString
  status : GoString
  createdAt : GoTime
  updatedAt : GoTime
  completedAt : Option GoTime
  metadata : GoMap GoString GoString

structure DeploymentListResponse where
  deployments : List DeploymentInfo
  total : Int
  hasMore : Bool
  nextOffset : Int

def DeploymentListRequest.query (request : DeploymentListRequest) : DeploymentQuery where
  orchestratorID := request.id
  statusFilter := request.status
  createdAfter := request.createdAfter
  createdBefore := request.createdBefore
  updatedAfter := request.updatedAfter
  updatedBefore := request.updatedBefore
  limit := request.limit
  offset := request.offset
  sortBy := request.sortBy

def shouldIncludeDeployment (deployment : OrchestratorView)
    (metadataFilter : GoMap GoString GoString) : Bool :=
  metadataFilter.entries.all fun e => deployment.metadata.lookup e.1 = some e.2

def DeploymentInfo.of (deployment : OrchestratorView) : DeploymentInfo where
  orchestratorID := deployment.orchestratorID
  status := deployment.status.string
  createdAt := deployment.createdAt
  updatedAt := deployment.updatedAt
  completedAt := deployment.completedAt
  metadata := deployment.metadata

section

variable (db : Collection DeploymentDoc) (request : DeploymentListRequest)

/-- `handleDeploymentList` for a request that decodes, over a database that answers. -/
def handleDeploymentList : DeploymentListResponse :=
  let (deployments, total) := queryDeployments db request.query
  let filteredDeployments :=
    (deployments.filter fun d => shouldIncludeDeployment d request.metadata).map .of
  let hasMore : Bool := 0 < request.limit ∧ request.offset + filteredDeployments.length < total
  { deployments := filteredDeployments
    total := if request.metadata.entries ≠ [] then filteredDeployments.length else total
    hasMore
    nextOffset := if hasMore then request.offset + filteredDeployments.length else 0 }

/-- Calling again with the offset of the last reply for as long as it says that there is
more; `none` when that takes more than `fuel` calls. -/
def listPages : Nat → Int → Option (List DeploymentInfo)
  | 0, _ => none
  | fuel + 1, offset =>
    let resp := handleDeploymentList db { request with offset }
    if resp.hasMore then
      (listPages fuel resp.nextOffset).map (resp.deployments ++ ·)
    else some resp.deployments

def listed (doc : DeploymentDoc) : Option DeploymentInfo :=
  (doc.deployment.filter fun d => shouldIncludeDeployment d request.metadata).map .of

def matching : List DeploymentInfo :=
  (db.docs.filter request.query.criteria).filterMap (listed request)

/-- Paging from the start ends, and has then listed every match exactly once. -/
def PagingComplete : Prop :=
  ∃ calls infos, listPages db request calls 0 = some infos ∧ infos.Perm (matching db request)

def sortedDocs : List DeploymentDoc :=
  db.arrange request.query.sort (db.docs.filter request.query.criteria)

theorem sortedDocs_perm : (sortedDocs db request).Perm (db.docs.filter request.query.criteria) :=
  db.perm ..

end

variable {request : DeploymentListRequest} {size : Nat}

section Pages

variable (db : Collection DeploymentDoc) (hlimit : request.limit = size)
  (hsize : 1 ≤ size)

include hlimit hsize

theorem handleDeploymentList_page (offset : Nat) :
    let resp := handleDeploymentList db { request with offset }
    let seen := Paging.page (listed request) size (sortedDocs db request) offset
    resp.deployments = seen ∧
      (resp.hasMore = true ↔ offset + seen.length < (sortedDocs db request).length) ∧
      (resp.hasMore = true → resp.nextOffset = (offset + seen.length : Nat)) := by
  have hwindow := queryDeployments_window db (q := { request.query with offset }) hlimit hsize rfl
  have hquery : { request with offset }.query = { request.query with offset } := rfl
  have hlen : (db.docs.filter { request.query with offset }.criteria).length =
      (sortedDocs db request).length := (sortedDocs_perm db request).length_eq.symm
  rw [handleDeploymentList, hquery, hwindow]
  dsimp only
  rw [List.filter_filterMap, List.map_filterMap, hlen]
  refine ⟨rfl, ?_, ?_⟩
  · rw [decide_eq_true_iff]
    show (0 < request.limit ∧
        (offset : Int) + (Paging.page (listed request) size (sortedDocs db request) offset).length <
          (sortedDocs db request).length) ↔ _
    omega
  intro hmore
  rw [if_pos hmore]
  rfl

theorem listPages_eq_collect (calls offset : Nat) : listPages db request calls offset =
      Paging.collect (listed request) size (sortedDocs db request) calls offset := by
  induction calls generalizing offset with
  | zero => rfl
  | succ calls ih =>
    obtain ⟨hseen, hmore, hnext⟩ := handleDeploymentList_page db hlimit hsize offset
    unfold listPages Paging.collect
    dsimp only
    split
    · next h => rw [hnext h, hseen, ih, if_pos (hmore.mp h)]
    · next h => rw [hseen, if_neg (hmore.not.mp h)]

theorem pagingComplete_iff_complete :
    PagingComplete db request ↔ Paging.Complete (listed request) size (sortedDocs db request) := by
  have hmatch : (matching db request).Perm ((sortedDocs db request).filterMap (listed request)) :=
    ((sortedDocs_perm db request).filterMap _).symm
  have heq := listPages_eq_collect db hlimit hsize
  constructor
  · rintro ⟨calls, infos, hinfos, hperm⟩
    exact ⟨calls, infos, (heq calls 0).symm.trans hinfos, hperm.trans hmatch⟩
  · rintro ⟨calls, infos, hinfos, hperm⟩
    exact ⟨calls, infos, (heq calls 0).trans hinfos, hperm.trans hmatch.symm⟩

end Pages

def Included (request : DeploymentListRequest) (doc : DeploymentDoc) : Prop :=
  ∃ d, doc.deployment = some d ∧ shouldIncludeDeployment d request.metadata = true

theorem isSome_listed {doc} : (listed request doc).isSome ↔ Included request doc := by
  unfold listed Included
  cases doc.deployment with
  | none => simp
  | some d => simp [Option.isSome_filter]

/-- Paging is complete exactly when the handler has nothing left to filter: what the
conditions of the store let through also matches the metadata of the request. -/
theorem pagingComplete_iff (db : Collection DeploymentDoc) (request : DeploymentListRequest)
    (hlimit : 1 ≤ request.limit) : PagingComplete db request ↔
      ∀ doc ∈ db.docs, request.query.criteria doc = true → Included request doc := by
  have hsize : request.limit = request.limit.toNat := by omega
  rw [pagingComplete_iff_complete db hsize (by omega), Paging.complete_iff (by omega)]
  simp [(sortedDocs_perm db request).mem_iff, List.mem_filter, and_imp, isSome_listed]

def sampleView (name : String) (metadata : GoMap GoString GoString) : OrchestratorView where
  orchestratorID := ascii name
  status := .running
  createdAt := .unixEpoch
  updatedAt := .unixEpoch
  completedAt := none
  metadata

def sampleDoc (view : OrchestratorView) : DeploymentDoc where
  orchestratorID := view.orchestratorID
  status := view.status
  createdAt := view.createdAt.unix
  updatedAt := view.updatedAt.unix
  deployment := some view

def tagged (team : String) : GoMap GoString GoString := AList.singleton (ascii "team") (ascii team)

def sampleDeployments : Collection DeploymentDoc where
  docs :=
    [sampleDoc (sampleView "one" (tagged "red")), sampleDoc (sampleView "two" (tagged "blue"))]
  arrange _ l := l
  perm _ _ := List.Perm.refl _

def sampleListRequest (limit : Int) (metadata : GoMap GoString GoString) :
    DeploymentListRequest where
  metadata
  limit
  offset := 0
  status := []
  id := []
  createdAfter := none
  createdBefore := none
  updatedAfter := none
  updatedBefore := none
  sortBy := []

/-- Page by page without a filter. -/
theorem pagingComplete_unfiltered : 1 ≤ (sampleListRequest 1 ∅).limit ∧
      PagingComplete sampleDeployments (sampleListRequest 1 ∅) := by
  refine ⟨by decide, (pagingComplete_iff sampleDeployments (sampleListRequest 1 ∅)
    (by decide)).mpr ?_⟩
  intro doc hdoc _
  rcases List.mem_cons.mp hdoc with rfl | hdoc
  · exact ⟨_, rfl, rfl⟩
  · obtain rfl := List.mem_singleton.mp hdoc
    exact ⟨_, rfl, rfl⟩

/-- The deployment of the blue team comes second. The first page of one deployment has
nothing on it, and the offset of the next page is that of the first. -/
theorem pagingComplete_filtered_fails :
    handleDeploymentList sampleDeployments (sampleListRequest 1 (tagged "blue")) =
        { deployments := [], total := 0, hasMore := true, nextOffset := 0 } ∧
      (matching sampleDeployments (sampleListRequest 1 (tagged "blue"))).length = 1 ∧
      ¬ PagingComplete sampleDeployments (sampleListRequest 1 (tagged "blue")) := by
  refine ⟨rfl, rfl, ?_⟩
  have hlimit : (sampleListRequest 1 (tagged "blue")).limit = 1 := rfl
  rw [pagingComplete_iff_complete _ hlimit (Nat.le_refl 1), Paging.complete_iff (Nat.le_refl 1)]
  intro hall
  have hfirst := hall (sampleDoc (sampleView "one" (tagged "red"))) (.head _)
  revert hfirst
  decide

end DMS.Node
