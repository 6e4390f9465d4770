import DMS.Jobs.Ensemble

/-! # Bids and manifests

`dms/jobs/types/bid.go` and `manifest.go`, with the keys and identifiers of allocations
that `types/default_id_generators.go` generates. A manifest says what an ensemble runs
on: its allocations are kept under the keys `node.allocation`.
-/

namespace DMS.Jobs

structure Handle where
  id : GoString
  did : GoString
  hostID : GoString
  inboxAddress : GoString
deriving DecidableEq, Repr

def Handle.zero : Handle := ⟨[], [], [], []⟩

/-- `BidV1` -/
structure Bid where
  ensembleID : GoString
  nodeID : GoString
  peer : GoString
  location : Location
  handle : Handle
  pubAddress : GoString
deriving DecidableEq, Repr

def generateManifestKey (nodeID allocName : GoString) : Option GoString :=
  if nodeID = [] ∨ allocName = [] then none else some (nodeID ++ dot :: allocName)

def generateFullAllocationID (ensembleID nodeID allocName : GoString) : Option GoString :=
  if ensembleID = [] ∨ nodeID = [] ∨ allocName = [] then none
  else some (ensembleID ++ ascii "_" ++ nodeID ++ dot :: allocName)

/-- `AllocationIdentifier` without the identifier of the ensemble. -/
structure AllocationIdentifier where
  nodeID : GoString
  allocationName : GoString
  isStandby : Bool
  standbyIndex : Int
deriving DecidableEq, Repr

/-- The name of a standby node as `%s-standby-%d` prints it. -/
def standbyName (primary : GoString) (index : Int) : GoString :=
  primary ++ standbyInfix ++ (if index < 0 then ascii "-" else []) ++ itoa index.natAbs

def parseManifestKey (manifestKey : GoString) : Option AllocationIdentifier :=
  match cut standbyInfix manifestKey with
  | some (nodeID, rest) =>
    if (cut standbyInfix rest).isSome then none
    else
      match rest.splitOn dot with
      | [index, allocName] =>
        (atoi index).map fun i => ⟨standbyName nodeID i, allocName, true, i⟩
      | _ => none
  | none =>
    match manifestKey.splitOn dot with
    | [nodeID, allocName] => some ⟨nodeID, allocName, false, 0⟩
    | _ => none

/-- `AllocationIdentifier.String` for an identifier that was parsed from a key; its node
has the standby suffix already. -/
def AllocationIdentifier.fullID (ensembleID : GoString) (id : AllocationIdentifier) : GoString :=
  ensembleID ++ ascii "_" ++ id.nodeID ++ dot :: id.allocationName

inductive RedundancyRole
  | unset
  | primary
  | standby
deriving DecidableEq, Repr

/-- `unset` is the empty text of a value that no one has written. -/
inductive AllocationStatus
  | unset
  | pending
  | running
  | restarting
  | stopped
  | failed
  | completed
  | terminated
  | standby
deriving DecidableEq, Repr

structure AllocationManifest where
  id : GoString
  nodeID : GoString
  dnsName : GoString
  handle : Handle
  ports : GoMap Int Int
  status : AllocationStatus
  redundancyGroup : GoString
  isStandby : Bool

def AllocationManifest.zero : AllocationManifest where
  id := []
  nodeID := []
  dnsName := []
  handle := .zero
  ports := ∅
  status := .unset
  redundancyGroup := []
  isStandby := false

structure NodeManifest where
  id : GoString
  peer : GoString
  handle : Handle
  pubAddress : List GoString
  location : Option Location
  allocations : List GoString
  redundancyRole : RedundancyRole
  primaryNode : GoString
  standbyNodes : List GoString
  standbyIndex : Int

def NodeManifest.zero : NodeManifest where
  id := []
  peer := []
  handle := .zero
  pubAddress := []
  location := none
  allocations := []
  redundancyRole := .unset
  primaryNode := []
  standbyNodes := []
  standbyIndex := 0

structure EnsembleManifest where
  allocations : GoMap GoString AllocationManifest
  nodes : GoMap GoString NodeManifest

end DMS.Jobs
