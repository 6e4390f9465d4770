import DMS.Orchestrator.Bid

/-! # Committing a candidate

`newManifest` of `dms/orchestrator/orchestrator.go` and the `Committer` of `commit.go`.
The requests to the nodes run in parallel; what becomes of each of them and the order in
which the goroutines of a phase end are inputs.
-/

namespace DMS.Orchestrator

open Jobs AllocationManifest GoMap AList Option

inductive Reply
  | noMessage (text : String)
  | notInvoked (text : String)
  | timeout
  | unreadable (text : String)
  | refused (text : String)
  | ok
deriving DecidableEq, Repr

def Reply.sent : Reply → Bool
  | .noMessage _ => false
  | .notInvoked _ => false
  | _ => true

/-- Allocations that the configuration does not have and keys that cannot be generated are
skipped. -/
def nodeAllocations (cfg : EnsembleConfig) (name : GoString) (allocations : List GoString) :
    List GoString :=
  allocations.filterMap fun allocName =>
    (cfg.allocation allocName).bind fun _ => generateManifestKey name allocName

def newNodeManifest (cfg : EnsembleConfig) (name : GoString) (node : NodeConfig) :
    NodeManifest where
  id := name
  peer := node.peer
  handle := .zero
  pubAddress := []
  location := none
  allocations := nodeAllocations cfg name node.allocations
  redundancyRole := .unset
  primaryNode := []
  standbyNodes :=
    (List.range node.redundancy.toNat).filterMap fun i => generateStandbyNodeID name (i + 1)
  standbyIndex := 0

def newAllocationManifest (eid : GoString) (cfg : EnsembleConfig) (nodeID : GoString)
    (nodeManifest : NodeManifest) (allocKey : GoString) :
    Option (GoString × AllocationManifest) :=
  match allocKey.splitOn dot with
  | [_, configAllocName] =>
    (cfg.allocation configAllocName).bind fun alloc =>
      (generateFullAllocationID eid nodeID configAllocName).map fun fullAllocID =>
        (allocKey, {
            id := fullAllocID
            nodeID := nodeID
            dnsName := alloc.dnsName ++ ascii ".internal"
            handle := .zero
            ports := ∅
            status := .pending
            redundancyGroup := configAllocName
            isStandby := nodeManifest.redundancyRole = .standby })
  | _ => none

def newManifest (eid : GoString) (cfg : EnsembleConfig) : EnsembleManifest :=
  let nodes := cfg.nodes.mapValues (newNodeManifest cfg)
  { nodes := nodes
    allocations := GoMap.insertAll
      (nodes.entries.flatMap fun e =>
        e.2.allocations.filterMap (newAllocationManifest eid cfg e.1 e.2)) ∅ }

theorem mem_nodeAllocations {cfg n key l} : key ∈ nodeAllocations cfg n l ↔
      ∃ a ∈ l, a ∈ cfg.allocations ∧ generateManifestKey n a = some key := by
  unfold nodeAllocations EnsembleConfig.allocation
  simp only [List.mem_filterMap, bind_eq_some_iff]
  constructor
  · rintro ⟨a, ha, acfg, hacfg, hkey⟩
    exact ⟨a, ha, mem_of_lookup hacfg, hkey⟩
  rintro ⟨a, ha, hacfg, hkey⟩
  obtain ⟨acfg, hl⟩ := exists_lookup hacfg
  exact ⟨a, ha, acfg, hl, hkey⟩

theorem newManifest_lookup (eid : GoString) (cfg : EnsembleConfig) (n : GoString) :
    (newManifest eid cfg).nodes.lookup n = (cfg.nodes.lookup n).map (newNodeManifest cfg n) :=
  lookup_mapValues ..

/-- `CommitDeploymentRequest`, with the handle that it is sent to. -/
structure CommitRequest where
  dest : Handle
  ensembleID : GoString
  allocationName : GoString
  nodeID : GoString
  portMapping : GoMap Int Int
  numDynamicPorts : Nat

structure Sent where
  request : CommitRequest
  reply : Reply

def deployedConfig (cfg : EnsembleConfig) (n : GoString) : Option NodeConfig :=
  match parseNodeName n with
  | some (primaryNode, _) => cfg.node primaryNode
  | none => cfg.node n

def getAllocPortMapping (ncfg : NodeConfig) (allocName : GoString) : GoMap Int Int :=
  GoMap.insertAll
    ((ncfg.ports.filter fun pc => pc.allocation = allocName).map
      fun pc => (pc.publicPort, pc.privatePort)) ∅

def getDynamicPortsNum (ncfg : NodeConfig) (allocName : GoString) : Nat :=
  (ncfg.ports.filter fun pc => pc.allocation = allocName ∧ pc.publicPort = 0).length

def commitError (n : GoString) : Reply → Option String
  | .noMessage text => some s!"failed to create commit message for {printed n}: {text}"
  | .notInvoked text => some s!"failed to invoke commit for {printed n}: {text}"
  | .timeout => some s!"timeout committing for {printed n}: failed to create deployment"
  | .unreadable text => some s!"error unmarshalling commit response for {printed n}: {text}"
  | .refused text =>
    some s!"error committing for {printed n}: {text}: failed to create deployment"
  | .ok => none

/-- The goroutine of one allocation: its request, if there is one, and its error. -/
def commitAllocation (cfg : EnsembleConfig) (eid n : GoString) (h : Handle) (ncfg : NodeConfig)
    (allocName : GoString) (reply : Reply) : Option Sent × Option String :=
  match cfg.allocation allocName with
  | none =>
    (none, some s!"allocation {printed allocName} not found: failed to create deployment")
  | some _ =>
    match generateFullAllocationID eid n allocName with
    | none =>
      (none, some (s!"failed to generate full allocation ID for {printed n}." ++
        s!"{printed allocName}: ensembleID, nodeID, and allocName cannot be empty"))
    | some fullAllocID =>
      (if reply.sent then
        some
          { request := {
                dest := h
                ensembleID := eid
                allocationName := fullAllocID
                nodeID := n
                portMapping := getAllocPortMapping ncfg allocName
                numDynamicPorts := getDynamicPortsNum ncfg allocName }
            reply := reply }
      else none, commitError n reply)

/-- The requests of one node and the errors of its goroutines. -/
structure Commitment where
  sent : List Sent
  errs : List String

/-- `commitDeployment`. `replies` gives what becomes of the request of the allocation at
each position; the errors come in the order in which the goroutines end. -/
def commitDeployment (cfg : EnsembleConfig) (eid n : GoString) (h : Handle)
    (replies : Nat → Reply) (order : RangeOrder) : Commitment :=
  match deployedConfig cfg n with
  | none => ⟨[], [s!"node {printed n} not found"]⟩
  | some ncfg =>
    let outcomes := ncfg.allocations.zipIdx.map fun a =>
      commitAllocation cfg eid n h ncfg a.1 (replies a.2)
    ⟨outcomes.filterMap Prod.fst, order.visit (outcomes.filterMap Prod.snd)⟩

/-- The answer to an `AllocationDeploymentRequest`, with the handles that it holds. -/
structure AllocateReply where
  reply : Reply
  allocations : GoMap GoString Handle

def allocateError (n : GoString) : Reply → String
  | .noMessage text => s!"failed to create allocation message for {printed n}: {text}"
  | .notInvoked text => s!"failed to invoke allocate for {printed n}: {text}"
  | .timeout => s!"timeout in allocation for {printed n}: %!w(<nil>)"
  | .unreadable text => s!"unmarshalling allocation response: {text}"
  | .refused text => s!"allocation for {printed n} failed: {text}: failed to create deployment"
  | .ok => ""

def allocate (cfg : EnsembleConfig) (eid n : GoString) (answer : AllocateReply) :
    Except String (GoMap GoString Handle) :=
  match deployedConfig cfg n with
  | none => .error s!"node not found for {printed n}"
  | some ncfg =>
    if ncfg.allocations = [] then .ok ∅
    else
      match ncfg.allocations.find? fun a => (generateFullAllocationID eid n a).isNone with
      | some a =>
        .error (s!"failed to generate full allocation ID for {printed n}.{printed a}: " ++
          "ensembleID, nodeID, and allocName cannot be empty")
      | none =>
        if answer.reply ≠ .ok then .error (allocateError n answer.reply)
        else
          let fullAllocIDs := ncfg.allocations.filterMap (generateFullAllocationID eid n)
          match fullAllocIDs.find? fun a => a ∉ answer.allocations with
          | some a =>
            .error (s!"missing allocation {printed a} for {printed n}: " ++
              "failed to create deployment")
          | none => .ok answer.allocations

structure CommitInputs where
  replies : GoString → Nat → Reply
  ended : GoString → RangeOrder
  committed : RangeOrder
  answers : GoString → AllocateReply
  allocated : RangeOrder
  filled : RangeOrder
  updated : RangeOrder

def updateNodeManifest (m : GoMap GoString NodeManifest) (nodeName : GoString)
    (fn : NodeManifest → NodeManifest) : Except String (GoMap GoString NodeManifest) :=
  match m.lookup nodeName with
  | some node => .ok (m.insert nodeName (fn node))
  | none => .error s!"node {printed nodeName} not found"

section Phases

variable (cfg : EnsembleConfig) (eid : GoString) (inputs : CommitInputs)

def commitOf (e : Σ _ : GoString, Bid) : Commitment :=
  commitDeployment cfg eid e.1 e.2.handle (inputs.replies e.1) (inputs.ended e.1)

/-- What a goroutine of the first phase does under the lock. The handle of the node is
recorded only when all of its allocations were committed. -/
def recordHandle (s : GoMap GoString NodeManifest × Bool) (e : Σ _ : GoString, Bid) :
    GoMap GoString NodeManifest × Bool :=
  if (commitOf cfg eid inputs e).errs ≠ [] then (s.1, false)
  else
    match updateNodeManifest s.1 e.1 fun n => { n with handle := e.2.handle } with
    | .ok nodes => (nodes, s.2)
    | .error _ => (s.1, false)

def recordAllocations (s : GoMap GoString Handle × Bool) (e : Σ _ : GoString, Bid) :
    GoMap GoString Handle × Bool :=
  match allocate cfg eid e.1 (inputs.answers e.1) with
  | .error _ => (s.1, false)
  | .ok allocated => (GoMap.insertAll (allocated.entries.map fun a => (a.1, a.2)) s.1, s.2)

end Phases

def nodeRole (n : GoString) : RedundancyRole × GoString × Int :=
  match parseNodeName n with
  | some (primaryNode, standbyIndex) => (.standby, primaryNode, standbyIndex)
  | none => (.primary, n, 0)

def fillEntry (n : GoString) (bid : Bid) : Option NodeManifest → NodeManifest
  | some nmf =>
    { nmf with
      peer := bid.peer
      pubAddress := nmf.pubAddress ++ [bid.pubAddress]
      handle := bid.handle
      location := some bid.location
      redundancyRole := (nodeRole n).1
      primaryNode := (nodeRole n).2.1
      standbyIndex := (nodeRole n).2.2 }
  | none =>
    { id := n
      peer := bid.peer
      handle := bid.handle
      pubAddress := [bid.pubAddress]
      location := some bid.location
      allocations := []
      redundancyRole := (nodeRole n).1
      primaryNode := (nodeRole n).2.1
      standbyNodes :=
        if (nodeRole n).1 = .standby then []
        else (List.range (nodeRole n).2.2.toNat).map fun i =>
          standbyName (nodeRole n).2.1 (i + 1)
      standbyIndex := (nodeRole n).2.2 }

def fillNode (nodes : GoMap GoString NodeManifest) (e : Σ _ : GoString, Bid) :
    GoMap GoString NodeManifest :=
  nodes.insert e.1 (fillEntry e.1 e.2 (nodes.lookup e.1))

structure Placement where
  allocationNodes : GoMap GoString GoString
  portsByAllocation : GoMap GoString (List PortConfig)

def processNodeAllocations (cfg : EnsembleConfig) (p : Placement) (nodeID : GoString) : Placement :=
  match deployedConfig cfg nodeID with
  | none => p
  | some nodeConfig =>
    nodeConfig.allocations.foldl
      (fun p allocName =>
        match generateManifestKey nodeID allocName with
        | none => p
        | some manifestKey =>
          { allocationNodes := p.allocationNodes.insert manifestKey nodeID
            portsByAllocation := (nodeConfig.ports.filter fun pc => pc.allocation = allocName).foldl
                (fun m pc => m.push allocName pc) p.portsByAllocation })
      p

/-- `updateManifestAllocations`, for one key that a node lists. -/
def updateManifestAllocation (eid : GoString) (p : Placement)
    (allocations : GoMap GoString Handle) (nodeManifest : NodeManifest)
    (m : GoMap GoString AllocationManifest) (allocName : GoString) :
    GoMap GoString AllocationManifest :=
  match parseManifestKey allocName, m.lookup allocName with
  | some allocID, some alloc =>
    m.insert allocName
      { alloc with
        nodeID := (p.allocationNodes.lookup allocName).getD []
        handle := (allocations.lookup (allocID.fullID eid)).getD .zero
        ports := GoMap.insertAll
          ((p.portsByAllocation.list allocID.allocationName).map
            fun pc => (pc.publicPort, pc.privatePort)) ∅
        isStandby := nodeManifest.redundancyRole = .standby
        redundancyGroup := allocID.allocationName }
  | _, _ => m

def updateManifestAllocations (eid : GoString) (p : Placement)
    (allocations : GoMap GoString Handle) (order : RangeOrder) (manifest : EnsembleManifest) :
    EnsembleManifest :=
  { manifest with
    allocations := (order.visit manifest.nodes.entries).foldl
      (fun m e => e.2.allocations.foldl (updateManifestAllocation eid p allocations e.2) m)
      manifest.allocations }

/-- The manifest that is returned with or without an error, and the requests that were
sent. -/
structure CommitRun where
  manifest : EnsembleManifest
  error : Option (GoError BidCause)
  sent : List Sent

def commit (cfg : EnsembleConfig) (eid : GoString) (manifest : EnsembleManifest)
    (candidate : Candidate) (inputs : CommitInputs) : CommitRun :=
  let sent := candidate.entries.flatMap fun e => (commitOf cfg eid inputs e).sent
  let (nodes, ok) := (inputs.committed.visit candidate.entries).foldl
    (recordHandle cfg eid inputs) (manifest.nodes, true)
  let manifest := { manifest with nodes := nodes }
  if ok = false then
    ⟨manifest, some ((GoError.new .deploymentFailed).wrap "failed to commit resources"), sent⟩
  else
    let (allocations, ok) := (inputs.allocated.visit candidate.entries).foldl
      (recordAllocations cfg eid inputs) (∅, true)
    if ok = false then
      ⟨manifest, some ((GoError.new .deploymentFailed).wrap "failed to allocate resources"), sent⟩
    else
      let entries := inputs.filled.visit candidate.entries
      let manifest := { manifest with nodes := entries.foldl fillNode manifest.nodes }
      let placement := (entries.map Sigma.fst).foldl (processNodeAllocations cfg) ⟨∅, ∅⟩
      ⟨updateManifestAllocations eid placement allocations inputs.updated manifest, none, sent⟩

section Effects

variable {cfg : EnsembleConfig} {eid : GoString} {inp : CommitInputs}

def recorded (cfg : EnsembleConfig) (eid : GoString) (inputs : CommitInputs)
    (candidate : Candidate) (n : GoString) (nmf : NodeManifest) : NodeManifest :=
  match candidate.lookup n with
  | none => nmf
  | some bid =>
    if (commitOf cfg eid inputs ⟨n, bid⟩).errs = [] then { nmf with handle := bid.handle }
    else nmf

def filled (candidate : Candidate) (n : GoString) (nmf : NodeManifest) : NodeManifest :=
  match candidate.lookup n with
  | none => nmf
  | some bid => fillEntry n bid (some nmf)

@[simp] theorem filled_allocations (c : Candidate) (n : GoString) (nmf : NodeManifest) :
    (filled c n nmf).allocations = nmf.allocations := by
  unfold filled
  split <;> rfl

theorem recordHandle_lookup (s : GoMap GoString NodeManifest × Bool) (n : GoString) (bid : Bid)
    (n' : GoString) : (recordHandle cfg eid inp s ⟨n, bid⟩).1.lookup n' = if n' = n then
        (s.1.lookup n).map fun nmf =>
          if (commitOf cfg eid inp ⟨n, bid⟩).errs = [] then { nmf with handle := bid.handle }
          else nmf
      else s.1.lookup n' := by
  unfold recordHandle updateNodeManifest
  by_cases hn : n' = n
  · subst hn
    by_cases herr : (commitOf cfg eid inp ⟨n', bid⟩).errs = []
    · cases hl : s.1.lookup n' with
      | none => simp [herr, hl]
      | some nmf => simp [herr]
    · cases hl : s.1.lookup n' with
      | none | some nmf => simp [herr, hl]
  split
  · rfl
  cases hl : s.1.lookup n with
  | none => simp
  | some nmf => simp [lookup_insert_ne hn]

theorem recordHandle_ok (s : GoMap GoString NodeManifest × Bool) (e : Σ _, Bid) :
    (recordHandle cfg eid inp s e).2 = true ↔
      s.2 = true ∧ (commitOf cfg eid inp e).errs = [] ∧ e.1 ∈ s.1 := by
  rw [recordHandle, updateNodeManifest, ← lookup_isSome]
  by_cases herr : (commitOf cfg eid inp e).errs = []
  · cases hl : s.1.lookup e.1 <;> simp [herr]
  · simp [herr]

variable {n key : GoString} {order : RangeOrder} {c : Candidate} {p : Placement}
  {allocations : GoMap GoString Handle} {mf : EnsembleManifest}

theorem mem_recordHandle {s e} : n ∈
    (recordHandle cfg eid inp s e).1 ↔ n ∈ s.1 := by
  rw [← lookup_isSome, ← lookup_isSome, recordHandle_lookup]
  split
  · next h => subst h; rw [isSome_map]
  · exact Iff.rfl

theorem foldl_recordHandle_ok (l : List (Σ _, Bid))
    (s : GoMap GoString NodeManifest × Bool) : (l.foldl (recordHandle cfg eid inp) s).2 = true ↔
      s.2 = true ∧ ∀ e ∈ l, (commitOf cfg eid inp e).errs = [] ∧ e.1 ∈ s.1 := by
  induction l generalizing s with
  | nil => simp
  | cons e l ih =>
    rw [List.foldl_cons, ih, recordHandle_ok]
    simp only [mem_recordHandle, List.forall_mem_cons]
    exact and_assoc

theorem committed_lookup (mf : EnsembleManifest) (c : Candidate) (n : GoString) :
    ((inp.committed.visit c.entries).foldl (recordHandle cfg eid inp) (mf.nodes, true)).1.lookup n =
      (mf.nodes.lookup n).map (recorded cfg eid inp c n) := by
  rw [lookup_foldl_entries Prod.fst (recordHandle cfg eid inp) _ recordHandle_lookup
    (inp.committed.perm c.entries)]
  unfold recorded
  cases c.lookup n with
  | none => simp
  | some bid => rfl

theorem fillNode_lookup (nodes : GoMap GoString NodeManifest) (n : GoString) (bid : Bid)
    (n' : GoString) : (fillNode nodes ⟨n, bid⟩).lookup n' =
      if n' = n then some (fillEntry n bid (nodes.lookup n)) else nodes.lookup n' := by
  unfold fillNode
  split
  · next h => rw [h, lookup_insert]
  · next h => exact lookup_insert_ne h

theorem foldl_fillNode_lookup {nodes} (hmem : ∀ n, n ∈ c → n ∈ nodes) (n : GoString) :
    ((order.visit c.entries).foldl fillNode nodes).lookup n =
      (nodes.lookup n).map (filled c n) := by
  have h := lookup_foldl_entries id fillNode (fun n bid o => some (fillEntry n bid o))
    fillNode_lookup (order.perm c.entries) nodes n
  refine h.trans ?_
  unfold filled
  cases hc : c.lookup n with
  | none => simp
  | some bid =>
    have hn : n ∈ nodes := hmem n (mem_of_lookup hc)
    obtain ⟨nmf, hnmf⟩ := exists_lookup hn
    simp [hnmf]

theorem mem_updateManifestAllocation {nmf m name k} :
    k ∈ updateManifestAllocation eid p allocations nmf m name ↔ k ∈ m := by
  unfold updateManifestAllocation
  split
  · next allocID alloc _ hm =>
    have hmem : name ∈ m := mem_of_lookup hm
    rw [mem_insert]
    constructor
    · rintro (rfl | h)
      · exact hmem
      · exact h
    · exact .inr
  · exact Iff.rfl

theorem mem_updateManifestAllocations {k} :
    k ∈ (updateManifestAllocations eid p allocations order mf).allocations ↔
      k ∈ mf.allocations := by
  let Keeps := fun m : GoMap GoString AllocationManifest => k ∈ m ↔ k ∈ mf.allocations
  refine List.foldlRecOn (motive := Keeps) _ _ Iff.rfl fun m hm e _ => ?_
  exact List.foldlRecOn _ _ hm fun m hm key _ => mem_updateManifestAllocation.trans hm

theorem nodeID_updateManifestAllocations
    (hplaced : ∀ n nmf, mf.nodes.lookup n = some nmf → ∀ key ∈ nmf.allocations,
      parseManifestKey key ≠ none → ∀ amf, mf.allocations.lookup key = some amf →
        p.allocationNodes.lookup key = some amf.nodeID) (k : GoString) :
    ((updateManifestAllocations eid p allocations order mf).allocations.lookup k).map
      AllocationManifest.nodeID = (mf.allocations.lookup k).map AllocationManifest.nodeID := by
  let Keeps := fun m : GoMap GoString AllocationManifest => ∀ k, (m.lookup k).map nodeID =
    (mf.allocations.lookup k).map nodeID
  refine List.foldlRecOn (motive := Keeps) _ _ (fun k => rfl) (fun m hm e he => ?_) k
  refine List.foldlRecOn _ _ hm fun m hm key hkey k => ?_
  have hnode : mf.nodes.lookup e.1 = some e.2 := mem_lookup_iff.mpr (order.mem_visit.mp he)
  unfold updateManifestAllocation
  split
  · next allocID alloc hparse hl =>
    by_cases hk : k = key
    · subst hk
      have hid := hm k
      rw [hl] at hid
      obtain ⟨amf, hamf, hsame⟩ := map_eq_some_iff.mp hid.symm
      have hat := hplaced e.1 e.2 hnode k hkey (by simp [hparse]) amf hamf
      rw [lookup_insert, hamf, hat]
      rfl
    · rw [lookup_insert_ne hk]
      exact hm k
  · exact hm k

def deployedAllocations (cfg : EnsembleConfig) (n : GoString) : List GoString :=
  ((deployedConfig cfg n).map NodeConfig.allocations).getD []

def Generates (cfg : EnsembleConfig) (n key : GoString) : Prop :=
  ∃ a ∈ deployedAllocations cfg n, generateManifestKey n a = some key

instance (cfg : EnsembleConfig) (n key : GoString) : Decidable (Generates cfg n key) :=
  inferInstanceAs (Decidable (∃ a ∈ _, _ = _))

theorem generates_iff {ncfg} (h : deployedConfig cfg n = some ncfg) :
    Generates cfg n key ↔ ∃ a ∈ ncfg.allocations, generateManifestKey n a = some key := by
  rw [Generates, deployedAllocations, h]
  rfl

theorem processNodeAllocations_lookup (cfg : EnsembleConfig) (p : Placement) (n key : GoString) :
    (processNodeAllocations cfg p n).allocationNodes.lookup key =
      if Generates cfg n key then some n else p.allocationNodes.lookup key := by
  unfold processNodeAllocations
  cases hcfg : deployedConfig cfg n with
  | none => rw [if_neg (by simp [Generates, deployedAllocations, hcfg])]
  | some ncfg =>
    refine (foldl_assign (fun p : Placement => p.allocationNodes.lookup key)
      (fun a => generateManifestKey n a = some key) (some n) ncfg.allocations
      (fun p a _ => ?_) p).trans (if_congr (generates_iff hcfg).symm rfl rfl)
    cases generateManifestKey n a with
    | none => simp
    | some key' =>
      by_cases hkey : key' = key
      · subst hkey
        simp
      · simp [hkey, lookup_insert_ne (Ne.symm hkey)]

theorem filled_recorded {nmf} : filled c n (recorded cfg eid inp c n nmf) = filled c n nmf := by
  unfold filled recorded
  cases c.lookup n with
  | none => rfl
  | some bid =>
    dsimp only
    split <;> rfl

theorem commit_nodes_of_error
    (h : (commit cfg eid mf c inp).error ≠ none) (n : GoString) :
    (commit cfg eid mf c inp).manifest.nodes.lookup n =
      (mf.nodes.lookup n).map (recorded cfg eid inp c n) := by
  rw [← committed_lookup]
  unfold commit at h ⊢
  dsimp only at h ⊢
  split
  · rfl
  rename_i hok
  rw [if_neg hok] at h
  split
  · rfl
  rename_i hok'
  rw [if_neg hok'] at h
  exact absurd rfl h

structure Committed (cfg : EnsembleConfig) (eid : GoString) (manifest : EnsembleManifest)
    (candidate : Candidate) (inputs : CommitInputs) (result : EnsembleManifest) : Prop where
  held : ∀ n bid, candidate.lookup n = some bid →
    (commitOf cfg eid inputs ⟨n, bid⟩).errs = [] ∧ n ∈ manifest.nodes
  nodes : ∀ n, result.nodes.lookup n = (manifest.nodes.lookup n).map (filled candidate n)
  allocations : ∀ k, k ∈ result.allocations ↔ k ∈ manifest.allocations

theorem commit_of_ok (h : (commit cfg eid mf c inp).error = none) : Committed cfg eid mf c inp
      (commit cfg eid mf c inp).manifest := by
  have hrecorded := @committed_lookup cfg eid inp mf c
  have hflag := @foldl_recordHandle_ok cfg eid inp
    (inp.committed.visit c.entries) (mf.nodes, true)
  unfold commit at h ⊢
  dsimp only at h ⊢
  split
  · next hok => rw [if_pos hok] at h; cases h
  rename_i hok
  rw [if_neg hok] at h
  split
  · next hok' => rw [if_pos hok'] at h; cases h
  have hall := hflag.mp (by simpa using hok)
  have hheld : ∀ n bid, c.lookup n = some bid →
      (commitOf cfg eid inp ⟨n, bid⟩).errs = [] ∧ n ∈ mf.nodes := by
    intro n bid hbid
    exact hall.2 ⟨n, bid⟩ (inp.committed.mem_visit.mpr (mem_lookup_iff.mp hbid))
  refine ⟨hheld, fun n => ?_, fun k => mem_updateManifestAllocations⟩
  have hmem : ∀ n, n ∈ c →
      n ∈ ((inp.committed.visit c.entries).foldl (recordHandle cfg eid inp)
        (mf.nodes, true)).1 := by
    intro n hn
    obtain ⟨bid, hbid⟩ := exists_lookup hn
    rw [← lookup_isSome, hrecorded, isSome_map, lookup_isSome]
    exact (hheld n bid hbid).2
  refine (foldl_fillNode_lookup hmem n).trans ?_
  rw [hrecorded, map_map]
  congr 1
  funext nmf
  exact filled_recorded

theorem nodeID_commit (h : (commit cfg eid mf c inp).error = none)
    (hplaced : ∀ n nmf, mf.nodes.lookup n = some nmf → ∀ key ∈ nmf.allocations,
      ∀ amf, mf.allocations.lookup key = some amf → amf.nodeID ∈ c ∧ Generates cfg amf.nodeID key ∧
          ∀ n' ∈ c, Generates cfg n' key → n' = amf.nodeID) (k : GoString) :
    ((commit cfg eid mf c inp).manifest.allocations.lookup k).map
      AllocationManifest.nodeID = (mf.allocations.lookup k).map AllocationManifest.nodeID := by
  have hnodes := (commit_of_ok h).nodes
  unfold commit at hnodes ⊢
  dsimp only at hnodes ⊢
  split
  · rfl
  rename_i hok
  rw [if_neg hok] at hnodes
  split
  · rfl
  rename_i hok'
  rw [if_neg hok'] at hnodes
  refine nodeID_updateManifestAllocations (fun n nmf hn key hkey _ amf hamf => ?_) k
  have hmem : ∀ n', n' ∈ (inp.filled.visit c.entries).map Sigma.fst ↔
      n' ∈ c := by
    intro n'
    rw [mem_keys]
    simp [keys, List.keys, inp.filled.mem_visit]
  obtain ⟨old, hold, rfl⟩ := map_eq_some_iff.mp ((hnodes n).symm.trans hn)
  rw [filled_allocations] at hkey
  obtain ⟨hbid, hgen, hone⟩ := hplaced n old hold key hkey amf hamf
  refine (foldl_assign (fun p : Placement => p.allocationNodes.lookup key)
    (fun n => Generates cfg n key) (some _) _ (fun p n' hn' => ?_) ⟨∅, ∅⟩).trans
      (if_pos ⟨_, (hmem _).mpr hbid, hgen⟩)
  rw [processNodeAllocations_lookup]
  split
  · next h => rw [hone n' ((hmem n').mp hn') h]
  · rfl

end Effects

def sampleHandle : Handle := ⟨ascii "h", ascii "d", ascii "p", ascii "i"⟩

def sampleCandidate : Candidate := GoMap.insertAll
    [(ascii "n", ⟨ascii "e", ascii "n", ascii "p", ⟨[], [], [], 0, []⟩, sampleHandle, []⟩)] ∅

def sampleCommits (allocs : List String) : CommitInputs where
  replies _ _ := .ok
  ended _ := .stored
  committed := .stored
  answers n := ⟨.ok, GoMap.insertAll
      (allocs.map fun a => (ascii "e_" ++ n ++ dot :: ascii a, sampleHandle)) ∅⟩
  allocated := .stored
  filled := .stored
  updated := .stored

end DMS.Orchestrator
