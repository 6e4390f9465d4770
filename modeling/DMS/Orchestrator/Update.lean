import DMS.Orchestrator.Removal

/-! # Updating a running ensemble

`Update` and `handleNewAllocations` of `dms/orchestrator/update_manifest.go`. The add phase
follows the removals. It deploys the configuration of the additions in a loop like that of
`deploy`, and puts what it deployed into the manifest and the configuration.
-/

namespace DMS.Orchestrator

open Jobs EnsembleConfig GoMap AList

/-! ## The add phase -/

/-- What one turn does not decide itself. `extension` is the error of adding an allocation
to the subnet, `subnet` that of provisioning or updating it on the nodes. -/
structure UpdateTurn where
  now : Int
  bidding : Bidding
  commits : CommitInputs
  extension : Option String
  subnet : Option String
  provision : ProvisionInputs
  order : RangeOrder
  reverts : GoString → Reply

/-- How the phase ends. The last three are returned as `nil`; `updated` keeps the manifest
that the turn started from and its candidate. -/
inductive AddEnd
  | running
  | failed (text : String)
  | nothing
  | expired
  | updated (before : EnsembleManifest) (candidate : Candidate)

structure AddRun where
  attempts : List Attempt
  ending : AddEnd
  state : Running

def extendedManifest (eid : GoString) (newConfig : EnsembleConfig)
    (running : EnsembleManifest) : EnsembleManifest :=
  let manifest := newManifest eid newConfig
  { manifest with
    allocations := GoMap.insertAll (running.allocations.entries.map fun e => (e.1, e.2))
      manifest.allocations }

def mergedEntry (node : NodeManifest) (old : Option NodeManifest) : NodeManifest := { node with
    allocations := node.allocations ++ (old.map NodeManifest.allocations).getD [] }

/-- One turn of `updateManifest`. -/
def mergeNode (manifest currentManifest : EnsembleManifest) (e : Σ _ : GoString, NodeManifest) :
    EnsembleManifest where
  allocations := GoMap.insertAll
    (e.2.allocations.map fun alloc => (alloc, (manifest.allocations.lookup alloc).getD .zero))
    currentManifest.allocations
  nodes := currentManifest.nodes.insert e.1 (mergedEntry e.2 (currentManifest.nodes.lookup e.1))

/-- `updateManifest` -/
def mergeManifest (order : RangeOrder) (manifest currentManifest : EnsembleManifest) :
    EnsembleManifest :=
  (order.visit manifest.nodes.entries).foldl (mergeNode manifest) currentManifest

def addNodeToCfg (newConfig modifiedCfg cfg : EnsembleConfig) (e : Σ _ : GoString, NodeConfig) :
    EnsembleConfig :=
  match modifiedCfg.node e.1 with
  | some node => cfg.addNodeAndAllocations e.1 node newConfig.allocations
  | none => cfg

def addNodesAndAllocsToCfg (order : RangeOrder) (newConfig modifiedCfg cfg : EnsembleConfig) :
    EnsembleConfig :=
  (order.visit newConfig.nodes.entries).foldl (addNodeToCfg newConfig modifiedCfg) cfg

/-- The loop of `handleNewAllocations`, up to the turns that are given. -/
def addLoop (eid : GoString) (modifiedCfg newConfig : EnsembleConfig) (expiry : Int) :
    List UpdateTurn → Running → AddRun
  | [], s => ⟨[], .running, s⟩
  | t :: ts, s =>
    if expiry ≤ t.now then ⟨[], .expired, s⟩
    else
      match t.bidding with
      | .notFound => addLoop eid modifiedCfg newConfig expiry ts s
      | .failed text => ⟨[], .failed text, s⟩
      | .found candidate =>
        let manifest := extendedManifest eid newConfig s.manifest
        let run := commit newConfig eid manifest candidate t.commits
        if run.error ≠ none ∨ t.extension ≠ none then
          -- nothing is reverted here
          let rest := addLoop eid modifiedCfg newConfig expiry ts s
          { rest with
            attempts := ⟨manifest, candidate, t.commits, t.reverts, run, []⟩ :: rest.attempts }
        else
          match provision newConfig run.manifest t.subnet t.provision with
          | (_, some _) =>
            let (reverts, mf) := revertNodes newConfig eid t.reverts
              (t.order.visit run.manifest.nodes.entries) s.manifest
            let rest := addLoop eid modifiedCfg newConfig expiry ts { s with manifest := mf }
            { rest with
              attempts := ⟨manifest, candidate, t.commits, t.reverts, run, reverts⟩ ::
                rest.attempts }
          | (provisioned, none) =>
            ⟨[⟨manifest, candidate, t.commits, t.reverts, run, []⟩], .updated s.manifest candidate,
              { cfg := addNodesAndAllocsToCfg t.order newConfig modifiedCfg s.cfg
                manifest := mergeManifest t.order provisioned s.manifest }⟩

def handleNewAllocations (eid : GoString) (modifiedCfg : EnsembleConfig) (expiry : Int)
    (order : RangeOrder) (turns : List UpdateTurn) (s : Running) : AddRun :=
  let existingNodes := s.manifest.nodes.mapValues fun _ node => node.peer
  match newConfigForDeploymentUpdate s.cfg modifiedCfg existingNodes order with
  | .error text => ⟨[], .failed s!"creating new nodes config: {text}", s⟩
  | .ok newConfig =>
    if newConfig.allocations.keys = [] then ⟨[], .nothing, s⟩
    else addLoop eid modifiedCfg newConfig expiry turns s

/-! ## The update -/

structure UpdateInputs where
  now : Int
  order : RangeOrder
  removals : RemovalInputs
  additions : RangeOrder
  turns : List UpdateTurn

/-- What the update returns, if it does, the state between its phases, and the second
phase. -/
structure UpdateRun where
  result : Option (Except String Unit)
  between : Running
  adding : AddRun

def AddEnd.result : AddEnd → Option (Except String Unit)
  | .running => none
  | .failed text => some (.error s!"deploying new nodes: {text}")
  | .nothing => some (.ok ())
  | .expired => some (.ok ())
  | .updated _ _ => some (.ok ())

def UpdateRun.refused (text : String) (s : Running) : UpdateRun :=
  ⟨some (.error text), s, ⟨[], .running, s⟩⟩

def update (eid : GoString) (modifiedCfg : EnsembleConfig) (expiry : Int)
    (inputs : UpdateInputs) (s : Running) : UpdateRun :=
  if expiry < inputs.now then .refused "update expiry time has already passed" s
  else
    match validateEnsembleUpdate s.cfg modifiedCfg inputs.order with
    | .error text => .refused s!"invalid ensemble update: {text}" s
    | .ok _ =>
      let removal := handleEnsembleRemovals eid modifiedCfg inputs.removals s
      if removal.errs ≠ [] then
        .refused ("handling ensemble removals: " ++ String.intercalate "; " removal.errs)
          removal.state
      else
        let adding := handleNewAllocations eid modifiedCfg expiry inputs.additions
          inputs.turns removal.state
        ⟨adding.ending.result, removal.state, adding⟩

/-! ## What a turn adds -/

section Additions

variable {eid : GoString} {mcfg delta cfg : EnsembleConfig}
  {mf cm : EnsembleManifest} {order : RangeOrder}

theorem mergeNode_lookup (mf cm : EnsembleManifest) (n : GoString)
    (node : NodeManifest) (n' : GoString) : (mergeNode mf cm ⟨n, node⟩).nodes.lookup n' =
      if n' = n then some (mergedEntry node (cm.nodes.lookup n)) else cm.nodes.lookup n' := by
  split
  · next h =>
    subst h
    exact lookup_insert ..
  · next h => exact lookup_insert_ne h

theorem mergeManifest_lookup {n node} (h : mf.nodes.lookup n = some node) :
    (mergeManifest order mf cm).nodes.lookup n = some (mergedEntry node (cm.nodes.lookup n)) := by
  have hfold := lookup_foldl_entries EnsembleManifest.nodes (mergeNode mf)
    (fun _ node old => some (mergedEntry node old)) (mergeNode_lookup mf)
    (order.perm mf.nodes.entries) cm n
  rwa [h] at hfold

theorem mem_mergeManifest {key} : key ∈ (mergeManifest order mf cm).allocations ↔
      key ∈ cm.allocations ∨
        ∃ n node, mf.nodes.lookup n = some node ∧ key ∈ node.allocations := by
  refine (foldl_iff_exists (fun m : EnsembleManifest => key ∈ m.allocations)
    (fun e => key ∈ e.2.allocations) (fun m e => ?_) _ _).trans (or_congr_right ?_)
  · refine mem_insertAll.trans (or_congr_right ?_)
    simp
  · simp only [order.mem_visit]
    exact exists_mem_entries (P := fun _ (node : NodeManifest) => key ∈ node.allocations)

theorem addNodeToCfg_lookup (delta mcfg cfg : EnsembleConfig) (n : GoString)
    (ncfg : NodeConfig) (n' : GoString) :
    (addNodeToCfg delta mcfg cfg ⟨n, ncfg⟩).primaryNodes.lookup n' =
      if n' = n then (mcfg.node n).or (cfg.primaryNodes.lookup n)
      else cfg.primaryNodes.lookup n' := by
  unfold addNodeToCfg
  by_cases hn : n' = n
  · subst hn
    rw [if_pos rfl]
    cases mcfg.node n' with
    | none => rfl
    | some node => exact lookup_insert ..
  rw [if_neg hn]
  cases mcfg.node n with
  | none => rfl
  | some node => exact lookup_insert_ne hn

/-- The entry of a node after the additions: every node that is added is written down as
the modified configuration knows it, a standby node too. -/
def written (modifiedCfg cfg : EnsembleConfig) (n : GoString) : Option NodeConfig :=
  if n ∈ modifiedCfg.nodes then (modifiedCfg.node n).or (cfg.primaryNodes.lookup n)
  else cfg.primaryNodes.lookup n

theorem addNodesAndAllocsToCfg_lookup
    (hnodes : ∀ n, n ∈ delta.nodes ↔ n ∈ mcfg.nodes) (n : GoString) :
    (addNodesAndAllocsToCfg order delta mcfg cfg).primaryNodes.lookup n = written mcfg cfg n := by
  refine (lookup_foldl_entries primaryNodes (addNodeToCfg delta mcfg)
    (fun n _ old => (mcfg.node n).or old) (addNodeToCfg_lookup delta mcfg)
    (order.perm delta.nodes.entries) cfg n).trans ?_
  unfold written
  simp only [← hnodes, ← lookup_isSome]
  cases delta.nodes.lookup n with
  | none | some node => simp

theorem mem_addNodesAndAllocsToCfg {a} :
    a ∈ (addNodesAndAllocsToCfg order delta mcfg cfg).allocations ↔ a ∈ cfg.allocations ∨
        a ∈ delta.allocations ∧ ∃ n ∈ delta.nodes, a ∈ mcfg.nodeAllocations n := by
  refine (foldl_iff_exists (fun cfg : EnsembleConfig => a ∈ cfg.allocations)
    (fun e => a ∈ delta.allocations ∧ a ∈ mcfg.nodeAllocations e.1)
    (fun cfg e => ?_) _ _).trans (or_congr_right ?_)
  · unfold addNodeToCfg EnsembleConfig.nodeAllocations
    cases mcfg.node e.1 with
    | none => simp
    | some node => exact mem_addNodeAndAllocations
  simp only [order.mem_visit]
  constructor
  · rintro ⟨e, he, hnew, ha⟩
    exact ⟨hnew, e.1, List.mem_keys_of_mem he, ha⟩
  rintro ⟨hnew, n, hn, ha⟩
  obtain ⟨node, hl⟩ := exists_lookup hn
  exact ⟨⟨n, node⟩, mem_lookup_iff.mp hl, hnew, ha⟩

end Additions

/-! ## Updates that have been applied -/

/-- The manifest has every node of the modified ensemble with a handle and every allocation
under its key, and the configuration lists the same nodes and allocations. -/
structure Applied (modifiedCfg : EnsembleConfig) (s : Running) : Prop where
  placed : ∀ n ∈ modifiedCfg.nodes, ∃ nmf, s.manifest.nodes.lookup n = some nmf ∧ nmf.handle ≠ .zero
  keyed : ∀ n ∈ modifiedCfg.nodes, ∀ a ∈ modifiedCfg.nodeAllocations n,
    ∃ key, generateManifestKey n a = some key ∧ key ∈ s.manifest.allocations
  nodes : ∀ n, n ∈ s.cfg.nodes ↔ n ∈ modifiedCfg.nodes
  lists : ∀ n ∈ modifiedCfg.nodes, (modifiedCfg.node n).isSome = true →
    ∀ a, a ∈ s.cfg.nodeAllocations n ↔ a ∈ modifiedCfg.nodeAllocations n
  configured : ∀ n ∈ modifiedCfg.nodes, ∀ a ∈ modifiedCfg.nodeAllocations n, a ∈ s.cfg.allocations

section Applying

variable {eid : GoString} {mcfg delta cfg : EnsembleConfig}
  {pre prov : EnsembleManifest} {c : Candidate} {commits : CommitInputs}
  {order : RangeOrder}

theorem extended_lookup
    (hcommit : (commit delta eid (extendedManifest eid delta pre) c
      commits).error = none) (hprovisioned : prov.nodes = (commit delta eid
      (extendedManifest eid delta pre) c commits).manifest.nodes) (n : GoString) :
    prov.nodes.lookup n = (delta.nodes.lookup n).map fun ncfg =>
      filled c n (newNodeManifest delta n ncfg) := by
  rw [hprovisioned, (commit_of_ok hcommit).nodes n]
  refine (congrArg (Option.map (filled c n)) (newManifest_lookup eid delta n)).trans ?_
  rw [Option.map_map]
  rfl

theorem filled_handle_ne (n : GoString) (ncfg : NodeConfig) :
    (filled c n (newNodeManifest delta n ncfg)).handle ≠ .zero ↔
      ∃ bid, c.lookup n = some bid ∧ bid.handle ≠ .zero := by
  unfold filled
  cases c.lookup n with
  | none => simp [newNodeManifest]
  | some bid => simp [fillEntry]

theorem merged_placed_iff
    (hlookup : ∀ n, prov.nodes.lookup n = (delta.nodes.lookup n).map fun ncfg =>
      filled c n (newNodeManifest delta n ncfg)) {n} (hn : n ∈ delta.nodes) :
    (∃ nmf, (mergeManifest order prov pre).nodes.lookup n = some nmf ∧
      nmf.handle ≠ .zero) ↔ ∃ bid, c.lookup n = some bid ∧ bid.handle ≠ .zero := by
  obtain ⟨ncfg, hncfg⟩ := exists_lookup hn
  have hl := hlookup n
  rw [hncfg] at hl
  rw [← @filled_handle_ne delta c n ncfg, mergeManifest_lookup hl]
  simp [mergedEntry]

theorem mem_merged_iff
    (hlookup : ∀ n, prov.nodes.lookup n = (delta.nodes.lookup n).map fun ncfg =>
      filled c n (newNodeManifest delta n ncfg)) {key} :
    key ∈ (mergeManifest order prov pre).allocations ↔
      key ∈ pre.allocations ∨ ∃ n' node, delta.nodes.lookup n' = some node ∧
        key ∈ nodeAllocations delta n' node.allocations := by
  rw [mem_mergeManifest]
  refine or_congr_right (exists_congr fun n' => ?_)
  rw [hlookup]
  cases delta.nodes.lookup n' with
  | none => simp
  | some ncfg => simp [newNodeManifest]

theorem written_nodeAllocations (hnodes : ∀ n, n ∈ delta.nodes ↔ n ∈ mcfg.nodes) {n}
    (hn : n ∈ mcfg.nodes) (hsome : (mcfg.node n).isSome = true) :
    (addNodesAndAllocsToCfg order delta mcfg cfg).nodeAllocations n = mcfg.nodeAllocations n := by
  obtain ⟨node, hnode⟩ := Option.isSome_iff_exists.mp hsome
  have hl : (addNodesAndAllocsToCfg order delta mcfg cfg).primaryNodes.lookup n =
      some node := by
    rw [addNodesAndAllocsToCfg_lookup hnodes]
    rw [written, if_pos hn, hnode]
    rfl
  rw [nodeAllocations_of_lookup hl, nodeAllocations_of_node hnode]

end Applying

def sampleTurn (now : Int) (cfg : EnsembleConfig) (added : List String) : UpdateTurn :=
  ⟨now, .found (sampleBids cfg), sampleCommits added, none, none, successes, .stored, fun _ => .ok⟩

end DMS.Orchestrator
