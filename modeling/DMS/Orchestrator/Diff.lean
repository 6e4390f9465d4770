import DMS.Jobs.Manifest

/-! # Differences between two configurations

`dms/orchestrator/manifest_diff.go`: what an update adds to a running ensemble, what it
removes from it, and which modifications are refused.
-/

namespace DMS.Orchestrator

open Jobs EnsembleConfig Outcome GoMap List

def collectNew (modifiedConfig : EnsembleConfig) :
    List GoString → GoMap GoString AllocationConfig →
      Except String (GoMap GoString AllocationConfig)
  | [], allocations => .ok allocations
  | alloc :: rest, allocations =>
    match modifiedConfig.allocation alloc with
    | none => .error s!"allocation {printed alloc} not found"
    | some allocConfig =>
      collectNew modifiedConfig rest (allocations.insert alloc allocConfig)

def identifyNewAllocations (currentConfig modifiedConfig : EnsembleConfig) (node : GoString) :
    Except String (GoMap GoString AllocationConfig) :=
  match modifiedConfig.node node with
  | none => .ok ∅
  | some ncfg =>
    collectNew modifiedConfig
      (ncfg.allocations.filter fun alloc => alloc ∉ currentConfig.nodeAllocations node) ∅

/-- `identifyRemovedAllocations`; an allocation without a configuration is not noticed. -/
def identifyRemovedAllocations (currentConfig modifiedConfig : EnsembleConfig)
    (node : GoString) : GoMap GoString AllocationConfig :=
  match modifiedConfig.node node with
  | none => ∅
  | some ncfg =>
    GoMap.insertAll
      ((currentConfig.nodeAllocations node).filterMap fun alloc =>
        if alloc ∈ ncfg.allocations then none
        else (currentConfig.allocation alloc).map fun allocConfig => (alloc, allocConfig)) ∅

theorem collectNew_ok {modifiedConfig allocs allocations r}
    (h : collectNew modifiedConfig allocs allocations = .ok r) (a : GoString) :
    a ∈ r ↔ a ∈ allocations ∨ a ∈ allocs := by
  induction allocs generalizing allocations with
  | nil =>
    cases h
    simp
  | cons alloc rest ih =>
    unfold collectNew at h
    split at h
    · cases h
    · rw [ih h, AList.mem_insert, mem_cons]
      tauto

theorem mem_identifyNewAllocations {cfg mcfg node d}
    (h : identifyNewAllocations cfg mcfg node = .ok d) (a : GoString) :
    a ∈ d ↔ a ∈ mcfg.nodeAllocations node ∧ a ∉ cfg.nodeAllocations node := by
  unfold identifyNewAllocations at h
  unfold EnsembleConfig.nodeAllocations at h ⊢
  split at h
  · next hnone =>
    cases h
    simp [hnone]
  rename_i ncfg hsome
  rw [collectNew_ok h, hsome]
  simp

def identifyRemovedNodes (currentConfig modifiedConfig : EnsembleConfig) :
    GoMap GoString NodeConfig :=
  currentConfig.nodes.select fun name _ => (modifiedConfig.node name).isNone

/-- `identifyRelocatedNodes`. A standby node has no peer on the left and the peer of its
primary node on the right. -/
def identifyRelocatedNodes (currentConfig modifiedConfig : EnsembleConfig) :
    GoMap GoString NodeConfig :=
  currentConfig.nodes.select fun name currCfg =>
    match modifiedConfig.node name with
    | none => false
    | some modCfg => currCfg.peer ≠ modCfg.peer

/-- The nodes of `newConfigForRemovedNodes`. -/
def tornDown (oldCfg modifiedCfg : EnsembleConfig) : EnsembleConfig where
  allocations := ∅
  primaryNodes := GoMap.insertAll
    ((identifyRelocatedNodes oldCfg modifiedCfg).entries.map fun e => (e.1, e.2))
    (identifyRemovedNodes oldCfg modifiedCfg)
  edges := modifiedCfg.edges
  supervisor := modifiedCfg.supervisor
  excludePeers := []

def newConfigForRemovedNodes (oldCfg modifiedCfg : EnsembleConfig) (order : RangeOrder) :
    Except String EnsembleConfig :=
  let nodesCfg := tornDown oldCfg modifiedCfg
  let allocationsNames := (order.visit nodesCfg.nodes.entries).flatMap fun e => e.2.allocations
  match allocationsNames.find? fun name => (oldCfg.allocation name).isNone with
  | some name => .error s!"new config for nodes: allocation {printed name} not found"
  | none =>
    .ok { nodesCfg with
      allocations := GoMap.insertAll
        (allocationsNames.filterMap fun name =>
          (oldCfg.allocation name).map fun alloc => (name, alloc)) ∅ }

def manifestOnlyForNodes (mf : EnsembleManifest) :
    List GoString → EnsembleManifest → Except String EnsembleManifest
  | [], newMf => .ok newMf
  | name :: rest, newMf =>
    match mf.nodes.lookup name with
    | none => .error s!"manifestOnlyForNodes: node {printed name} not found"
    | some nmf =>
      match nmf.allocations.find? fun allocName => allocName ∉ mf.allocations with
      | some allocName =>
        .error s!"manifestOnlyForNodes: allocation {printed allocName} not found"
      | none =>
        manifestOnlyForNodes mf rest
          { nodes := newMf.nodes.insert name nmf
            allocations := GoMap.insertAll
              (nmf.allocations.filterMap fun allocName =>
                (mf.allocations.lookup allocName).map fun alloc => (allocName, alloc))
              newMf.allocations }

structure Additions where
  nodes : GoMap GoString NodeConfig
  allocations : GoMap GoString AllocationConfig
  excludePeers : List GoString

def additionOf (existingNodes : GoMap GoString GoString) (n : GoString) (ncfg : NodeConfig)
    (allocs : List GoString) : NodeConfig :=
  { ncfg with
    peer := (existingNodes.lookup n).getD ncfg.peer
    allocations := allocs
    ports := ncfg.ports.filter fun port => port.allocation ∈ allocs }

def addNodes (oldCfg modifiedCfg : EnsembleConfig) (existingNodes : GoMap GoString GoString)
    (order : RangeOrder) :
    List (Σ _ : GoString, NodeConfig) → Additions → Except String Additions
  | [], s => .ok s
  | e :: es, s =>
    match identifyNewAllocations oldCfg modifiedCfg e.1 with
    | .error text => .error text
    | .ok newAllocations =>
      let allocs := order.visit newAllocations.keys
      addNodes oldCfg modifiedCfg existingNodes order es
        { nodes := s.nodes.insert e.1 (additionOf existingNodes e.1 e.2 allocs)
          allocations := GoMap.insertAll
            (newAllocations.entries.map fun a => (a.1, a.2)) s.allocations
          excludePeers :=
            match existingNodes.lookup e.1 with
            | some peer => if allocs = [] then s.excludePeers ++ [peer] else s.excludePeers
            | none => s.excludePeers }

def newConfigForDeploymentUpdate (oldCfg modifiedCfg : EnsembleConfig)
    (existingNodes : GoMap GoString GoString) (order : RangeOrder) :
    Except String EnsembleConfig :=
  (addNodes oldCfg modifiedCfg existingNodes order (order.visit modifiedCfg.nodes.entries)
    ⟨∅, ∅, modifiedCfg.excludePeers⟩).map fun s =>
      { allocations := s.allocations
        primaryNodes := s.nodes
        edges := modifiedCfg.edges
        supervisor := modifiedCfg.supervisor
        excludePeers := s.excludePeers }

/-- The update puts the allocation on the node. -/
def Gains (oldCfg modifiedCfg : EnsembleConfig) (n a : GoString) : Prop :=
  a ∈ modifiedCfg.nodeAllocations n ∧ a ∉ oldCfg.nodeAllocations n

instance (oldCfg modifiedCfg : EnsembleConfig) (n a : GoString) :
    Decidable (Gains oldCfg modifiedCfg n a) :=
  inferInstanceAs (Decidable (_ ∧ _))

def ListsNew (oldCfg modifiedCfg : EnsembleConfig) (n : GoString) (ncfg : NodeConfig) : Prop :=
  ∀ a, a ∈ ncfg.allocations ↔ Gains oldCfg modifiedCfg n a

structure Added (oldCfg modifiedCfg : EnsembleConfig) (existingNodes : GoMap GoString GoString)
    (es : List (Σ _ : GoString, NodeConfig)) (s result : Additions) : Prop where
  nodes : ∀ n, n ∈ result.nodes ↔ n ∈ s.nodes ∨ n ∈ es.map Sigma.fst
  entries : ∀ n ncfg, result.nodes.lookup n = some ncfg → s.nodes.lookup n = some ncfg ∨
    ListsNew oldCfg modifiedCfg n ncfg ∧
      ∃ e ∈ es, e.1 = n ∧ ncfg = additionOf existingNodes n e.2 ncfg.allocations
  allocations : ∀ a, a ∈ result.allocations ↔ a ∈ s.allocations ∨
    ∃ e ∈ es, a ∈ modifiedCfg.nodeAllocations e.1 ∧ a ∉ oldCfg.nodeAllocations e.1
  excludes : ∀ p ∈ s.excludePeers, p ∈ result.excludePeers
  idle : ∀ e ∈ es, ∀ peer, existingNodes.lookup e.1 = some peer →
    (∀ a ∈ modifiedCfg.nodeAllocations e.1, a ∈ oldCfg.nodeAllocations e.1) →
    peer ∈ result.excludePeers

theorem added_of_addNodes {oldCfg mcfg old order es s r}
    (h : addNodes oldCfg mcfg old order es s = .ok r) : Added oldCfg mcfg old es s r := by
  induction es generalizing s with
  | nil =>
    cases h
    exact ⟨by simp, fun _ _ h => .inl h, by simp, fun _ h => h, nofun⟩
  | cons e es ih =>
    unfold addNodes at h
    split at h
    · cases h
    rename_i newAllocations hnew
    have hrest := ih h
    have hkeys (a : GoString) :=
      order.mem_visit.trans (AList.mem_keys.symm.trans (mem_identifyNewAllocations hnew a))
    refine ⟨fun n => ?_, fun n ncfg hl => ?_, fun a => ?_, fun p hp => ?_, fun e' he' => ?_⟩
    · rw [hrest.nodes, AList.mem_insert, map_cons, mem_cons]
      tauto
    · rcases hrest.entries n ncfg hl with hl | ⟨hlists, e', he', heq⟩
      · rcases lookup_insert_cases hl with ⟨rfl, rfl⟩ | ⟨_, hl⟩
        · exact .inr ⟨hkeys, e, .head _, rfl, rfl⟩
        · exact .inl hl
      · exact .inr ⟨hlists, e', .tail _ he', heq⟩
    · rw [hrest.allocations, mem_insertAll, exists_mem_pairs,
        mem_identifyNewAllocations hnew, exists_mem_cons_iff]
      tauto
    · refine hrest.excludes p ?_
      split
      · split
        · exact mem_append_left _ hp
        · exact hp
      · exact hp
    intro peer hpeer hnone
    rcases mem_cons.mp he' with rfl | he'
    · refine hrest.excludes peer ?_
      have hidle : order.visit newAllocations.keys = [] :=
        eq_nil_iff_forall_not_mem.mpr fun a ha =>
          ((hkeys a).mp ha).2 (hnone a ((hkeys a).mp ha).1)
      simp [hpeer, hidle]
    · exact hrest.idle e' he' peer hpeer hnone

section DeploymentUpdate

variable {oldCfg mcfg delta : EnsembleConfig}
  {old : GoMap GoString GoString} {order : RangeOrder}
  (h : newConfigForDeploymentUpdate oldCfg mcfg old order = .ok delta)

include h

theorem newConfigForDeploymentUpdate_added : Added oldCfg mcfg old (order.visit mcfg.nodes.entries)
      ⟨∅, ∅, mcfg.excludePeers⟩
      ⟨delta.primaryNodes, delta.allocations, delta.excludePeers⟩ := by
  obtain ⟨s, hadd, rfl⟩ := map_eq_ok.mp h
  exact added_of_addNodes hadd

theorem newConfig_entry {n node} (hl : delta.primaryNodes.lookup n = some node) :
    ∃ ncfg, mcfg.nodes.lookup n = some ncfg ∧ ListsNew oldCfg mcfg n node ∧
      node = additionOf old n ncfg node.allocations := by
  have hadded := newConfigForDeploymentUpdate_added h
  obtain ⟨hlists, e, he, rfl, hnode⟩ := (hadded.entries n node hl).resolve_left nofun
  exact ⟨e.2, AList.mem_lookup_iff.mpr (order.mem_visit.mp he), hlists, hnode⟩

theorem Alone.newConfig (halone : mcfg.Alone) : delta.Alone := by
  intro n node hl
  obtain ⟨ncfg, hncfg, -, hsame⟩ := newConfig_entry h hl
  rw [hsame]
  exact halone n ncfg ((halone.nodes_lookup n).symm.trans hncfg)

theorem mem_newConfig_primaryNodes {n} : n ∈ delta.primaryNodes ↔ n ∈ mcfg.nodes := by
  rw [(newConfigForDeploymentUpdate_added h).nodes n, AList.mem_keys (s := mcfg.nodes)]
  simp [AList.keys, keys, order.mem_visit]

theorem mem_newConfig_nodes {n} : n ∈ delta.nodes ↔ n ∈ mcfg.nodes := by
  rw [← mem_newConfig_primaryNodes h]
  refine ⟨fun hn => ?_, fun hn => mem_nodes.mpr (.inl hn)⟩
  rcases mem_nodes.mp hn with hn | ⟨nid, node, hl, standby, hstandby⟩
  · exact hn
  obtain ⟨-, i, hi, hid⟩ := mem_standbyNodes.mp hstandby
  obtain ⟨ncfg, hncfg, -, hnode⟩ := newConfig_entry h hl
  have hi : i < ncfg.redundancy.toNat := by
    rwa [hnode] at hi
  have hl' := lookup_of_redundancy hncfg (by omega)
  exact (mem_newConfig_primaryNodes h).mpr
    (mem_nodes.mpr (.inr ⟨nid, ncfg, hl', _, mem_standbyNodes.mpr ⟨rfl, i, hi, hid⟩⟩))

theorem mem_newConfig_allocations {a} : a ∈ delta.allocations ↔
    ∃ n ∈ mcfg.nodes, a ∈ mcfg.nodeAllocations n ∧ a ∉ oldCfg.nodeAllocations n := by
  refine ((newConfigForDeploymentUpdate_added h).allocations a).trans ?_
  constructor
  · rintro (hnone | ⟨e, he, ha⟩)
    · cases hnone
    · exact ⟨e.1, mem_keys_of_mem (order.mem_visit.mp he), ha⟩
  rintro ⟨n, hn, ha⟩
  obtain ⟨node, hnode⟩ := exists_lookup hn
  exact .inr ⟨⟨n, node⟩, order.mem_visit.mpr (AList.mem_lookup_iff.mp hnode), ha⟩

end DeploymentUpdate

/-- The fields of `EnsembleConfigV1` that are not in `EnsembleConfig`. -/
structure Settings (Contract : Type) where
  escalationStrategy : GoString
  keys : GoMap GoString GoString
  scripts : GoMap GoString GoString
  joinSubnet : Bool
  metadata : GoMap GoString GoString
  contracts : GoMap GoString Contract

variable {Contract : Type}

/-- The settings of the result of `newConfigForDeploymentUpdate`, which names no contracts. -/
def Settings.ofUpdate (modified : Settings Contract) : Settings Contract :=
  ⟨modified.escalationStrategy, modified.keys, modified.scripts, modified.joinSubnet,
    modified.metadata, ∅⟩

structure DescribesAdditions (oldCfg modifiedCfg : EnsembleConfig)
    (existingNodes : GoMap GoString GoString) (n : GoString) (node : NodeConfig) : Prop where
  lists : ListsNew oldCfg modifiedCfg n node
  ports : ∀ ncfg, modifiedCfg.nodes.lookup n = some ncfg →
    node.ports = ncfg.ports.filter fun port => port.allocation ∈ node.allocations
  pinned : ∀ peer, existingNodes.lookup n = some peer → node.peer = peer

/-- The nodes of the result are those of `Nodes()`, which makes the standby nodes anew. -/
structure DescribesUpdate (oldCfg modifiedCfg : EnsembleConfig) (settings : Settings Contract)
    (existingNodes : GoMap GoString GoString) (newConfig : EnsembleConfig)
    (newSettings : Settings Contract) : Prop where
  nodes : ∀ n node, newConfig.nodes.lookup n = some node →
    DescribesAdditions oldCfg modifiedCfg existingNodes n node
  idle : ∀ n ∈ modifiedCfg.nodes, ∀ peer, existingNodes.lookup n = some peer →
    (∀ a ∈ modifiedCfg.nodeAllocations n, a ∈ oldCfg.nodeAllocations n) →
    peer ∈ newConfig.excludePeers
  edges : newConfig.edges = modifiedCfg.edges
  supervisor : newConfig.supervisor = modifiedCfg.supervisor
  settings : newSettings = settings

/-- `Nodes()` of the result makes a standby node of the primary node's entry: without a peer, and
with what the update puts on the primary node. -/
def StandbysAlike (oldCfg modifiedCfg : EnsembleConfig)
    (existingNodes : GoMap GoString GoString) : Prop :=
  ∀ p node n, modifiedCfg.nodes.lookup p = some node →
    (∃ i < node.redundancy.toNat, generateStandbyNodeID p (i + 1) = some n) →
    (∀ peer, existingNodes.lookup n = some peer → peer = []) ∧
      ∀ a, Gains oldCfg modifiedCfg p a ↔ Gains oldCfg modifiedCfg n a

theorem standby_describes_iff {oldCfg modifiedCfg existingNodes p n} {ncfg node : NodeConfig}
    (hncfg : modifiedCfg.nodes.lookup p = some ncfg)
    (hname : ∃ i < ncfg.redundancy.toNat, generateStandbyNodeID p (i + 1) = some n)
    (hlists : ListsNew oldCfg modifiedCfg p node)
    (hnode : node = additionOf existingNodes p ncfg node.allocations) :
    DescribesAdditions oldCfg modifiedCfg existingNodes n
        { node with peer := [], redundancy := 0 } ↔
      (∀ peer, existingNodes.lookup n = some peer → peer = []) ∧
        ∀ a, Gains oldCfg modifiedCfg p a ↔ Gains oldCfg modifiedCfg n a := by
  constructor
  · intro hd
    exact ⟨fun peer hpeer => (hd.pinned peer hpeer).symm,
      fun a => (hlists a).symm.trans (hd.lists a)⟩
  rintro ⟨hpeer, hsame⟩
  refine ⟨fun a => (hlists a).trans (hsame a), fun ncfg' hncfg' => ?_,
    fun peer hl => (hpeer peer hl).symm⟩
  -- the standby node of the modified configuration has the ports of its primary node
  have hpos : 0 < ncfg.redundancy := by
    omega
  have hstandby := nodes_lookup_standby (lookup_of_redundancy hncfg hpos)
    (mem_standbyNodes.mpr ⟨rfl, hname⟩)
  cases hstandby.symm.trans hncfg'
  exact congrArg NodeConfig.ports hnode

/-- The delta of an update describes its additions exactly when there are no contracts, and no
standby node has a peer already or gains something else than its primary node. -/
theorem delta_describes_iff (oldCfg modifiedCfg : EnsembleConfig) (settings : Settings Contract)
    (existingNodes : GoMap GoString GoString) (order : RangeOrder) (newConfig : EnsembleConfig)
    (h : newConfigForDeploymentUpdate oldCfg modifiedCfg existingNodes order = .ok newConfig) :
    DescribesUpdate oldCfg modifiedCfg settings existingNodes newConfig settings.ofUpdate ↔
      settings.contracts = ∅ ∧ StandbysAlike oldCfg modifiedCfg existingNodes := by
  constructor
  · intro hd
    refine ⟨(congrArg Settings.contracts hd.settings).symm, fun p ncfg n hncfg hname => ?_⟩
    obtain ⟨node, hl⟩ :=
      exists_lookup ((mem_newConfig_primaryNodes h).mpr (mem_of_lookup hncfg))
    obtain ⟨ncfg', hncfg', hlists, hnode⟩ := newConfig_entry h hl
    cases hncfg.symm.trans hncfg'
    have hname' : ∃ i < node.redundancy.toNat, generateStandbyNodeID p (i + 1) = some n := by
      rw [hnode]
      exact hname
    exact (standby_describes_iff hncfg hname hlists hnode).mp
      (hd.nodes n _ (nodes_lookup_standby hl (mem_standbyNodes.mpr ⟨rfl, hname'⟩)))
  rintro ⟨hcontracts, halike⟩
  have hadded := newConfigForDeploymentUpdate_added h
  obtain ⟨s, hadd, hs⟩ := map_eq_ok.mp h
  refine ⟨fun n node hlookup => ?_, fun n hn peer hpeer hnone => ?_, ?_, ?_, ?_⟩
  · rcases nodes_lookup_cases hlookup with hl | ⟨p, primary, hl, hmem⟩
    · obtain ⟨ncfg, hncfg, hlists, hnode⟩ := newConfig_entry h hl
      refine ⟨hlists, fun ncfg' hncfg' => ?_, fun peer hpeer => ?_⟩
      · cases hncfg.symm.trans hncfg'
        exact congrArg NodeConfig.ports hnode
      · rw [hnode]
        simp [additionOf, hpeer]
    · obtain ⟨ncfg, hncfg, hlists, hnode⟩ := newConfig_entry h hl
      obtain ⟨rfl, hname⟩ := mem_standbyNodes.mp hmem
      rw [hnode] at hname
      exact (standby_describes_iff hncfg hname hlists hnode).mpr (halike p ncfg n hncfg hname)
  · obtain ⟨ncfg, hl⟩ := exists_lookup hn
    exact hadded.idle ⟨n, ncfg⟩ (order.mem_visit.mpr (AList.mem_lookup_iff.mp hl)) peer hpeer hnone
  · rw [← hs]
  · rw [← hs]
  · rw [Settings.ofUpdate, ← hcontracts]

/-- Two nodes with an edge; the first one has the allocations, the redundancy and the ports. -/
def sampleNodes (allocations : List String) (redundancy : Int) (ports : List PortConfig)
    (rtt : Nat) : EnsembleConfig :=
  ⟨(∅ : GoMap GoString AllocationConfig).insert (ascii "web") ⟨[], []⟩,
    ((∅ : GoMap GoString NodeConfig).insert (ascii "b") .zero).insert (ascii "a")
      ⟨allocations.map ascii, ports, ⟨[], []⟩, [], redundancy⟩,
    [⟨ascii "a", ascii "b", rtt, 0⟩], ⟨[], []⟩, []⟩

def sampleSettings (contracts : GoMap GoString Unit) : Settings Unit :=
  ⟨[], ∅, ∅, false, ∅, contracts⟩

def sampleExisting (node : String) : GoMap GoString GoString :=
  (∅ : GoMap GoString GoString).insert (ascii node) (ascii "p")

/-- A node with a standby node and one without a peer, both with a new allocation. -/
theorem delta_describes_one :
    ∃ newConfig, newConfigForDeploymentUpdate (sampleNodes [] 1 [] 0) (sampleNodes ["web"] 1 [] 0)
        (sampleExisting "a") .stored = .ok newConfig ∧
      DescribesUpdate (sampleNodes [] 1 [] 0) (sampleNodes ["web"] 1 [] 0) (sampleSettings ∅)
        (sampleExisting "a") newConfig (sampleSettings ∅).ofUpdate := by
  refine ⟨_, rfl, (delta_describes_iff _ _ _ _ .stored _ rfl).mpr ⟨rfl, ?_⟩⟩
  rintro p node n hl ⟨i, hi, hname⟩
  have hknown : ∀ e ∈ (sampleNodes ["web"] 1 [] 0).nodes.entries, ∀ i < e.2.redundancy.toNat,
      ∀ n ∈ generateStandbyNodeID e.1 (i + 1), n = ascii "a-standby-1" ∧ e.1 = ascii "a" := by
    decide
  obtain ⟨rfl, rfl⟩ := hknown ⟨p, node⟩ (AList.mem_lookup_iff.mp hl) i hi n hname
  exact ⟨nofun, fun a => .rfl⟩

/-- Contracts are lost, and so is the peer of a standby node. A standby node that is new gets
what the update puts on its primary node, which may be nothing. -/
theorem delta_loses : (∃ newConfig, newConfigForDeploymentUpdate (sampleNodes [] 0 [] 0)
        (sampleNodes ["web"] 0 [] 0) ∅ .stored = .ok newConfig ∧
      let settings := sampleSettings ((∅ : GoMap GoString Unit).insert (ascii "c") ())
      ¬ DescribesUpdate (sampleNodes [] 0 [] 0) (sampleNodes ["web"] 0 [] 0) settings ∅ newConfig
        settings.ofUpdate) ∧
    (∃ newConfig, newConfigForDeploymentUpdate (sampleNodes [] 1 [] 0) (sampleNodes ["web"] 1 [] 0)
        (sampleExisting "a-standby-1") .stored = .ok newConfig ∧
      ¬ DescribesUpdate (sampleNodes [] 1 [] 0) (sampleNodes ["web"] 1 [] 0) (sampleSettings ∅)
        (sampleExisting "a-standby-1") newConfig (sampleSettings ∅).ofUpdate) ∧
    ∃ newConfig, newConfigForDeploymentUpdate (sampleNodes ["web"] 0 [] 0)
        (sampleNodes ["web"] 1 [] 0) ∅ .stored = .ok newConfig ∧
      ¬ DescribesUpdate (sampleNodes ["web"] 0 [] 0) (sampleNodes ["web"] 1 [] 0)
        (sampleSettings ∅) ∅ newConfig (sampleSettings ∅).ofUpdate := by
  refine ⟨⟨_, rfl, fun h => ?_⟩, ⟨_, rfl, fun h => ?_⟩, _, rfl, fun h => ?_⟩
  · exact absurd (congrArg (fun s => s.contracts.keys) h.settings) (by decide)
  · exact absurd ((h.nodes (ascii "a-standby-1") _ rfl).pinned (ascii "p") rfl) (by decide)
  · exact absurd ((h.nodes (ascii "a-standby-1") _ rfl).lists (ascii "web")) (by decide)

def validateLocationConstraintsUpdate (current newLoc : LocationConstraints) : Bool :=
  let covers := fun (super sub : List Location) =>
    sub.all fun loc => super.any fun candidate => candidate.equal loc
  let accepted :=
    if newLoc.accept ≠ [] then current.accept ≠ [] && covers newLoc.accept current.accept
    else !(current.accept ≠ [] && newLoc.reject ≠ [])
  let rejected := newLoc.reject = [] || (current.reject ≠ [] && covers current.reject newLoc.reject)
  accepted && rejected

theorem any_of_covers {super sub : List Location} {l}
    (hcovers : (sub.all fun loc => super.any fun c => c.equal loc) = true)
    (h : (sub.any fun a => a.equal l) = true) : (super.any fun a => a.equal l) = true := by
  simp only [all_eq_true, any_eq_true] at hcovers h ⊢
  obtain ⟨loc, hloc, hl⟩ := h
  obtain ⟨c, hcandidate, hmatch⟩ := hcovers loc hloc
  exact ⟨c, hcandidate, Location.equal_trans hmatch hl⟩

/-- An accepted change of the constraints only widens them. -/
theorem location_update_widens (current newLoc : LocationConstraints)
    (h : validateLocationConstraintsUpdate current newLoc = true) (l : Location)
    (hl : l.satisfies current = true) : l.satisfies newLoc = true := by
  simp only [validateLocationConstraintsUpdate, Bool.and_eq_true] at h
  obtain ⟨haccepted, hrejected⟩ := h
  unfold Location.satisfies at hl ⊢
  split at haccepted
  · next hnew =>
    simp only [Bool.and_eq_true, decide_eq_true_eq] at haccepted
    rw [if_pos haccepted.1] at hl
    rw [if_pos hnew]
    exact any_of_covers haccepted.2 hl
  rename_i hnew
  rw [if_neg hnew]
  by_cases hnone : newLoc.reject = []
  · rw [hnone]
    rfl
  have hcurrent : ¬ current.accept ≠ [] := by simpa [hnone] using haccepted
  rw [if_neg hcurrent] at hl
  simp only [hnone, decide_false, Bool.false_or, Bool.and_eq_true] at hrejected
  by_contra hmeets
  rw [any_of_covers hrejected.2 (by simpa using hmeets)] at hl
  cases hl

theorem location_update_widens_city :
    let oslo : Location := ⟨ascii "EU", ascii "NO", ascii "Oslo", 1, ascii "isp"⟩
    oslo.satisfies ⟨[⟨ascii "EU", [], [], 0, []⟩], []⟩ = true := by
  refine location_update_widens ⟨[⟨ascii "EU", ascii "NO", [], 0, []⟩], []⟩ _ ?_ _ ?_
  · decide
  · decide

def validateNodeUpdate (name : GoString) (currNode modNode : NodeConfig) : Except String Unit :=
  if validateLocationConstraintsUpdate currNode.location modNode.location = false then
    .error (s!"invalid modification: changing node location for node '{printed name}' is not " ++
      "allowed")
  else
    let checked := currNode.ports.filter fun currPort =>
      currPort.allocation ∈ currNode.allocations ∧ currPort.allocation ∈ modNode.allocations
    if checked.all (fun currPort => currPort ∈ modNode.ports) = false then
      .error ("unsupported modification: changing node's ports for existing allocations on " ++
        s!"node '{printed name}' is not supported")
    else .ok ()

def validateNodesUpdate (modifiedConfig : EnsembleConfig) :
    List (Σ _ : GoString, NodeConfig) → Except String Unit
  | [] => .ok ()
  | e :: es =>
    match modifiedConfig.node e.1 with
    | none => validateNodesUpdate modifiedConfig es
    | some modNode =>
      if modNode.peer ≠ e.2.peer then validateNodesUpdate modifiedConfig es
      else (validateNodeUpdate e.1 e.2 modNode).bind fun _ =>
        validateNodesUpdate modifiedConfig es

def validateEnsembleUpdate (currentConfig modifiedConfig : EnsembleConfig) (order : RangeOrder) :
    Except String Unit :=
  if currentConfig.supervisor.allocations ≠ [] ∧ modifiedConfig.supervisor.allocations = [] then
    .error "invalid modification: removing supervisor is not allowed"
  else
    (validateNodesUpdate modifiedConfig (order.visit currentConfig.nodes.entries)).bind fun _ =>
      let existing := currentConfig.nodes
      let relocated := identifyRelocatedNodes currentConfig modifiedConfig
      let refused := modifiedConfig.edges.find? fun edge =>
        edge.s ∈ existing ∧ edge.t ∈ existing ∧ edge.s ∉ relocated ∧ edge.t ∉ relocated ∧
          ¬ currentConfig.edges.any fun currEdge =>
            (currEdge.s = edge.s ∧ currEdge.t = edge.t) ∨
              (currEdge.s = edge.t ∧ currEdge.t = edge.s)
      match refused with
      | some edge =>
        .error ("unsupported modification: adding edge constraints for already deployed nodes " ++
          s!"'{printed edge.s}' and '{printed edge.t}' is not supported")
      | none =>
        if currentConfig.supervisor.strategy ≠ modifiedConfig.supervisor.strategy then
          .error "unsupported modification: changing supervisor strategy is not supported"
        else .ok ()

variable {cfg cfg' : EnsembleConfig} {order : RangeOrder}

/-- A node of the current configuration that the modified one has with the same peer. -/
def Stays (cfg cfg' : EnsembleConfig) (name : GoString) (node node' : NodeConfig) : Prop :=
  cfg.nodes.lookup name = some node ∧ cfg'.node name = some node' ∧ node'.peer = node.peer

def Joins (edge e : EdgeConstraint) : Prop :=
  (e.s = edge.s ∧ e.t = edge.t) ∨ (e.s = edge.t ∧ e.t = edge.s)

/-- A port of an allocation that is on a node before and after. -/
def OfBoth (node node' : NodeConfig) (port : PortConfig) : Prop :=
  port.allocation ∈ node.allocations ∧ port.allocation ∈ node'.allocations

def Links (cfg cfg' : EnsembleConfig) (edge : EdgeConstraint) : Prop :=
  (∃ node node', Stays cfg cfg' edge.s node node') ∧ ∃ node node', Stays cfg cfg' edge.t node node'

structure LeavesAlone (cfg cfg' : EnsembleConfig) : Prop where
  ports : ∀ name node node', Stays cfg cfg' name node node' →
    ∀ port, OfBoth node node' port → (port ∈ node.ports ↔ port ∈ node'.ports)
  edges : ∀ edge ∈ cfg'.edges, Links cfg cfg' edge →
    ∃ e ∈ cfg.edges, Joins edge e ∧ e.rtt = edge.rtt ∧ e.bw = edge.bw

/-- What the validator does not look at: ports that are new, and the values of an edge. -/
structure AddsNothing (cfg cfg' : EnsembleConfig) : Prop where
  ports : ∀ name node node', Stays cfg cfg' name node node' →
    ∀ port ∈ node'.ports, OfBoth node node' port → port ∈ node.ports
  edges : ∀ edge ∈ cfg'.edges, Links cfg cfg' edge → (∃ e ∈ cfg.edges, Joins edge e) →
    ∃ e ∈ cfg.edges, Joins edge e ∧ e.rtt = edge.rtt ∧ e.bw = edge.bw

theorem ports_of_validateNodesUpdate {es} (h : validateNodesUpdate cfg' es = .ok ()) {e}
    (he : e ∈ es) {node'} (hmod : cfg'.node e.1 = some node')
    (hpeer : node'.peer = e.2.peer) {port} (hport : port ∈ e.2.ports)
    (hboth : OfBoth e.2 node' port) : port ∈ node'.ports := by
  induction es with
  | nil => cases he
  | cons first rest ih =>
    unfold validateNodesUpdate at h
    rcases mem_cons.mp he with rfl | he
    · rw [hmod] at h
      dsimp only at h
      rw [if_neg (not_not.mpr hpeer)] at h
      obtain ⟨_, hnode, -⟩ := bind_eq_ok.mp h
      obtain ⟨-, hnode⟩ := ite_error_eq_ok.mp hnode
      obtain ⟨hall, -⟩ := ite_error_eq_ok.mp hnode
      have hfound := all_eq_true.mp (Bool.not_eq_false _ ▸ hall) port
        (mem_filter.mpr ⟨hport, by simpa [OfBoth] using hboth⟩)
      exact of_decide_eq_true hfound
    split at h
    · exact ih h he
    split at h
    · exact ih h he
    · obtain ⟨_, -, hrest⟩ := bind_eq_ok.mp h
      exact ih hrest he

theorem not_relocated {name node node'}
    (h : Stays cfg cfg' name node node') :
    name ∈ cfg.nodes ∧ name ∉ identifyRelocatedNodes cfg cfg' := by
  obtain ⟨hcurr, hmod, hpeer⟩ := h
  refine ⟨mem_of_lookup hcurr, fun hmem => ?_⟩
  obtain ⟨moved, hlookup⟩ := exists_lookup hmem
  obtain ⟨hentry, hmoved⟩ := lookup_select.mp hlookup
  cases hentry.symm.trans hcurr
  simp [hmod, hpeer] at hmoved

theorem joins_of_validateEnsembleUpdate (h : validateEnsembleUpdate cfg cfg' order = .ok ())
    {edge} (hedge : edge ∈ cfg'.edges) (hlinks : Links cfg cfg' edge) :
    ∃ e ∈ cfg.edges, Joins edge e := by
  obtain ⟨⟨_, _, hs⟩, _, _, ht⟩ := hlinks
  obtain ⟨-, h⟩ := ite_error_eq_ok.mp h
  obtain ⟨_, -, h⟩ := bind_eq_ok.mp h
  dsimp only at h
  split at h
  · cases h
  rename_i hnone
  have hfound := find?_eq_none.mp hnone edge hedge
  simp only [not_relocated hs, not_relocated ht, not_false_eq_true, true_and,
    decide_eq_true_eq, not_not, any_eq_true] at hfound
  exact hfound

/-- An accepted update leaves ports and edges of what is deployed alone exactly when it adds no
port to an allocation that stays and changes no value of an edge. -/
theorem update_leaves_alone_iff (cfg cfg' : EnsembleConfig) (order : RangeOrder)
    (h : validateEnsembleUpdate cfg cfg' order = .ok ()) :
    LeavesAlone cfg cfg' ↔ AddsNothing cfg cfg' := by
  constructor
  · intro hleaves
    exact ⟨fun name node node' hstays port hport hboth =>
        (hleaves.ports name node node' hstays port hboth).mpr hport,
      fun edge hedge hlinks _ => hleaves.edges edge hedge hlinks⟩
  intro hadds
  refine ⟨fun name node node' hstays port hboth => ⟨fun hport => ?_, fun hport => ?_⟩,
    fun edge hedge hlinks => ?_⟩
  · obtain ⟨-, hnodes⟩ := ite_error_eq_ok.mp h
    obtain ⟨_, hnodes, -⟩ := bind_eq_ok.mp hnodes
    exact ports_of_validateNodesUpdate hnodes
      (order.mem_visit.mpr (AList.mem_lookup_iff.mp hstays.1)) hstays.2.1 hstays.2.2 hport hboth
  · exact hadds.ports name node node' hstays port hport hboth
  · exact hadds.edges edge hedge hlinks (joins_of_validateEnsembleUpdate h hedge hlinks)

def samplePort : PortConfig := ⟨8080, 80, ascii "web"⟩

def sampleLinked (ports : List PortConfig) (rtt : Nat) : EnsembleConfig :=
  sampleNodes ["web"] 0 ports rtt

/-- An update that adds an allocation with a port of its own. -/
theorem update_leaves_alone_addition :
    LeavesAlone (sampleLinked [samplePort] 10)
      (sampleNodes ["web", "db"] 0 [samplePort, ⟨9090, 90, ascii "db"⟩] 10) := by
  refine (update_leaves_alone_iff _ _ .stored rfl).mpr ⟨?_, ?_⟩
  · intro name node node' hstays port hport hboth
    have hknown : ∀ e ∈ (sampleLinked [samplePort] 10).nodes.entries, ∀ node' ∈
        (sampleNodes ["web", "db"] 0 [samplePort, ⟨9090, 90, ascii "db"⟩] 10).node e.1,
          ∀ port ∈ node'.ports, port.allocation ∈ e.2.allocations → port ∈ e.2.ports := by
      decide
    exact hknown ⟨name, node⟩ (AList.mem_lookup_iff.mp hstays.1) node' hstays.2.1 port hport
      hboth.1
  · exact fun edge hedge _ _ => ⟨edge, hedge, .inl ⟨rfl, rfl⟩, rfl, rfl⟩

/-- An accepted update that gives a deployed allocation a port, and one that changes an edge. -/
theorem update_changes_deployed :
    (validateEnsembleUpdate (sampleLinked [] 10) (sampleLinked [samplePort] 10) .stored = .ok () ∧
      ¬ LeavesAlone (sampleLinked [] 10) (sampleLinked [samplePort] 10)) ∧
    validateEnsembleUpdate (sampleLinked [] 10) (sampleLinked [] 20) .stored = .ok () ∧
      ¬ LeavesAlone (sampleLinked [] 10) (sampleLinked [] 20) := by
  refine ⟨⟨rfl, fun h => ?_⟩, rfl, fun h => ?_⟩
  · have hport := h.ports (ascii "a") _ _ ⟨rfl, rfl, rfl⟩ samplePort ⟨.head _, .head _⟩
    exact absurd (hport.mpr (by decide)) (by decide)
  obtain ⟨e, hmem, -, hrtt, -⟩ := h.edges _ (.head _) ⟨⟨_, _, rfl, rfl, rfl⟩, _, _, rfl, rfl, rfl⟩
  cases mem_singleton.mp hmem
  exact absurd hrtt (by decide)

end DMS.Orchestrator
