import DMS.Core.Listing
import DMS.Orchestrator.Removal
import DMS.Orchestrator.StartOrder

/-! # Well-formed manifests

The nodes of a manifest list the keys of their allocations, and the entry of a key names its node.
The functions that write manifest and configuration follow each other in any order; each has a
condition under which it leaves them well formed.
-/

namespace DMS.Orchestrator

open Jobs EnsembleConfig Listing GoMap AList List

abbrev Lists (mf : EnsembleManifest) (n key : GoString) : Prop :=
  Listing.Lists NodeManifest.allocations mf.nodes n key

abbrev home (mf : EnsembleManifest) (key : GoString) : Option GoString :=
  Listing.owner AllocationManifest.nodeID mf.allocations key

structure WellFormed (s : Running) : Prop where
  listed : ∀ n nmf, s.manifest.nodes.lookup n = some nmf → ∀ key ∈ nmf.allocations,
    ∃ amf, s.manifest.allocations.lookup key = some amf ∧ amf.nodeID = n
  once : ∀ key ∈ s.manifest.allocations, ∃! n, Lists s.manifest n key
  defined : ∀ n node, s.cfg.primaryNodes.lookup n = some node → ∀ a ∈ node.allocations,
    a ∈ s.cfg.allocations
  primary : ∀ n ∈ s.cfg.primaryNodes, parseNodeName n = none

/-- A manifest whose two maps say the same. A key ends with the name of the allocation, so
that it tells which node it is of. -/
structure Indexed (mf : EnsembleManifest) : Prop where
  agree : Listing.Agree NodeManifest.allocations AllocationManifest.nodeID mf.nodes mf.allocations
  keyed : ∀ n key, Lists mf n key → ∃ a, dot ∉ a ∧ key = n ++ dot :: a

/-- A configuration that defines what it lists, without standby nodes. -/
structure Closed (cfg : EnsembleConfig) : Prop where
  defined : ∀ n node, cfg.primaryNodes.lookup n = some node → ∀ a ∈ node.allocations,
    a ∈ cfg.allocations
  primary : ∀ n ∈ cfg.primaryNodes, parseNodeName n = none

structure Invariant (s : Running) : Prop where
  manifest : Indexed s.manifest
  cfg : Closed s.cfg

variable {s : Running}

theorem Invariant.wellFormed (h : Invariant s) : WellFormed s := by
  refine ⟨fun n nmf hn key hkey => ?_, fun key hkey => ?_, h.cfg.defined, h.cfg.primary⟩
  · exact owner_eq_some.mp ((h.manifest.agree n key).mp ⟨nmf, hn, hkey⟩)
  · exact h.manifest.agree.unique hkey

variable {n eid : GoString} {cfg : EnsembleConfig} {a : GoString}

theorem node_of_key {n' a' : GoString} (ha : dot ∉ a) (ha' : dot ∉ a')
    (h : n ++ dot :: a = n' ++ dot :: a') : n = n' := by
  rcases append_eq_append_iff.mp h with ⟨rest, hn, hrest⟩ | ⟨rest, hn, hrest⟩
  · cases rest with
    | nil => simp [hn]
    | cons c rest =>
      rw [cons_append, cons.injEq] at hrest
      exact absurd (by simp [hrest.2]) ha
  cases rest with
  | nil => simp [hn]
  | cons c rest =>
    rw [cons_append, cons.injEq] at hrest
    exact absurd (by simp [hrest.2]) ha'

namespace Indexed

variable {mf : EnsembleManifest}

theorem node_of_listed (h : Indexed mf) {n n' key} (hlisted : Lists mf n' key)
    (ha : dot ∉ a) (hkey : key = n ++ dot :: a) : n' = n := by
  obtain ⟨a', ha', hkey'⟩ := h.keyed n' key hlisted
  exact node_of_key ha' ha (hkey'.symm.trans hkey)

end Indexed

abbrev Undotted (cfg : EnsembleConfig) : Prop :=
  ∀ e ∈ cfg.nodes.entries, ∀ a ∈ e.2.allocations, dot ∉ e.1 ∧ dot ∉ a

theorem lists_newManifest {key} : Lists (newManifest eid cfg) n key ↔
      ∃ node, cfg.nodes.lookup n = some node ∧ key ∈ nodeAllocations cfg n node.allocations := by
  rw [Lists, Listing.Lists, newManifest_lookup]
  cases cfg.nodes.lookup n with
  | none => simp
  | some node => simp [newNodeManifest]

theorem lists_of_home_newManifest {key}
    (h : home (newManifest eid cfg) key = some n) : Lists (newManifest eid cfg) n key := by
  obtain ⟨amf, hamf, rfl⟩ := owner_eq_some.mp h
  rcases lookup_insertAll_cases hamf with hin | hnone
  · obtain ⟨e, he, hin⟩ := mem_flatMap.mp hin
    obtain ⟨key', hkey', hentry⟩ := mem_filterMap.mp hin
    unfold newAllocationManifest at hentry
    split at hentry
    · obtain ⟨alloc, -, hentry⟩ := Option.bind_eq_some_iff.mp hentry
      obtain ⟨id, -, hentry⟩ := Option.map_eq_some_iff.mp hentry
      cases hentry
      exact ⟨e.2, mem_lookup_iff.mpr he, hkey'⟩
    · cases hentry
  · cases hnone

theorem indexed_newManifest (eid : EnsembleID) (h : Undotted cfg) :
    Indexed (newManifest eid cfg) := by
  have hparts : ∀ n key, Lists (newManifest eid.1 cfg) n key →
      ∃ a, dot ∉ n ∧ dot ∉ a ∧ key = n ++ dot :: a := by
    intro n key hlisted
    obtain ⟨node, hnode, hkey⟩ := lists_newManifest.mp hlisted
    obtain ⟨a, ha, -, hgen⟩ := mem_nodeAllocations.mp hkey
    obtain ⟨hdotn, hdota⟩ := h ⟨n, node⟩ (mem_lookup_iff.mp hnode) a ha
    exact ⟨a, hdotn, hdota, (generateManifestKey_eq_some.mp hgen).2.2⟩
  refine ⟨fun n key => ⟨fun hlisted => ?_, lists_of_home_newManifest⟩, fun n key hlisted => ?_⟩
  · obtain ⟨node, hnode, hkey⟩ := lists_newManifest.mp hlisted
    obtain ⟨a, hdotn, hdota, rfl⟩ := hparts n key hlisted
    have hmem : n ++ dot :: a ∈ (newManifest eid.1 cfg).allocations :=
      mem_newManifest_allocations hnode hkey (splitOn_length_two.mpr ⟨hdotn, hdota⟩)
    obtain ⟨amf, hamf⟩ := exists_lookup hmem
    have hhome : home (newManifest eid.1 cfg) (n ++ dot :: a) = some amf.nodeID :=
      owner_eq_some.mpr ⟨amf, hamf, rfl⟩
    obtain ⟨a', -, hdota', hkey'⟩ := hparts _ _ (lists_of_home_newManifest hhome)
    show home (newManifest eid.1 cfg) (n ++ dot :: a) = some n
    rw [hhome, node_of_key hdota hdota' hkey']
  · obtain ⟨a, -, hdota, hkey⟩ := hparts n key hlisted
    exact ⟨a, hdota, hkey⟩

/-- The placement has the node of every key that is listed and can be taken apart. -/
abbrev PlacedBy (mf : EnsembleManifest) (p : Placement) : Prop :=
  ∀ e ∈ mf.nodes.entries, ∀ key ∈ e.2.allocations, parseManifestKey key ≠ none →
    p.allocationNodes.lookup key = some e.1

namespace Indexed

variable {mf : EnsembleManifest}

theorem updateManifestAllocations (h : Indexed mf) {eid p}
    (hplaced : PlacedBy mf p) (allocations : GoMap GoString Handle) (order : RangeOrder) :
    Indexed (updateManifestAllocations eid p allocations order mf) := by
  have hhome : ∀ key, home (Orchestrator.updateManifestAllocations eid p allocations order mf)
      key = home mf key := by
    refine nodeID_updateManifestAllocations fun n nmf hn key hkey hparse amf hamf => ?_
    obtain ⟨amf', hamf', hnode⟩ := owner_eq_some.mp ((h.agree n key).mp ⟨nmf, hn, hkey⟩)
    cases hamf.symm.trans hamf'
    rw [hnode]
    exact hplaced ⟨n, nmf⟩ (mem_lookup_iff.mp hn) key hkey hparse
  refine ⟨fun n key => ?_, h.keyed⟩
  show Lists mf n key ↔
    home (Orchestrator.updateManifestAllocations eid p allocations order mf) key = some n
  rw [hhome key]
  exact h.agree n key

theorem removeNodeFromManifest (h : Indexed mf) (name : GoString) :
    Indexed (removeNodeFromManifest name mf) := by
  unfold Orchestrator.removeNodeFromManifest
  split
  · exact h
  rename_i nmf hnmf
  refine ⟨h.agree.drop (fun n key => lists_erase) (fun key hlisted => ?_)
    (fun key hkey n hlisted => ?_), fun n key hlisted => ?_⟩
  · obtain ⟨nmf', hnmf', hkey⟩ := hlisted
    cases hnmf.symm.trans hnmf'
    exact hkey
  · have hhome := (h.agree name key).mp ⟨nmf, hnmf, hkey⟩
    rw [(h.agree n key).mp hlisted] at hhome
    exact Option.some.inj hhome
  · exact h.keyed n key (lists_erase.mp hlisted).2

theorem revertNodeDeployment (h : Indexed mf) (cfg : EnsembleConfig) (eid n : GoString)
    (dest : Handle) (reply : Reply) : Indexed (revertNodeDeployment cfg eid n dest reply mf).2 := by
  unfold Orchestrator.revertNodeDeployment
  split
  · exact h
  split
  · exact h
  split
  · exact h.removeNodeFromManifest n
  · exact h

theorem revertNodes (h : Indexed mf) (cfg : EnsembleConfig) (eid : GoString)
    (replies : GoString → Reply) (es : List (Σ _, NodeManifest)) :
    Indexed (revertNodes cfg eid replies es mf).2 := by
  induction es generalizing mf with
  | nil => exact h
  | cons e es ih => exact ih (h.revertNodeDeployment cfg eid e.1 e.2.handle (replies e.1))

end Indexed

section Teardown

variable {cfg : EnsembleConfig}

theorem mem_removeNodeAndAllocations {name} : a ∈ (cfg.removeNodeAndAllocations name).allocations ↔
      a ∈ cfg.allocations ∧ a ∉ cfg.nodeAllocations name := by
  unfold removeNodeAndAllocations EnsembleConfig.nodeAllocations
  cases cfg.node name with
  | none => simp
  | some node =>
    have herase := lookup_eraseAll node.allocations cfg.allocations a
    rw [← lookup_isSome, ← lookup_isSome]
    refine (iff_of_eq (congrArg (fun o => o.isSome = true) herase)).trans ?_
    by_cases ha : a ∈ node.allocations
    · simp [ha]
    · simp [ha]

theorem node_of_removeNodeAndAllocations {name n node}
    (hne : n ≠ name) (h : (cfg.removeNodeAndAllocations name).node n = some node) :
    cfg.node n = some node := by
  have hsome : ∀ n' node', (cfg.removeNodeAndAllocations name).primaryNodes.lookup n' =
      some node' → cfg.primaryNodes.lookup n' = some node' := by
    intro n' node' hl
    rw [removeNodeAndAllocations_lookup] at hl
    split at hl
    · cases hl
    · exact hl
  rw [node_eq_some_iff] at h ⊢
  rcases h with hl | ⟨hnone, pid, standbyIndex, hparse, hl, hindex⟩
  · exact .inl (hsome n node hl)
  · rw [removeNodeAndAllocations_lookup, if_neg hne] at hnone
    exact .inr ⟨hnone, pid, standbyIndex, hparse, hsome _ _ hl, hindex⟩

theorem mem_removeNodesAllocationsFromCfg {names : List GoString} (hnodup : names.Nodup)
    (ha : a ∈ cfg.allocations) (hout : ∀ name ∈ names, a ∉ cfg.nodeAllocations name) :
    a ∈ (removeNodesAllocationsFromCfg names cfg).allocations := by
  induction names generalizing cfg with
  | nil => exact ha
  | cons name names ih =>
    obtain ⟨hname, hrest⟩ := nodup_cons.mp hnodup
    refine ih hrest ?_ fun name' hname' hlisted => ?_
    · exact mem_removeNodeAndAllocations.mpr ⟨ha, hout name (.head _)⟩
    have hne : name' ≠ name := fun heq => hname (heq ▸ hname')
    obtain ⟨node, hnode⟩ := Option.isSome_iff_exists.mp (isSome_node_of_mem hlisted)
    rw [nodeAllocations_of_node hnode] at hlisted
    refine hout name' (.tail _ hname') ?_
    rw [nodeAllocations_of_node (node_of_removeNodeAndAllocations hne hnode)]
    exact hlisted

abbrev Unshared (cfg : EnsembleConfig) (names : List GoString) : Prop :=
  ∀ name ∈ names, ∀ a ∈ cfg.nodeAllocations name, ∀ e ∈ cfg.primaryNodes.entries,
    a ∈ e.2.allocations → e.1 ∈ names

theorem Closed.removeNodes (h : Closed cfg) {names : List GoString} (hnodup : names.Nodup)
    (hshared : Unshared cfg names) : Closed (removeNodesAllocationsFromCfg names cfg) := by
  have hkept : ∀ n node, (removeNodesAllocationsFromCfg names cfg).primaryNodes.lookup n =
      some node → n ∉ names ∧ cfg.primaryNodes.lookup n = some node := by
    intro n node hl
    rw [removeNodesAllocationsFromCfg_lookup] at hl
    split at hl
    · cases hl
    · next hn => exact ⟨hn, hl⟩
  refine ⟨fun n node hl a ha => ?_, fun n hn => ?_⟩
  · obtain ⟨hn, hl⟩ := hkept n node hl
    refine mem_removeNodesAllocationsFromCfg hnodup (h.defined n node hl a ha)
      fun name hname hlisted => hn ?_
    exact hshared name hname a hlisted ⟨n, node⟩ (mem_lookup_iff.mp hl) ha
  · obtain ⟨node, hl⟩ := exists_lookup hn
    exact h.primary n (mem_of_lookup (hkept n node hl).2)

theorem Invariant.teardownNodes (h : Invariant s) {eid mcfg inp}
    (hshared : (teardownNodes eid mcfg inp s).2 = [] →
      Unshared s.cfg (tornDown s.cfg mcfg).nodes.keys) :
    Invariant (teardownNodes eid mcfg inp s).1 := by
  unfold Orchestrator.teardownNodes at hshared ⊢
  cases hcfg : newConfigForRemovedNodes s.cfg mcfg inp.order with
  | error text => exact h
  | ok removeNodesCfg =>
    have hnodes := newConfigForRemovedNodes_nodes hcfg
    rw [hcfg] at hshared
    dsimp only at hshared ⊢
    by_cases hempty : removeNodesCfg.nodes.keys = []
    · rw [if_pos hempty]
      exact h
    rw [if_neg hempty] at hshared ⊢
    split
    · exact h
    rename_i mf hmf
    rw [hmf] at hshared
    refine ⟨h.manifest.revertNodes removeNodesCfg eid inp.reverts _, ?_⟩
    refine h.cfg.removeNodes (inp.dropped.nodup_visit removeNodesCfg.nodes.nodupKeys) ?_
    intro name hname a ha e he hin
    rw [inp.dropped.mem_visit, hnodes] at hname ⊢
    exact hshared rfl name hname a ha e he hin

end Teardown

def removedKeys (modifiedCfg : EnsembleConfig) (t : RemovalTurn) : List GoString :=
  (identifyRemovedAllocations t.before.cfg modifiedCfg t.node).keys.filterMap
    (generateManifestKey t.node)

/-- The turn of a node with something to remove: it is a written node that keeps nothing, no other
node lists what is removed, and the keys can be taken apart. -/
structure TurnFits (modifiedCfg : EnsembleConfig) (t : RemovalTurn) : Prop where
  primary : parseNodeName t.node = none
  emptied : writtenList modifiedCfg t.node = []
  covered : ∀ key ∈ ((t.before.manifest.nodes.lookup t.node).map
    NodeManifest.allocations).getD [], key ∈ removedKeys modifiedCfg t
  unshared : ∀ e ∈ t.before.cfg.primaryNodes.entries, e.1 ≠ t.node → ∀ a ∈ e.2.allocations,
    a ∉ (identifyRemovedAllocations t.before.cfg modifiedCfg t.node).keys
  undotted : ∀ a ∈ (identifyRemovedAllocations t.before.cfg modifiedCfg t.node).keys,
    dot ∉ t.node ∧ dot ∉ a

section Stopping

variable {mcfg : EnsembleConfig} {inp : RemovalInputs}

theorem Indexed.removalTurn {t : RemovalTurn} (h : Indexed t.before.manifest)
    (hfits : TurnFits mcfg t) (emptied : NodeManifest)
    (hemptied : emptied.allocations = []) : Indexed
      { allocations := GoMap.eraseAll (removedKeys mcfg t) t.before.manifest.allocations
        nodes := t.before.manifest.nodes.insert t.node emptied } := by
  have hlists : ∀ n key, Listing.Lists NodeManifest.allocations
      (t.before.manifest.nodes.insert t.node emptied) n key ↔
        n ≠ t.node ∧ Lists t.before.manifest n key := by
    intro n key
    rw [lists_insert, hemptied]
    simp
  refine ⟨h.agree.drop hlists (fun key hlisted => ?_) (fun key hkey n hlisted => ?_),
    fun n key hlisted => h.keyed n key ((hlists n key).mp hlisted).2⟩
  · obtain ⟨nmf, hnmf, hkey⟩ := hlisted
    refine hfits.covered key ?_
    rw [hnmf]
    exact hkey
  · obtain ⟨a, ha, hgen⟩ := mem_filterMap.mp hkey
    exact h.node_of_listed hlisted (hfits.undotted a ha).2 (generateManifestKey_eq_some.mp hgen).2.2

theorem Invariant.removalTurn {n} (h : Invariant s)
    (hfits : (identifyRemovedAllocations s.cfg mcfg n).keys ≠ [] →
      TurnFits mcfg ⟨n, s⟩) : Invariant (removalTurn mcfg inp n s).1 := by
  unfold Orchestrator.removalTurn
  dsimp only
  split
  · exact h
  rename_i hfound
  have hfits := hfits hfound
  refine ⟨h.manifest.removalTurn hfits _ hfits.emptied,
    ⟨fun n' node hl a ha => ?_, fun n' hn' => ?_⟩⟩
  · rcases lookup_insert_cases hl with ⟨rfl, rfl⟩ | ⟨hn, hl⟩
    · rw [hfits.emptied] at ha
      cases ha
    rw [← lookup_isSome, lookup_eraseAll, if_neg, lookup_isSome]
    · exact h.cfg.defined n' node hl a ha
    intro hremoved
    obtain ⟨key, hkey, rfl⟩ := mem_map.mp hremoved
    obtain ⟨b, hb, hgen⟩ := mem_filterMap.mp hkey
    obtain ⟨hdotn, hdotb⟩ := hfits.undotted b hb
    rw [(generateManifestKey_eq_some.mp hgen).2.2, secondPart, splitOn_two_parts hdotn hdotb] at ha
    exact hfits.unshared ⟨n', node⟩ (mem_lookup_iff.mp hl) hn b ha hb
  rcases (mem_insert _).mp hn' with rfl | hold
  · exact hfits.primary
  · exact h.cfg.primary n' hold

theorem Invariant.removalTurns {ns} (h : Invariant s)
    (hfits : ∀ t ∈ (removalTurns mcfg inp ns s).turns,
      (identifyRemovedAllocations t.before.cfg mcfg t.node).keys ≠ [] →
        TurnFits mcfg t) : Invariant (removalTurns mcfg inp ns s).state := by
  induction ns generalizing s with
  | nil => exact h
  | cons n ns ih =>
    refine ih (h.removalTurn (hfits ⟨n, s⟩ (.head _))) fun t ht => ?_
    exact hfits t (.tail _ ht)

end Stopping

/-- What the removals have to meet: nothing that is torn down is shared, and every turn that
finds something to remove fits. -/
structure RemovalFits (eid : GoString) (modifiedCfg : EnsembleConfig) (inputs : RemovalInputs)
    (s : Running) : Prop where
  unshared : (teardownNodes eid modifiedCfg inputs s).2 = [] →
    Unshared s.cfg (tornDown s.cfg modifiedCfg).nodes.keys
  turns : ∀ t ∈ (handleEnsembleRemovals eid modifiedCfg inputs s).turns,
    (identifyRemovedAllocations t.before.cfg modifiedCfg t.node).keys ≠ [] → TurnFits modifiedCfg t

theorem Invariant.handleEnsembleRemovals (h : Invariant s) {mcfg inp}
    (hfits : RemovalFits eid mcfg inp s) :
    Invariant (handleEnsembleRemovals eid mcfg inp s).state :=
  (h.teardownNodes hfits.unshared).removalTurns hfits.turns

end DMS.Orchestrator
