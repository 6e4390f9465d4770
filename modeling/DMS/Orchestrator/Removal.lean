import DMS.Orchestrator.Deploy
import DMS.Orchestrator.Diff

/-! # The removal phase of an update

`handleEnsembleRemovals` of `dms/orchestrator/update_manifest.go`. Nodes that are gone or
that change their peer are torn down; then the allocations that are gone are stopped on the
other nodes, whose lists are overwritten with those of the modified configuration.
-/

namespace DMS.Orchestrator

open Jobs EnsembleConfig AList

structure Running where
  cfg : EnsembleConfig
  manifest : EnsembleManifest

structure RemovalInputs where
  order : RangeOrder
  reverts : GoString → Reply
  dropped : RangeOrder
  turns : RangeOrder
  stops : GoString → Reply

def removeNodesAllocationsFromCfg (nodes : List GoString) (cfg : EnsembleConfig) : EnsembleConfig :=
  nodes.foldl (fun cfg node => cfg.removeNodeAndAllocations node) cfg

def teardownNodes (eid : GoString) (modifiedCfg : EnsembleConfig) (inputs : RemovalInputs)
    (s : Running) : Running × List String :=
  match newConfigForRemovedNodes s.cfg modifiedCfg inputs.order with
  | .error text => (s, [text])
  | .ok removeNodesCfg =>
    let names := removeNodesCfg.nodes.keys
    if names = [] then (s, [])
    else
      match manifestOnlyForNodes s.manifest (inputs.order.visit names) ⟨∅, ∅⟩ with
      | .error text => (s, [text])
      | .ok mf =>
        ({ cfg := removeNodesAllocationsFromCfg (inputs.dropped.visit names) s.cfg
           manifest := (revertNodes removeNodesCfg eid inputs.reverts
            (inputs.order.visit mf.nodes.entries) s.manifest).2 }, [])

def stopError (allocID : GoString) : Reply → Option String
  | .noMessage text => some text
  | .notInvoked text => some text
  | .timeout => some s!"timeout stopping allocation {printed allocID}"
  | .unreadable text => some text
  | .refused _ => some s!"failed to stop allocation {printed allocID}"
  | .ok => none

def stopAllocation (inputs : RemovalInputs) (manifest : EnsembleManifest) (key : GoString) :
    Option String :=
  match manifest.allocations.lookup key with
  | none => some s!"allocation {printed key} not found in manifest"
  | some amf => stopError amf.id (inputs.stops key)

/-- `strings.Split(alloc, ".")[1]`, which is the name of the allocation when the node has
no dot in its name. -/
def secondPart (key : GoString) : GoString := ((key.splitOn dot).drop 1).headD []

def writtenList (modifiedCfg : EnsembleConfig) (n : GoString) : List GoString :=
  ((modifiedCfg.primaryNodes.lookup n).map NodeConfig.allocations).getD []

def removalTurn (modifiedCfg : EnsembleConfig) (inputs : RemovalInputs) (n : GoString)
    (s : Running) : Running × List String :=
  let allocs := identifyRemovedAllocations s.cfg modifiedCfg n
  if allocs.keys = [] then (s, [])
  else
    let keys := allocs.keys.filterMap (generateManifestKey n)
    let nodeAllocs := writtenList modifiedCfg n
    ({ cfg := { s.cfg with
          allocations := GoMap.eraseAll (keys.map secondPart) s.cfg.allocations
          primaryNodes := s.cfg.primaryNodes.insert n
            { (s.cfg.primaryNodes.lookup n).getD .zero with allocations := nodeAllocs } }
       manifest := {
          allocations := GoMap.eraseAll keys s.manifest.allocations
          nodes := s.manifest.nodes.insert n
            { (s.manifest.nodes.lookup n).getD .zero with allocations := nodeAllocs } } },
      keys.filterMap (stopAllocation inputs s.manifest))

structure RemovalTurn where
  node : GoString
  before : Running

structure RemovalRun where
  turns : List RemovalTurn
  state : Running
  errs : List String

def removalTurns (modifiedCfg : EnsembleConfig) (inputs : RemovalInputs) :
    List GoString → Running → RemovalRun
  | [], s => ⟨[], s, []⟩
  | n :: ns, s =>
    let (s', errs) := removalTurn modifiedCfg inputs n s
    let rest := removalTurns modifiedCfg inputs ns s'
    ⟨⟨n, s⟩ :: rest.turns, rest.state, errs ++ rest.errs⟩

def handleEnsembleRemovals (eid : GoString) (modifiedCfg : EnsembleConfig)
    (inputs : RemovalInputs) (s : Running) : RemovalRun :=
  let (s', errs) := teardownNodes eid modifiedCfg inputs s
  let run := removalTurns modifiedCfg inputs (inputs.turns.visit s'.cfg.nodes.keys) s'
  { run with errs := errs ++ run.errs }

section Nodes

variable {eid : GoString} {mcfg : EnsembleConfig} {inp : RemovalInputs}

theorem removeNodeAndAllocations_lookup (cfg : EnsembleConfig) (name n : GoString) :
    (cfg.removeNodeAndAllocations name).primaryNodes.lookup n =
      if n = name then none else cfg.primaryNodes.lookup n := by
  unfold removeNodeAndAllocations
  split
  · next hnone =>
    split
    · next h =>
      subst h
      unfold node at hnone
      split at hnone
      · cases hnone
      · assumption
    · rfl
  split
  · next h => rw [h, lookup_erase]
  · next h => exact lookup_erase_ne h

theorem removeNodesAllocationsFromCfg_lookup (names : List GoString) (cfg : EnsembleConfig)
    (n : GoString) : (removeNodesAllocationsFromCfg names cfg).primaryNodes.lookup n =
      if n ∈ names then none else cfg.primaryNodes.lookup n := by
  induction names generalizing cfg with
  | nil => rfl
  | cons name names ih =>
    have h := ih (cfg.removeNodeAndAllocations name)
    rw [removeNodeAndAllocations_lookup] at h
    by_cases hname : n = name
    · rw [if_pos hname, ite_self] at h
      rw [if_pos (by simp [hname])]
      exact h
    · simp only [List.mem_cons, hname, false_or]
      rwa [if_neg hname] at h

theorem newConfigForRemovedNodes_nodes {oldCfg mcfg cfg order}
    (h : newConfigForRemovedNodes oldCfg mcfg order = .ok cfg) :
    cfg.nodes = (tornDown oldCfg mcfg).nodes := by
  unfold newConfigForRemovedNodes at h
  dsimp only at h
  split at h
  · cases h
  · cases h
    rfl

variable {s : Running} {ns : List GoString}

theorem teardownNodes_lookup (h : (teardownNodes eid mcfg inp s).2 = []) (n : GoString) :
    (teardownNodes eid mcfg inp s).1.cfg.primaryNodes.lookup n =
      if n ∈ (tornDown s.cfg mcfg).nodes then none else s.cfg.primaryNodes.lookup n := by
  unfold teardownNodes at h ⊢
  cases hcfg : newConfigForRemovedNodes s.cfg mcfg inp.order with
  | error text =>
    rw [hcfg] at h
    cases h
  | ok removeNodesCfg =>
    have hnodes := newConfigForRemovedNodes_nodes hcfg
    rw [hcfg] at h
    dsimp only at h ⊢
    by_cases hempty : removeNodesCfg.nodes.keys = []
    · rw [if_pos hempty, if_neg]
      rw [← hnodes, mem_keys, hempty]
      exact List.not_mem_nil
    rw [if_neg hempty] at h ⊢
    split at h
    · cases h
    · rw [removeNodesAllocationsFromCfg_lookup]
      simp [inp.dropped.mem_visit, mem_keys, hnodes]

def Rewritten (modifiedCfg : EnsembleConfig) (turns : List RemovalTurn) (n : GoString) : Prop :=
  ∃ t ∈ turns, t.node = n ∧ (identifyRemovedAllocations t.before.cfg modifiedCfg n).keys ≠ []

theorem removalTurn_lookup (n : GoString) (s : Running) {n'} (hne : n' ≠ n) :
    (removalTurn mcfg inp n s).1.cfg.primaryNodes.lookup n' = s.cfg.primaryNodes.lookup n' := by
  unfold removalTurn
  dsimp only
  split
  · rfl
  · exact lookup_insert_ne hne

theorem removalTurn_lookup_self (n : GoString) (s : Running) :
    (removalTurn mcfg inp n s).1.cfg.primaryNodes.lookup n =
      if (identifyRemovedAllocations s.cfg mcfg n).keys = [] then
        s.cfg.primaryNodes.lookup n
      else some { (s.cfg.primaryNodes.lookup n).getD .zero with
        allocations := writtenList mcfg n } := by
  unfold removalTurn
  dsimp only
  split
  · rfl
  · exact lookup_insert ..

theorem removalTurns_node {t} (ht : t ∈ (removalTurns mcfg inp ns s).turns) : t.node ∈ ns := by
  induction ns generalizing s with
  | nil => cases ht
  | cons n ns ih =>
    rcases List.mem_cons.mp ht with rfl | ht
    · exact .head _
    · exact .tail _ (ih ht)

theorem removalTurns_lookup_of_not_mem {n} (hn : n ∉ ns) :
    (removalTurns mcfg inp ns s).state.cfg.primaryNodes.lookup n = s.cfg.primaryNodes.lookup n := by
  induction ns generalizing s with
  | nil => rfl
  | cons n' ns ih =>
    obtain ⟨hne, hout⟩ := not_or.mp (fun h => hn (List.mem_cons.mpr h))
    exact (ih hout).trans (removalTurn_lookup n' s hne)

theorem removalTurns_lookup (hnodup : ns.Nodup) (s : Running) (n : GoString) :
    (Rewritten mcfg (removalTurns mcfg inp ns s).turns n ∧
      (removalTurns mcfg inp ns s).state.cfg.primaryNodes.lookup n =
        some { (s.cfg.primaryNodes.lookup n).getD .zero with
          allocations := writtenList mcfg n }) ∨
    (¬ Rewritten mcfg (removalTurns mcfg inp ns s).turns n ∧
      (removalTurns mcfg inp ns s).state.cfg.primaryNodes.lookup n =
        s.cfg.primaryNodes.lookup n) := by
  induction ns generalizing s with
  | nil =>
    refine .inr ⟨?_, rfl⟩
    rintro ⟨t, ⟨⟩, -⟩
  | cons n' ns ih =>
    obtain ⟨hout, hrest⟩ := List.nodup_cons.mp hnodup
    have hturns : ∀ m,
        Rewritten mcfg (removalTurns mcfg inp (n' :: ns) s).turns m ↔
        (n' = m ∧ (identifyRemovedAllocations s.cfg mcfg m).keys ≠ []) ∨
          Rewritten mcfg (removalTurns mcfg inp ns
            (removalTurn mcfg inp n' s).1).turns m := by
      intro m
      exact List.exists_mem_cons_iff ..
    by_cases hn : n = n'
    · subst hn
      have hlater : ¬ Rewritten mcfg (removalTurns mcfg inp ns
          (removalTurn mcfg inp n s).1).turns n := by
        rintro ⟨t, ht, hnode, -⟩
        exact hout (hnode ▸ removalTurns_node ht)
      have hlookup : (removalTurns mcfg inp (n :: ns) s).state.cfg.primaryNodes.lookup n
          = (removalTurn mcfg inp n s).1.cfg.primaryNodes.lookup n :=
        removalTurns_lookup_of_not_mem hout
      rw [hturns, hlookup, removalTurn_lookup_self]
      by_cases hkeys : (identifyRemovedAllocations s.cfg mcfg n).keys = []
      · refine .inr ⟨?_, if_pos hkeys⟩
        rintro (⟨-, h⟩ | h)
        · exact h hkeys
        · exact hlater h
      · exact .inl ⟨.inl ⟨rfl, hkeys⟩, if_neg hkeys⟩
    have hsame := @removalTurn_lookup mcfg inp n' s n hn
    have h := ih hrest (removalTurn mcfg inp n' s).1
    rw [hsame] at h
    rw [hturns, or_iff_right (a := n' = n ∧ _) fun h => hn h.1.symm]
    exact h

theorem handleEnsembleRemovals_lookup
    (herrs : (handleEnsembleRemovals eid mcfg inp s).errs = []) {n}
    (hn : n ∉ (tornDown s.cfg mcfg).nodes) :
    (Rewritten mcfg (handleEnsembleRemovals eid mcfg inp s).turns n ∧
      (handleEnsembleRemovals eid mcfg inp s).state.cfg.primaryNodes.lookup n =
        some { (s.cfg.primaryNodes.lookup n).getD .zero with
          allocations := writtenList mcfg n }) ∨
    (¬ Rewritten mcfg (handleEnsembleRemovals eid mcfg inp s).turns n ∧
      (handleEnsembleRemovals eid mcfg inp s).state.cfg.primaryNodes.lookup n =
        s.cfg.primaryNodes.lookup n) := by
  have hteardown := (List.append_eq_nil_iff.mp herrs).1
  have hlookup := teardownNodes_lookup hteardown n
  rw [if_neg hn] at hlookup
  have h := @removalTurns_lookup mcfg inp _ (inp.turns.nodup_visit
    (teardownNodes eid mcfg inp s).1.cfg.nodes.nodupKeys)
    (teardownNodes eid mcfg inp s).1 n
  rwa [hlookup] at h

end Nodes

def holder (cfg : EnsembleConfig) (n : GoString) : GoString :=
  if n ∈ cfg.primaryNodes then n
  else
    match parseNodeName n with
    | some (primaryNode, _) => primaryNode
    | none => n

/-- Both configurations know the node, and neither it nor its primary node is torn down. -/
structure Kept (cfg modifiedCfg : EnsembleConfig) (n : GoString) : Prop where
  listed : n ∈ cfg.nodes
  current : (cfg.node n).isSome = true
  modified : (modifiedCfg.node n).isSome = true
  stays : n ∉ (tornDown cfg modifiedCfg).nodes
  held : holder cfg n ∉ (tornDown cfg modifiedCfg).nodes

/-- The allocations of a kept node after the phase: the list that was written for it, the
list that was written for its primary node, or the list it had. -/
theorem kept_nodeAllocations {eid mcfg inp s}
    (herrs : (handleEnsembleRemovals eid mcfg inp s).errs = []) {n} (hn : Kept s.cfg mcfg n) :
    (handleEnsembleRemovals eid mcfg inp s).state.cfg.nodeAllocations n = open Classical in
      if Rewritten mcfg (handleEnsembleRemovals eid mcfg inp s).turns n then
        writtenList mcfg n
      else if Rewritten mcfg (handleEnsembleRemovals eid mcfg inp s).turns
          (holder s.cfg n) then
        writtenList mcfg (holder s.cfg n) else s.cfg.nodeAllocations n := by
  obtain ⟨node, hnode⟩ := Option.isSome_iff_exists.mp hn.current
  rcases handleEnsembleRemovals_lookup herrs hn.stays with ⟨hw, hlookup⟩ | ⟨hw, hlookup⟩
  · rw [if_pos hw]
    exact nodeAllocations_of_lookup hlookup
  rw [if_neg hw, nodeAllocations_of_node hnode]
  have hheld := hn.held
  rcases node_eq_some_iff.mp hnode with
    hl | ⟨hl, primaryNode, index, hparse, hprimary, hindex⟩
  · have hholder : holder s.cfg n = n := if_pos (GoMap.mem_of_lookup hl)
    rw [hholder, if_neg hw]
    exact nodeAllocations_of_lookup (hlookup.trans hl)
  have hholder : holder s.cfg n = primaryNode := by
    rw [holder, if_neg (lookup_eq_none.mp hl), hparse]
  rw [hholder] at hheld ⊢
  -- the index is still checked against the redundancy that the node had
  rcases handleEnsembleRemovals_lookup herrs hheld with ⟨hwp, hp⟩ | ⟨hwp, hp⟩
  · rw [hprimary] at hp
    rw [if_pos hwp]
    exact nodeAllocations_of_node (node_eq_some_iff.mpr
      (.inr ⟨hlookup.trans hl, primaryNode, index, hparse, hp, hindex⟩))
  rw [if_neg hwp]
  exact nodeAllocations_of_node (node_eq_some_iff.mpr
    (.inr ⟨hlookup.trans hl, primaryNode, index, hparse, hp.trans hprimary, hindex⟩))

/-- The removal phase hides nothing and repeats nothing on a node exactly when the list that it
wrote agrees with the original one on what the modified ensemble has there. -/
theorem removals_keep_additions_iff (eid : GoString) (modifiedCfg : EnsembleConfig)
    (inputs : RemovalInputs) (s : Running)
    (herrs : (handleEnsembleRemovals eid modifiedCfg inputs s).errs = [])
    (n : GoString) (hn : Kept s.cfg modifiedCfg n) (added : GoMap GoString AllocationConfig)
    (hadded : identifyNewAllocations
      (handleEnsembleRemovals eid modifiedCfg inputs s).state.cfg modifiedCfg n = .ok added) :
    (∀ a, a ∈ added ↔ a ∈ modifiedCfg.nodeAllocations n ∧ a ∉ s.cfg.nodeAllocations n) ↔
      (Rewritten modifiedCfg (handleEnsembleRemovals eid modifiedCfg inputs s).turns n →
        ∀ a ∈ modifiedCfg.nodeAllocations n,
          (a ∈ writtenList modifiedCfg n ↔ a ∈ s.cfg.nodeAllocations n)) ∧
      (¬ Rewritten modifiedCfg (handleEnsembleRemovals eid modifiedCfg inputs s).turns n →
        Rewritten modifiedCfg (handleEnsembleRemovals eid modifiedCfg inputs s).turns
          (holder s.cfg n) → ∀ a ∈ modifiedCfg.nodeAllocations n,
          (a ∈ writtenList modifiedCfg (holder s.cfg n) ↔ a ∈ s.cfg.nodeAllocations n)) := by
  have hcompare : ∀ l l' : List GoString, (∀ a, a ∈ modifiedCfg.nodeAllocations n ∧ a ∉ l ↔
        a ∈ modifiedCfg.nodeAllocations n ∧ a ∉ l') ↔
      ∀ a ∈ modifiedCfg.nodeAllocations n, (a ∈ l ↔ a ∈ l') := by
    intro l l'
    refine forall_congr' fun a => ?_
    tauto
  simp only [mem_identifyNewAllocations hadded, kept_nodeAllocations herrs hn]
  rw [hcompare]
  by_cases hw : Rewritten modifiedCfg (handleEnsembleRemovals eid modifiedCfg inputs s).turns n
  · simp [hw]
  by_cases hwp : Rewritten modifiedCfg
      (handleEnsembleRemovals eid modifiedCfg inputs s).turns (holder s.cfg n)
  · simp [hw, hwp]
  · simp [hw, hwp]

def sampleHost (allocs : List String) (redundancy : Int) : EnsembleConfig where
  allocations := GoMap.insertAll (allocs.map fun a => (ascii a, ⟨[], []⟩)) ∅
  primaryNodes := GoMap.insertAll
    [(ascii "n", { NodeConfig.zero with
      allocations := allocs.map ascii, redundancy := redundancy })] ∅
  edges := []
  supervisor := ⟨[], []⟩
  excludePeers := []

def sampleBids (cfg : EnsembleConfig) : Candidate :=
  cfg.nodes.mapValues fun n _ => ⟨ascii "e", n, n, ⟨[], [], [], 0, []⟩, sampleHandle, []⟩

def sampleRunning (allocs : List String) (redundancy : Int) : Running where
  cfg := sampleHost allocs redundancy
  manifest := (commit (sampleHost allocs redundancy) (ascii "e")
    (newManifest (ascii "e") (sampleHost allocs redundancy))
    (sampleBids (sampleHost allocs redundancy)) (sampleCommits allocs)).manifest

def sampleRemovals : RemovalInputs := ⟨.stored, fun _ => .ok, .stored, .stored, fun _ => .ok⟩

def sampleRemoval (old modified : List String) (redundancy : Int) : RemovalRun :=
  handleEnsembleRemovals (ascii "e") (sampleHost modified redundancy) sampleRemovals
    (sampleRunning old redundancy)

/-- An allocation that comes to a node which loses none is found. -/
theorem removals_keep_addition : (sampleRemoval ["a"] ["a", "b"] 0).errs = [] ∧
    ∃ added, identifyNewAllocations (sampleRemoval ["a"] ["a", "b"] 0).state.cfg
        (sampleHost ["a", "b"] 0) (ascii "n") = .ok added ∧
      ∀ a, a ∈ added ↔ a ∈ (sampleHost ["a", "b"] 0).nodeAllocations (ascii "n") ∧
        a ∉ (sampleHost ["a"] 0).nodeAllocations (ascii "n") := by
  have hnone : ∀ n,
      ¬ Rewritten (sampleHost ["a", "b"] 0) (sampleRemoval ["a"] ["a", "b"] 0).turns n := by
    rintro n ⟨t, ht, rfl, hkeys⟩
    obtain rfl := List.mem_singleton.mp ht
    exact hkeys rfl
  refine ⟨rfl, _, rfl, ?_⟩
  exact (removals_keep_additions_iff (ascii "e") (sampleHost ["a", "b"] 0) sampleRemovals
    (sampleRunning ["a"] 0) rfl (ascii "n") ⟨by decide, rfl, rfl, by decide, by decide⟩ _ rfl).mpr
      ⟨fun h => absurd h (hnone _), fun _ h => absurd h (hnone _)⟩

/-- A node that loses `a` and gains `b`: nothing is left to add. A node with a standby node that
loses `b`: when the turn of the standby node is first, `a` is found to be new. -/
theorem removals_hide_addition :
    (validateEnsembleUpdate (sampleHost ["a"] 0) (sampleHost ["b"] 0) .stored = .ok () ∧
      (sampleRemoval ["a"] ["b"] 0).errs = [] ∧
      Kept (sampleHost ["a"] 0) (sampleHost ["b"] 0) (ascii "n") ∧
      ∃ added, identifyNewAllocations (sampleRemoval ["a"] ["b"] 0).state.cfg
          (sampleHost ["b"] 0) (ascii "n") = .ok added ∧
        ascii "b" ∉ added ∧ ascii "b" ∈ (sampleHost ["b"] 0).nodeAllocations (ascii "n") ∧
        ascii "b" ∉ (sampleHost ["a"] 0).nodeAllocations (ascii "n")) ∧
    (validateEnsembleUpdate (sampleHost ["a", "b"] 1) (sampleHost ["a"] 1) .stored = .ok () ∧
      (sampleRemoval ["a", "b"] ["a"] 1).errs = [] ∧
      Kept (sampleHost ["a", "b"] 1) (sampleHost ["a"] 1) (ascii "n-standby-1") ∧
      ∃ added, identifyNewAllocations (sampleRemoval ["a", "b"] ["a"] 1).state.cfg
          (sampleHost ["a"] 1) (ascii "n-standby-1") = .ok added ∧ ascii "a" ∈ added ∧
        ascii "a" ∈ (sampleHost ["a", "b"] 1).nodeAllocations (ascii "n-standby-1")) := by
  refine ⟨⟨rfl, rfl, ⟨by decide, rfl, rfl, by decide, by decide⟩, _, rfl, by decide, by decide,
    by decide⟩, rfl, rfl, ⟨by decide, rfl, rfl, by decide, by decide⟩, _, rfl, by decide,
    by decide⟩

end DMS.Orchestrator
