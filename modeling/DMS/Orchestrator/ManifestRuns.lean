import DMS.Core.Reach
import DMS.Orchestrator.Update
import DMS.Orchestrator.WellFormed

/-! # Runs over a manifest

The additions of an update put a second manifest into the running one and write further
nodes into the configuration. With them, every function that writes a manifest is a step of
a run, and a run whose steps meet their conditions goes through well-formed states only.
-/

namespace DMS.Orchestrator

open Jobs EnsembleConfig GoMap Listing AList

/-- What the additions have to meet: the modified ensemble has no standby nodes, the names
that are new have no dot, and every node with something new has a bid. -/
structure AddFits (cfg modifiedCfg : EnsembleConfig) (candidate : Candidate) : Prop where
  primary : ∀ e ∈ modifiedCfg.primaryNodes.entries, parseNodeName e.1 = none
  alone : ∀ e ∈ modifiedCfg.primaryNodes.entries, e.2.redundancy ≤ 0
  undotted : ∀ n ∈ modifiedCfg.nodes.keys, ∀ a ∈ modifiedCfg.nodeAllocations n,
    a ∉ cfg.nodeAllocations n → dot ∉ n ∧ dot ∉ a
  bids : ∀ n ∈ modifiedCfg.nodes.keys, ∀ a ∈ modifiedCfg.nodeAllocations n,
    a ∉ cfg.nodeAllocations n → n ∈ candidate

namespace AddFits

variable {cfg mcfg delta : EnsembleConfig} {c : Candidate}
  {old : GoMap GoString GoString} {additions : RangeOrder}
  (h : AddFits cfg mcfg c)
  (hconfig : newConfigForDeploymentUpdate cfg mcfg old additions = .ok delta)

include h

theorem toAlone : mcfg.Alone := fun n node hl => h.alone ⟨n, node⟩ (mem_lookup_iff.mp hl)

theorem parseNodeName {n} (hn : n ∈ mcfg.nodes) : parseNodeName n = none := by
  obtain ⟨node, hl⟩ := h.toAlone.exists_lookup hn
  exact h.primary ⟨n, node⟩ (mem_lookup_iff.mp hl)

include hconfig

theorem newConfig_lookup (n : GoString) : delta.nodes.lookup n = delta.primaryNodes.lookup n :=
  (Alone.newConfig hconfig h.toAlone).nodes_lookup n

theorem listed_new {n a ncfg} (hn : delta.nodes.lookup n = some ncfg) (ha : a ∈ ncfg.allocations) :
    n ∈ mcfg.nodes.keys ∧ a ∈ mcfg.nodeAllocations n ∧ a ∉ cfg.nodeAllocations n := by
  refine ⟨mem_keys.mp ((mem_newConfig_nodes hconfig).mp (mem_of_lookup hn)), ?_⟩
  rw [h.newConfig_lookup hconfig] at hn
  obtain ⟨-, -, hlists, -⟩ := newConfig_entry hconfig hn
  exact (hlists a).mp ha

theorem undotted_newConfig : Undotted delta := by
  intro e he a ha
  obtain ⟨hn, hmod, hnew⟩ := h.listed_new hconfig (mem_lookup_iff.mpr he) ha
  exact h.undotted e.1 hn a hmod hnew

theorem deployedConfig_newConfig {n ncfg}
    (hn : delta.nodes.lookup n = some ncfg) : deployedConfig delta n = some ncfg := by
  have hparse := h.parseNodeName ((mem_newConfig_nodes hconfig).mp (mem_of_lookup hn))
  rw [h.newConfig_lookup hconfig] at hn
  rw [deployedConfig, hparse]
  exact node_of_lookup hn

end AddFits

section Merging

variable {mf cm : EnsembleManifest} {order : RangeOrder}

theorem lists_mergeManifest {n key} : Lists (mergeManifest order mf cm) n key ↔
      Lists mf n key ∨ Lists cm n key := by
  have hfold := lookup_foldl_entries EnsembleManifest.nodes (mergeNode mf)
    (fun _ node old => some (mergedEntry node old)) (mergeNode_lookup mf)
    (order.perm mf.nodes.entries) cm n
  unfold Lists Listing.Lists mergeManifest
  rw [hfold]
  cases mf.nodes.lookup n with
  | none => simp
  | some node =>
    cases cm.nodes.lookup n with
    | none | some old => simp [mergedEntry]

theorem mergeNode_entry (e : Σ _, NodeManifest) (key : GoString) :
    (mergeNode mf cm e).allocations.lookup key =
      if key ∈ e.2.allocations then some ((mf.allocations.lookup key).getD .zero)
      else cm.allocations.lookup key := by
  split
  · next hkey =>
    refine lookup_insertAll_of_unique (List.mem_map.mpr ⟨key, hkey, rfl⟩) ?_
    intro amf hamf
    obtain ⟨key', -, ⟨⟩⟩ := List.mem_map.mp hamf
    rfl
  rename_i hkey
  refine lookup_insertAll_of_not_mem fun amf hamf => hkey ?_
  obtain ⟨key', hkey', ⟨⟩⟩ := List.mem_map.mp hamf
  exact hkey'

theorem mergeManifest_entry (key : GoString) : (mergeManifest order mf cm).allocations.lookup key =
      if ∃ e ∈ order.visit mf.nodes.entries, key ∈ e.2.allocations then
        some ((mf.allocations.lookup key).getD .zero) else cm.allocations.lookup key :=
  foldl_assign (fun m : EnsembleManifest => m.allocations.lookup key)
    (fun e : Σ _, NodeManifest => key ∈ e.2.allocations) _ _
    (fun _ e _ => mergeNode_entry e key) _

theorem Indexed.mergeManifest (h : Indexed cm)
    (hhome : ∀ n key, Lists mf n key → home mf key = some n)
    (hkeyed : ∀ n key, Lists mf n key → ∃ a, dot ∉ a ∧ key = n ++ dot :: a) :
    Indexed (mergeManifest order mf cm) := by
  have hvisit : ∀ key, (∃ e ∈ order.visit mf.nodes.entries, key ∈ e.2.allocations) ↔
      ∃ n, Lists mf n key := by
    intro key
    simp only [order.mem_visit]
    exact exists_mem_entries (P := fun _ (node : NodeManifest) => key ∈ node.allocations)
  refine ⟨h.agree.extend (fun n key => lists_mergeManifest) (fun n key hnew => ?_)
    (fun key hold => ?_) (fun n n' key hnew hlisted => ?_), fun n key hlisted => ?_⟩
  · obtain ⟨amf, hamf, hnode⟩ := owner_eq_some.mp (hhome n key hnew)
    refine owner_eq_some.mpr ⟨amf, ?_, hnode⟩
    rw [mergeManifest_entry, if_pos ((hvisit key).mpr ⟨n, hnew⟩), hamf]
    rfl
  · unfold owner
    rw [mergeManifest_entry, if_neg]
    intro hin
    obtain ⟨n, hn⟩ := (hvisit key).mp hin
    exact hold n hn
  · obtain ⟨a, ha, hkey⟩ := hkeyed n key hnew
    exact h.node_of_listed hlisted ha hkey
  rcases lists_mergeManifest.mp hlisted with hnew | hold
  · exact hkeyed n key hnew
  · exact h.keyed n key hold

end Merging

section Additions

variable {eid : EnsembleID} {cfg mcfg delta : EnsembleConfig}
  {pre prov : EnsembleManifest} {c : Candidate} {commits : CommitInputs}
  {old : GoMap GoString GoString} {additions order : RangeOrder}

theorem home_extendedManifest (hbefore : Indexed pre) (hundotted : Undotted delta)
    {n key} (hlisted : Lists (newManifest eid delta) n key) :
    home (extendedManifest eid delta pre) key = some n := by
  have hnew := indexed_newManifest eid hundotted
  have hentry : (extendedManifest eid delta pre).allocations.lookup key =
      (pre.allocations.lookup key).or ((newManifest eid delta).allocations.lookup key) :=
    lookup_insertAll_entries ..
  obtain ⟨a, hdota, hkey⟩ := hnew.keyed n key hlisted
  rw [home, owner, hentry]
  cases hold : pre.allocations.lookup key with
  | none => exact (hnew.agree n key).mp hlisted
  | some amf =>
    have hrunning : Lists pre amf.nodeID key :=
      (hbefore.agree _ key).mpr (owner_eq_some.mpr ⟨amf, hold, rfl⟩)
    exact congrArg some (hbefore.node_of_listed hrunning hdota hkey)

theorem Closed.mem_of_nodeAllocations (h : Closed cfg) {n a}
    (ha : a ∈ cfg.nodeAllocations n) : a ∈ cfg.allocations := by
  obtain ⟨node, hnode⟩ := Option.isSome_iff_exists.mp (isSome_node_of_mem ha)
  rw [nodeAllocations_of_node hnode] at ha
  rcases node_eq_some_iff.mp hnode with hl | ⟨-, pid, -, -, hl, -⟩
  · exact h.defined n node hl a ha
  · exact h.defined pid node hl a ha

section Extended

variable (hfits : AddFits cfg mcfg c)
  (hconfig : newConfigForDeploymentUpdate cfg mcfg old additions = .ok delta)

include hfits hconfig

theorem home_commit (hbefore : Indexed pre)
    (hcommit : (commit delta eid (extendedManifest eid delta pre) c
      commits).error = none) (key : GoString) :
    home (commit delta eid (extendedManifest eid delta pre) c
      commits).manifest key = home (extendedManifest eid delta pre) key := by
  have hundotted := hfits.undotted_newConfig hconfig
  refine nodeID_commit hcommit (fun n nmf hn key hkey amf hamf => ?_) key
  have hlisted : Lists (newManifest eid delta) n key := ⟨nmf, hn, hkey⟩
  have hhome := home_extendedManifest hbefore hundotted hlisted
  rw [owner_eq_some] at hhome
  obtain ⟨amf', hamf', rfl⟩ := hhome
  cases hamf.symm.trans hamf'
  obtain ⟨ncfg, hncfg, hin⟩ := lists_newManifest.mp hlisted
  obtain ⟨a, ha, -, hgen⟩ := mem_nodeAllocations.mp hin
  obtain ⟨hmem, hmod, hnew⟩ := hfits.listed_new hconfig hncfg ha
  have hdeployed := hfits.deployedConfig_newConfig hconfig hncfg
  refine ⟨hfits.bids _ hmem a hmod hnew, (generates_iff hdeployed).mpr ⟨a, ha, hgen⟩, ?_⟩
  intro n' hn' hgen'
  obtain ⟨bid, hbid⟩ := exists_lookup hn'
  have hnode : n' ∈ (newManifest eid delta).nodes := ((commit_of_ok hcommit).held n' bid hbid).2
  obtain ⟨ncfg', hncfg'⟩ := exists_lookup (mem_mapValues.mp hnode)
  obtain ⟨a', ha', hgen'⟩ :=
    (generates_iff (hfits.deployedConfig_newConfig hconfig hncfg')).mp hgen'
  have hdota := (hundotted ⟨_, ncfg⟩ (mem_lookup_iff.mp hncfg) a ha).2
  have hdota' := (hundotted ⟨n', ncfg'⟩ (mem_lookup_iff.mp hncfg') a' ha').2
  refine node_of_key hdota' hdota ?_
  rw [← (generateManifestKey_eq_some.mp hgen').2.2, ← (generateManifestKey_eq_some.mp hgen).2.2]

theorem Indexed.extended (hbefore : Indexed pre)
    (hcommit : (commit delta eid (extendedManifest eid delta pre) c
      commits).error = none)
    (hplaces : SamePlaces (commit delta eid (extendedManifest eid delta pre) c
      commits).manifest prov) : Indexed (Orchestrator.mergeManifest order prov pre) := by
  have hundotted := hfits.undotted_newConfig hconfig
  have hlists : ∀ n key, Lists prov n key ↔ Lists (newManifest eid delta) n key := by
    intro n key
    rw [Lists, hplaces.nodes]
    exact lists_of_lookup (filled_allocations c) (commit_of_ok hcommit).nodes
  refine hbefore.mergeManifest (fun n key hlisted => ?_) fun n key hlisted => ?_
  · rw [hlists] at hlisted
    exact (hplaces.nodeIDs key).trans ((home_commit hfits hconfig hbefore hcommit key).trans
      (home_extendedManifest hbefore hundotted hlisted))
  · rw [hlists] at hlisted
    exact (indexed_newManifest eid hundotted).keyed n key hlisted

theorem Closed.extended (h : Closed cfg) :
    Closed (addNodesAndAllocsToCfg order delta mcfg cfg) := by
  have hnodes : ∀ n, n ∈ delta.nodes ↔ n ∈ mcfg.nodes :=
    fun n => mem_newConfig_nodes hconfig
  have hwritten : ∀ n node, written mcfg cfg n = some node →
      n ∈ mcfg.nodes ∧ mcfg.node n = some node ∨
        cfg.primaryNodes.lookup n = some node := by
    intro n node hl
    unfold written at hl
    split at hl
    · next hn => exact (Option.or_eq_some_iff.mp hl).imp (fun h => ⟨hn, h⟩) And.right
    · exact .inr hl
  refine ⟨fun n node hl a ha => ?_, fun n hn => ?_⟩
  · rw [addNodesAndAllocsToCfg_lookup hnodes] at hl
    rw [mem_addNodesAndAllocsToCfg]
    rcases hwritten n node hl with ⟨hn, hnode⟩ | hold
    · rw [← nodeAllocations_of_node hnode] at ha
      by_cases hknown : a ∈ cfg.nodeAllocations n
      · exact .inl (h.mem_of_nodeAllocations hknown)
      · exact .inr ⟨(mem_newConfig_allocations hconfig).mpr ⟨n, hn, ha, hknown⟩,
          n, (hnodes n).mpr hn, ha⟩
    · exact .inl (h.defined n node hold a ha)
  obtain ⟨node, hl⟩ := exists_lookup hn
  rw [addNodesAndAllocsToCfg_lookup hnodes] at hl
  rcases hwritten n node hl with ⟨hn, -⟩ | hold
  · exact hfits.parseNodeName hn
  · exact h.primary n (mem_of_lookup hold)

end Extended

/-- The loop keeps its configuration until a turn succeeds; a turn that fails takes nodes
out of the manifest, if it does anything. -/
theorem Invariant.addLoop {exp ts s} (h : Invariant s)
    (hconfig : newConfigForDeploymentUpdate s.cfg mcfg old additions = .ok delta) (hfits : ∀ pre c,
      (addLoop eid mcfg delta exp ts s).ending = .updated pre c →
        AddFits s.cfg mcfg c) : Invariant (addLoop eid mcfg delta exp ts s).state := by
  induction ts generalizing s with
  | nil => exact h
  | cons t ts ih =>
    unfold Orchestrator.addLoop at hfits ⊢
    split
    · exact h
    rename_i hnow
    rw [if_neg hnow] at hfits
    split
    · next hbidding =>
      rw [hbidding] at hfits
      exact ih h hconfig hfits
    · exact h
    rename_i c hbidding
    rw [hbidding] at hfits
    dsimp only at hfits ⊢
    split
    · next hfailed =>
      rw [if_pos hfailed] at hfits
      exact ih h hconfig hfits
    rename_i hok
    rw [if_neg hok] at hfits
    split
    · next hprovision =>
      rw [hprovision] at hfits
      exact ih ⟨h.manifest.revertNodes _ _ _ _, h.cfg⟩ hconfig hfits
    rename_i prov hprovision
    rw [hprovision] at hfits
    have hfits := hfits _ _ rfl
    have hcommit := not_not.mp fun herror => hok (.inl herror)
    exact ⟨Indexed.extended hfits hconfig h.manifest hcommit
      (provision_places hprovision), h.cfg.extended hfits hconfig⟩

theorem Invariant.handleNewAllocations {exp ts s} (h : Invariant s) (hfits : ∀ pre c,
      (handleNewAllocations eid mcfg exp additions ts s).ending =
        .updated pre c → AddFits s.cfg mcfg c) :
    Invariant (handleNewAllocations eid mcfg exp additions ts s).state := by
  unfold Orchestrator.handleNewAllocations at hfits ⊢
  dsimp only at hfits ⊢
  split
  · exact h
  rename_i delta hconfig
  rw [hconfig] at hfits
  dsimp only at hfits
  split
  · exact h
  rename_i hnew
  rw [if_neg hnew] at hfits
  exact h.addLoop hconfig hfits

end Additions

/-- The functions that write the manifest or the configuration of an orchestrator, with
their arguments and what they do not decide themselves. -/
inductive ManifestOp
  | newManifest (cfg : EnsembleConfig)
  | updateManifestAllocations (p : Placement) (allocations : GoMap GoString Handle)
      (order : RangeOrder)
  | handleEnsembleRemovals (modifiedCfg : EnsembleConfig) (inputs : RemovalInputs)
  | handleNewAllocations (modifiedCfg : EnsembleConfig) (expiry : Int) (order : RangeOrder)
      (turns : List UpdateTurn)
  | removeNodeFromManifest (name : GoString)

structure EnsembleFits (cfg : EnsembleConfig) : Prop where
  defined : ∀ e ∈ cfg.primaryNodes.entries, ∀ a ∈ e.2.allocations, a ∈ cfg.allocations
  primary : ∀ n ∈ cfg.primaryNodes.keys, parseNodeName n = none
  undotted : Undotted cfg

namespace ManifestOp

def apply (eid : EnsembleID) (s : Running) : ManifestOp → Running
  | newManifest cfg => ⟨cfg, Orchestrator.newManifest eid cfg⟩
  | updateManifestAllocations p allocations order =>
    { s with
      manifest := Orchestrator.updateManifestAllocations eid p allocations order s.manifest }
  | handleEnsembleRemovals modifiedCfg inputs =>
    (Orchestrator.handleEnsembleRemovals eid modifiedCfg inputs s).state
  | handleNewAllocations modifiedCfg expiry order turns =>
    (Orchestrator.handleNewAllocations eid modifiedCfg expiry order turns s).state
  | removeNodeFromManifest name =>
    { s with manifest := Orchestrator.removeNodeFromManifest name s.manifest }

/-- The condition of a step, on its arguments and the state before it. -/
def Fits (eid : EnsembleID) (s : Running) : ManifestOp → Prop
  | newManifest cfg => EnsembleFits cfg
  | updateManifestAllocations p _ _ => PlacedBy s.manifest p
  | handleEnsembleRemovals modifiedCfg inputs => RemovalFits eid modifiedCfg inputs s
  | handleNewAllocations modifiedCfg expiry order turns => ∀ before candidate,
      (Orchestrator.handleNewAllocations eid modifiedCfg expiry order turns s).ending =
        .updated before candidate → AddFits s.cfg modifiedCfg candidate
  | removeNodeFromManifest _ => True

end ManifestOp

def Running.empty : Running where
  cfg := {
      allocations := ∅
      primaryNodes := ∅
      edges := []
      supervisor := ⟨[], []⟩
      excludePeers := [] }
  manifest := ⟨∅, ∅⟩

theorem invariant_empty : Invariant .empty := by
  refine ⟨⟨fun n key => ⟨?_, fun h => ?_⟩, ?_⟩, ⟨fun n node h => ?_, fun n h => ?_⟩⟩
  · rintro ⟨nmf, ⟨⟩, -⟩
  · cases h
  · rintro n key ⟨nmf, ⟨⟩, -⟩
  · cases h
  · cases h

theorem Invariant.apply {eid s} (h : Invariant s) (op : ManifestOp)
    (hfits : op.Fits eid s) : Invariant (op.apply eid s) := by
  cases op with
  | newManifest cfg =>
    refine ⟨indexed_newManifest eid hfits.undotted, ⟨fun n node hl => ?_, fun n hn => ?_⟩⟩
    · exact hfits.defined ⟨n, node⟩ (mem_lookup_iff.mp hl)
    · exact hfits.primary n (mem_keys.mp hn)
  | updateManifestAllocations p allocations order =>
    exact ⟨h.manifest.updateManifestAllocations hfits allocations order, h.cfg⟩
  | handleEnsembleRemovals mcfg inp => exact h.handleEnsembleRemovals hfits
  | handleNewAllocations mcfg exp order turns => exact h.handleNewAllocations hfits
  | removeNodeFromManifest name => exact ⟨h.manifest.removeNodeFromManifest name, h.cfg⟩

/-- Whatever functions were called one after the other, each of them with arguments that fit,
what they leave behind is well formed. -/
theorem manifest_well_formed (eid : EnsembleID) (ops : List ManifestOp)
    (h : Reach.Passes (ManifestOp.Fits eid) (ManifestOp.apply eid) .empty ops) :
    WellFormed (ops.foldl (ManifestOp.apply eid) .empty) := by
  have hstart : Reach Invariant (ManifestOp.Fits eid) (ManifestOp.apply eid) .empty :=
    .init invariant_empty
  exact ((hstart.foldl h).invariant Invariant (fun s hs => hs)
    fun s op hs hfits => hs.apply op hfits).wellFormed

/-- The node of the ensemble is removed and deployed again; it loses `a`, and gains `a` and
`b`. -/
def sampleOps : List ManifestOp := [.newManifest (sampleHost ["a"] 0),
    .removeNodeFromManifest (ascii "n"),
    .newManifest (sampleHost ["a"] 0),
    .updateManifestAllocations
      (processNodeAllocations (sampleHost ["a"] 0) ⟨∅, ∅⟩ (ascii "n")) ∅ .stored,
    .handleEnsembleRemovals (sampleHost [] 0) sampleRemovals,
    .handleNewAllocations (sampleHost ["a", "b"] 0) 1 .stored
      [sampleTurn 0 (sampleHost ["a", "b"] 0) ["a", "b"]]]

def sampleState (count : Nat) : Running :=
  (sampleOps.take count).foldl (ManifestOp.apply sampleID) .empty

theorem sampleOps_pass :
    Reach.Passes (ManifestOp.Fits sampleID) (ManifestOp.apply sampleID) .empty sampleOps := by
  have hensemble : EnsembleFits (sampleHost ["a"] 0) := ⟨by decide, by decide, by decide⟩
  have hplaced : PlacedBy (sampleState 3).manifest
      (processNodeAllocations (sampleHost ["a"] 0) ⟨∅, ∅⟩ (ascii "n")) := by decide
  refine ⟨hensemble, trivial, hensemble, hplaced, ⟨by decide, fun t ht _ => ?_⟩,
    fun pre c hending => ?_, trivial⟩
  · cases List.mem_singleton.mp ht
    exact ⟨by decide, by decide, by decide, by decide, by decide⟩
  have hupdated : (handleNewAllocations sampleID (sampleHost ["a", "b"] 0) 1 .stored
      [sampleTurn 0 (sampleHost ["a", "b"] 0) ["a", "b"]] (sampleState 5)).ending =
        .updated (sampleState 5).manifest (sampleBids (sampleHost ["a", "b"] 0)) := rfl
  cases hupdated.symm.trans hending
  exact ⟨by decide, by decide, by decide, by decide⟩

theorem manifest_well_formed_sample :
    ascii "n.b" ∈ (sampleOps.foldl (ManifestOp.apply sampleID) .empty).manifest.allocations ∧
      WellFormed (sampleOps.foldl (ManifestOp.apply sampleID) .empty) :=
  ⟨by decide, manifest_well_formed sampleID sampleOps sampleOps_pass⟩

/-- A node that keeps one of its two allocations; a node that loses its standby node; an
allocation for a node with a standby node. -/
theorem manifest_not_well_formed : ¬ WellFormed ([ManifestOp.newManifest (sampleHost ["a", "b"] 0),
      .handleEnsembleRemovals (sampleHost ["a"] 0) sampleRemovals].foldl
        (ManifestOp.apply sampleID) .empty) ∧
    ¬ WellFormed ([ManifestOp.newManifest (sampleHost ["a"] 1),
      .handleEnsembleRemovals (sampleHost ["a"] 0) sampleRemovals].foldl
        (ManifestOp.apply sampleID) .empty) ∧
    ¬ WellFormed ([ManifestOp.newManifest (sampleHost ["a"] 1),
      .handleNewAllocations (sampleHost ["a", "b"] 1) 1 .stored
        [sampleTurn 0 (sampleHost ["a", "b"] 1) ["b"]]].foldl
        (ManifestOp.apply sampleID) .empty) := by
  refine ⟨fun h => ?_, fun h => ?_, fun h => ?_⟩
  · obtain ⟨amf, hamf, -⟩ := h.listed (ascii "n") _ rfl (ascii "a") (by decide)
    have hmem := mem_of_lookup hamf
    revert hmem
    decide
  · have hmem := h.defined (ascii "n") _ rfl (ascii "a") (by decide)
    revert hmem
    decide
  have hparse := h.primary (ascii "n-standby-1") (by decide)
  revert hparse
  decide

end DMS.Orchestrator
