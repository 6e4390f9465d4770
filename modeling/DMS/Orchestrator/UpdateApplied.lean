import DMS.Orchestrator.Undo
import DMS.Orchestrator.WellFormed

/-! # Updates that have been applied

What an update leaves behind when it reports success: after the removals every node that is left
is one of the modified ensemble and lists nothing but its allocations, with their keys in the
manifest; the additions bring the rest.
-/

namespace DMS.Orchestrator

open Jobs EnsembleConfig GoMap AList

/-! ## What the removals leave -/

theorem mem_identifyRemovedAllocations {cfg mcfg : EnsembleConfig} {n a} :
    a ∈ identifyRemovedAllocations cfg mcfg n ↔ ∃ ncfg, mcfg.node n = some ncfg ∧
      a ∈ cfg.nodeAllocations n ∧ a ∉ ncfg.allocations ∧ a ∈ cfg.allocations := by
  unfold identifyRemovedAllocations
  cases mcfg.node n with
  | none => simp
  | some ncfg =>
    simp only [Option.some.injEq, exists_eq_left']
    rw [mem_insertAll]
    constructor
    · rintro (hnone | ⟨acfg, hin⟩)
      · cases hnone
      obtain ⟨b, hb, hfound⟩ := List.mem_filterMap.mp hin
      obtain ⟨hout, hfound⟩ := Option.ite_none_left_eq_some.mp hfound
      obtain ⟨_, hl, ⟨⟩⟩ := Option.map_eq_some_iff.mp hfound
      exact ⟨hb, hout, mem_of_lookup hl⟩
    rintro ⟨ha, hout, hconfigured⟩
    obtain ⟨acfg, hl⟩ := exists_lookup hconfigured
    refine .inr ⟨acfg, List.mem_filterMap.mpr ⟨a, ha, ?_⟩⟩
    rw [if_neg hout, EnsembleConfig.allocation, hl]
    rfl

/-- Without standby nodes: what the modified ensemble does not have, or has on another peer. -/
theorem mem_tornDown {cfg mcfg : EnsembleConfig} {n} (halone : cfg.Alone) :
    n ∈ (tornDown cfg mcfg).nodes ↔ ∃ node, cfg.primaryNodes.lookup n = some node ∧
      ∀ node', mcfg.node n = some node' → node.peer ≠ node'.peer := by
  have hnodes : ∀ n, cfg.nodes.lookup n = cfg.primaryNodes.lookup n := halone.nodes_lookup
  have hlookup : ∀ n node, (tornDown cfg mcfg).primaryNodes.lookup n = some node →
      cfg.primaryNodes.lookup n = some node := by
    intro n node hl
    rcases lookup_insertAll_cases hl with hin | hin
    · obtain ⟨e, he, ⟨⟩⟩ := List.mem_map.mp hin
      exact (hnodes e.1).symm.trans (lookup_select.mp (mem_lookup_iff.mpr he)).1
    · exact (hnodes n).symm.trans (lookup_select.mp hin).1
  have hsame : (tornDown cfg mcfg).Alone := fun n node hl => halone n node (hlookup n node hl)
  rw [← lookup_isSome, hsame.nodes_lookup, lookup_isSome, tornDown, mem_insertAll, exists_mem_pairs,
    identifyRemovedNodes, identifyRelocatedNodes]
  constructor
  · rintro (hin | hin)
    · obtain ⟨node, hl⟩ := exists_lookup hin
      obtain ⟨hl, hnone⟩ := lookup_select.mp hl
      exact ⟨node, (hnodes n).symm.trans hl, by simp_all⟩
    · obtain ⟨node, hl⟩ := exists_lookup hin
      obtain ⟨hl, hmoved⟩ := lookup_select.mp hl
      refine ⟨node, (hnodes n).symm.trans hl, fun node' hnode' => ?_⟩
      rw [hnode'] at hmoved
      exact of_decide_eq_true hmoved
  rintro ⟨node, hl, hpeer⟩
  have hl := (hnodes n).trans hl
  cases hnode' : mcfg.node n with
  | none => exact .inl (mem_of_lookup (lookup_select.mpr ⟨hl, by simp [hnode']⟩))
  | some node' =>
    exact .inr (mem_of_lookup (lookup_select.mpr ⟨hl, by simp [hnode', hpeer node' hnode']⟩))

theorem manifestOnlyForNodes_nodes {mf names newMf r}
    (h : manifestOnlyForNodes mf names newMf = .ok r) {n} (hn : n ∈ r.nodes) :
    n ∈ newMf.nodes ∨ n ∈ names := by
  induction names generalizing newMf with
  | nil =>
    cases h
    exact .inl hn
  | cons name names ih =>
    unfold manifestOnlyForNodes at h
    split at h
    · cases h
    split at h
    · cases h
    rcases ih h with hnode | hname
    · rcases (mem_insert _).mp hnode with rfl | hnode
      · exact .inr (.head _)
      · exact .inl hnode
    · exact .inr (.tail _ hname)

/-- A node that is not reverted keeps its entry, and a key that the others do not list stays. -/
theorem revertNodes_keeps {cfg eid replies es} {mf : EnsembleManifest} {n : GoString}
    (hn : ∀ e ∈ es, e.1 ≠ n) :
    (revertNodes cfg eid replies es mf).2.nodes.lookup n = mf.nodes.lookup n ∧
      ∀ key, (∀ n' nmf, n' ≠ n → mf.nodes.lookup n' = some nmf → key ∉ nmf.allocations) →
        key ∈ mf.allocations → key ∈ (revertNodes cfg eid replies es mf).2.allocations := by
  induction es generalizing mf with
  | nil => exact ⟨rfl, fun _ _ => id⟩
  | cons e es ih =>
    have hne := hn e (.head _)
    have hrest := fun mf => @ih mf fun e he => hn e (.tail _ he)
    have hstep : (revertNodeDeployment cfg eid e.1 e.2.handle (replies e.1) mf).2 = mf ∨
        (revertNodeDeployment cfg eid e.1 e.2.handle (replies e.1) mf).2 =
          removeNodeFromManifest e.1 mf := by
      unfold revertNodeDeployment
      repeat' split
      all_goals simp
    rw [revertNodes]
    dsimp only
    rcases hstep with heq | heq
    · rw [heq]
      exact hrest mf
    rw [heq]
    unfold removeNodeFromManifest
    cases hnmf : mf.nodes.lookup e.1 with
    | none => exact hrest mf
    | some nmf =>
      obtain ⟨hlookup, hmem⟩ := hrest ⟨eraseAll nmf.allocations mf.allocations, mf.nodes.erase e.1⟩
      refine ⟨hlookup.trans (lookup_erase_ne hne.symm), fun key hkey hin => hmem key ?_ ?_⟩
      · intro n' nmf' hne' hl'
        by_cases heq : n' = e.1
        · rw [heq, lookup_erase] at hl'
          cases hl'
        · exact hkey n' nmf' hne' ((lookup_erase_ne heq).symm.trans hl')
      · rw [← lookup_isSome, lookup_eraseAll, if_neg (hkey e.1 nmf hne hnmf), lookup_isSome]
        exact hin

theorem teardownNodes_keeps {eid mcfg inp} {s : Running}
    (herrs : (teardownNodes eid mcfg inp s).2 = []) {n} (hn : n ∉ (tornDown s.cfg mcfg).nodes) :
    (teardownNodes eid mcfg inp s).1.manifest.nodes.lookup n = s.manifest.nodes.lookup n ∧
      (∀ key, (∀ n' nmf, n' ≠ n → s.manifest.nodes.lookup n' = some nmf → key ∉ nmf.allocations) →
        key ∈ s.manifest.allocations →
          key ∈ (teardownNodes eid mcfg inp s).1.manifest.allocations) ∧
      ∀ a, (∀ n' ∈ (tornDown s.cfg mcfg).nodes, a ∉ s.cfg.nodeAllocations n') →
        a ∈ s.cfg.allocations → a ∈ (teardownNodes eid mcfg inp s).1.cfg.allocations := by
  revert herrs
  unfold teardownNodes
  cases hcfg : newConfigForRemovedNodes s.cfg mcfg inp.order with
  | error text => exact nofun
  | ok removeNodesCfg =>
    have hnodes := newConfigForRemovedNodes_nodes hcfg
    dsimp only
    split
    · exact fun _ => ⟨rfl, fun _ _ => id, fun _ _ => id⟩
    split
    · exact nofun
    rename_i mf hmf
    intro _
    obtain ⟨hlookup, hkeys⟩ := @revertNodes_keeps removeNodesCfg eid inp.reverts
      (inp.order.visit mf.nodes.entries) s.manifest n fun e he heq => by
        have hin := manifestOnlyForNodes_nodes hmf
          (mem_keys.mpr (List.mem_keys_of_mem (inp.order.mem_visit.mp he)))
        rw [heq, inp.order.mem_visit, ← mem_keys, hnodes] at hin
        exact hn (hin.resolve_left (notMem_empty _))
    refine ⟨hlookup, hkeys, fun a hout ha => ?_⟩
    refine mem_removeNodesAllocationsFromCfg
      (inp.dropped.nodup_visit removeNodesCfg.nodes.nodupKeys) ha fun name hname => hout name ?_
    rwa [inp.dropped.mem_visit, ← mem_keys, hnodes] at hname

/-- Names that a key can be made of, and taken apart again. -/
structure Named (n a : GoString) : Prop where
  node : n ≠ [] ∧ dot ∉ n
  allocation : a ≠ [] ∧ dot ∉ a

/-- A deployment without standby nodes: every node has a handle, and every allocation is on one
node, has its key in the manifest and its configuration. -/
structure InOrder (s : Running) : Prop where
  alone : s.cfg.Alone
  placed : ∀ n ∈ s.cfg.primaryNodes, ∃ nmf, s.manifest.nodes.lookup n = some nmf ∧
    nmf.handle ≠ .zero
  listed : ∀ n node, s.cfg.primaryNodes.lookup n = some node → ∀ a ∈ node.allocations,
    Named n a ∧ n ++ dot :: a ∈ s.manifest.allocations ∧ a ∈ s.cfg.allocations
  single : ∀ n node n' node' a, s.cfg.primaryNodes.lookup n = some node → a ∈ node.allocations →
    s.cfg.primaryNodes.lookup n' = some node' → a ∈ node'.allocations → n = n'

/-- The nodes in `pending` have not had their turn: a node lists no more than the modified ensemble
has there, or no less until its turn. -/
structure Trimmed (mcfg : EnsembleConfig) (pending : List GoString) (s : Running) : Prop
    extends InOrder s where
  nodes : ∀ n node, s.cfg.primaryNodes.lookup n = some node →
    ∃ node', mcfg.primaryNodes.lookup n = some node' ∧ (node.allocations ⊆ node'.allocations ∨
      n ∈ pending ∧ node'.allocations ⊆ node.allocations)
  bare : ∀ n node', mcfg.primaryNodes.lookup n = some node' → node'.allocations = [] →
    n ∈ s.cfg.primaryNodes

variable {mcfg : EnsembleConfig} {inp : RemovalInputs} {s s' : Running}

/-- Nodes and allocations go, and what is left keeps what belongs to it. -/
theorem InOrder.shrink (h : InOrder s)
    (hleft : ∀ n entry, s'.cfg.primaryNodes.lookup n = some entry →
      ∃ old, s.cfg.primaryNodes.lookup n = some old ∧ entry.redundancy = old.redundancy ∧
        (∀ nmf, s.manifest.nodes.lookup n = some nmf →
          ∃ nmf', s'.manifest.nodes.lookup n = some nmf' ∧ nmf'.handle = nmf.handle) ∧
        ∀ a ∈ entry.allocations, a ∈ old.allocations ∧
          (n ++ dot :: a ∈ s.manifest.allocations → n ++ dot :: a ∈ s'.manifest.allocations) ∧
          (a ∈ s.cfg.allocations → a ∈ s'.cfg.allocations)) : InOrder s' := by
  refine ⟨fun n entry hl => ?_, fun n hn => ?_, fun n entry hl a ha => ?_,
    fun n entry n' entry' a hl ha hl' ha' => ?_⟩
  · obtain ⟨old, hold, hredundancy, -⟩ := hleft n entry hl
    rw [hredundancy]
    exact h.alone n old hold
  · obtain ⟨entry, hl⟩ := exists_lookup hn
    obtain ⟨old, hold, -, hnodes, -⟩ := hleft n entry hl
    obtain ⟨nmf, hnmf, hhandle⟩ := h.placed n (mem_of_lookup hold)
    obtain ⟨nmf', hnmf', hsame⟩ := hnodes nmf hnmf
    exact ⟨nmf', hnmf', hsame ▸ hhandle⟩
  · obtain ⟨old, hold, -, -, hallocs⟩ := hleft n entry hl
    obtain ⟨hin, hkey, hconfigured⟩ := hallocs a ha
    obtain ⟨hnamed, hkeyed, hdefined⟩ := h.listed n old hold a hin
    exact ⟨hnamed, hkey hkeyed, hconfigured hdefined⟩
  · obtain ⟨old, hold, -, -, hallocs⟩ := hleft n entry hl
    obtain ⟨old', hold', -, -, hallocs'⟩ := hleft n' entry' hl'
    exact h.single n old n' old' a hold (hallocs a ha).1 hold' (hallocs' a ha').1

/-- The turn of a node that has something to lose and gains nothing. -/
theorem InOrder.removed (h : InOrder s) {n node node'}
    (hl : s.cfg.primaryNodes.lookup n = some node) (hl' : mcfg.primaryNodes.lookup n = some node')
    (hsup : node'.allocations ⊆ node.allocations) :
    InOrder (Orchestrator.removalTurn mcfg inp n s).1 := by
  unfold Orchestrator.removalTurn
  dsimp only
  split
  · exact h
  generalize hfound : (identifyRemovedAllocations s.cfg mcfg n).keys.filterMap
    (generateManifestKey n) = keys
  have hkeys : ∀ key ∈ keys, ∃ b ∈ node.allocations, b ∉ node'.allocations ∧ dot ∉ b ∧
      key = n ++ dot :: b ∧ secondPart key = b := by
    intro key hkey
    obtain ⟨b, hb, hgen⟩ := List.mem_filterMap.mp (hfound ▸ hkey)
    obtain ⟨ncfg, hncfg, hold, hgone, -⟩ :=
      mem_identifyRemovedAllocations.mp (mem_keys.mpr hb)
    cases (node_of_lookup hl').symm.trans hncfg
    rw [nodeAllocations_of_lookup hl] at hold
    obtain ⟨⟨-, hdotn⟩, -, hdotb⟩ := (h.listed n node hl b hold).1
    obtain rfl := (generateManifestKey_eq_some.mp hgen).2.2
    refine ⟨b, hold, hgone, hdotb, rfl, ?_⟩
    rw [secondPart, splitOn_two_parts hdotn hdotb]
    rfl
  -- what is on no other node and not removed from this one keeps its key and its configuration
  have hstays : ∀ m old a, s.cfg.primaryNodes.lookup m = some old → a ∈ old.allocations →
      (a ∈ node.allocations → a ∈ node'.allocations) →
      (m ++ dot :: a ∈ s.manifest.allocations →
        m ++ dot :: a ∈ GoMap.eraseAll keys s.manifest.allocations) ∧
      (a ∈ s.cfg.allocations → a ∈ GoMap.eraseAll (keys.map secondPart) s.cfg.allocations) := by
    intro m old a hm ha hkept
    simp only [← lookup_isSome, lookup_eraseAll]
    rw [if_neg, if_neg]
    · exact ⟨id, id⟩
    · intro herased
      obtain ⟨key, hkey, hpart⟩ := List.mem_map.mp herased
      obtain ⟨b, hb, hgone, -, -, hsecond⟩ := hkeys key hkey
      obtain rfl := hpart.symm.trans hsecond
      exact hgone (hkept hb)
    · intro herased
      obtain ⟨b, hb, hgone, hdot, heq, -⟩ := hkeys _ herased
      obtain rfl := node_of_key (h.listed m old hm a ha).1.allocation.2 hdot heq
      obtain rfl : a = b := by simpa using heq
      exact hgone (hkept hb)
  refine h.shrink fun m entry hm => ?_
  rcases lookup_insert_cases hm with ⟨rfl, rfl⟩ | ⟨hne, hm⟩
  · refine ⟨node, hl, by rw [hl]; rfl, fun nmf hnmf => ⟨_, lookup_insert _, by rw [hnmf]; rfl⟩,
      fun a ha => ?_⟩
    rw [writtenList, hl'] at ha
    exact ⟨hsup ha, hstays m node a hl (hsup ha) fun _ => ha⟩
  · refine ⟨entry, hm, rfl, fun nmf hnmf => ⟨nmf, (lookup_insert_ne hne).trans hnmf, rfl⟩,
      fun a ha => ⟨ha, hstays m entry a hm ha fun hin => ?_⟩⟩
    exact absurd (h.single m entry n node a hm ha hl hin) hne

theorem Trimmed.removalTurn {n ns} (h : Trimmed mcfg (n :: ns) s) :
    Trimmed mcfg ns (removalTurn mcfg inp n s).1 := by
  by_cases hnone : (identifyRemovedAllocations s.cfg mcfg n).keys = []
  · have hsame : Orchestrator.removalTurn mcfg inp n s = (s, []) := if_pos hnone
    rw [hsame]
    refine { h with nodes := fun m node hl => ?_ }
    obtain ⟨node', hl', hsub | ⟨hpending, hsup⟩⟩ := h.nodes m node hl
    · exact ⟨node', hl', .inl hsub⟩
    refine ⟨node', hl', ?_⟩
    rcases List.mem_cons.mp hpending with rfl | hpending
    · refine .inl fun a ha => ?_
      by_contra hout
      have hremoved := mem_identifyRemovedAllocations.mpr ⟨node', node_of_lookup hl',
        by rwa [nodeAllocations_of_lookup hl], hout, (h.listed m node hl a ha).2.2⟩
      rw [mem_keys, hnone] at hremoved
      cases hremoved
    · exact .inr ⟨hpending, hsup⟩
  obtain ⟨b, hb⟩ := List.exists_mem_of_ne_nil _ hnone
  obtain ⟨ncfg, hncfg, hold, hgone, -⟩ := mem_identifyRemovedAllocations.mp (mem_keys.mpr hb)
  obtain ⟨node, hnode⟩ := Option.isSome_iff_exists.mp (isSome_node_of_mem hold)
  rw [nodeAllocations_of_node hnode] at hold
  have hl := (h.alone.node_eq n).symm.trans hnode
  obtain ⟨node', hl', hlists⟩ := h.nodes n node hl
  cases (node_of_lookup hl').symm.trans hncfg
  obtain ⟨-, hsup⟩ := hlists.resolve_left fun hsub => hgone (hsub hold)
  have hself := @removalTurn_lookup_self mcfg inp n s
  rw [if_neg hnone] at hself
  refine ⟨h.toInOrder.removed hl hl' hsup, fun m entry hm => ?_, fun m ncfg hm hbare => ?_⟩
  · by_cases hmn : m = n
    · subst hmn
      cases hself.symm.trans hm
      rw [writtenList, hl']
      exact ⟨ncfg, rfl, .inl (List.Subset.refl _)⟩
    rw [removalTurn_lookup n s hmn] at hm
    obtain ⟨ncfg, hncfg, hsub⟩ := h.nodes m entry hm
    exact ⟨ncfg, hncfg, hsub.imp_right fun hp => ⟨(List.mem_cons.mp hp.1).resolve_left hmn, hp.2⟩⟩
  · by_cases hmn : m = n
    · subst hmn
      exact mem_of_lookup hself
    · rw [← lookup_isSome, removalTurn_lookup n s hmn, lookup_isSome]
      exact h.bare m ncfg hm hbare

theorem Trimmed.removalTurns {ns} (h : Trimmed mcfg ns s) :
    Trimmed mcfg [] (removalTurns mcfg inp ns s).state := by
  induction ns generalizing s with
  | nil => exact h
  | cons n ns ih => exact ih h.removalTurn

/-- What an update takes for granted: a deployment in order whose manifest lists a key under its own
node only; a modified ensemble without standby nodes, in which a node that stays gains or loses, a
node that is new or moved has an allocation; and an add phase in time, in which a turn before the
last fails before anything is provisioned, and which finds candidates with a bid for every node. -/
structure Orderly (mcfg : EnsembleConfig) (expiry : Int) (turns : List UpdateTurn) (s : Running) :
    Prop where
  running : InOrder s
  apart : ∀ n node n' nmf, s.cfg.primaryNodes.lookup n = some node → n' ≠ n →
    s.manifest.nodes.lookup n' = some nmf → ∀ a ∈ node.allocations, n ++ dot :: a ∉ nmf.allocations
  alone : mcfg.Alone
  named : ∀ n node, mcfg.primaryNodes.lookup n = some node → ∀ a ∈ node.allocations, Named n a
  oneWay : ∀ n node node', s.cfg.primaryNodes.lookup n = some node →
    mcfg.primaryNodes.lookup n = some node' → node.peer = node'.peer →
    node.allocations ⊆ node'.allocations ∨ node'.allocations ⊆ node.allocations
  bare : ∀ n node', mcfg.primaryNodes.lookup n = some node' → node'.allocations = [] →
    ∃ node, s.cfg.primaryNodes.lookup n = some node ∧ node.peer = node'.peer
  inTime : ∀ t ∈ turns, t.now < expiry
  waiting : ∀ t ∈ turns.dropLast, t.bidding = .notFound ∨ t.extension ≠ none ∨
    ∀ n ∈ mcfg.nodes, parseNodeName n = none ∧ ∀ i, t.commits.replies n i ≠ .ok
  bids : ∀ t ∈ turns, ∀ candidate, t.bidding = .found candidate → ∀ n ∈ mcfg.nodes,
    ∃ bid, candidate.lookup n = some bid ∧ bid.handle ≠ .zero

theorem Orderly.teardownNodes {exp turns eid} (h : Orderly mcfg exp turns s)
    (herrs : (teardownNodes eid mcfg inp s).2 = []) :
    Trimmed mcfg (inp.turns.visit (teardownNodes eid mcfg inp s).1.cfg.nodes.keys)
      (teardownNodes eid mcfg inp s).1 := by
  have hstays : ∀ n entry, (Orchestrator.teardownNodes eid mcfg inp s).1.cfg.primaryNodes.lookup n =
      some entry → n ∉ (tornDown s.cfg mcfg).nodes ∧ s.cfg.primaryNodes.lookup n = some entry := by
    intro n entry hl
    rw [teardownNodes_lookup herrs] at hl
    split at hl
    · cases hl
    · next hn => exact ⟨hn, hl⟩
  refine ⟨h.running.shrink fun n entry hl => ?_, fun n entry hl => ?_, fun n node' hl' hbare => ?_⟩
  · obtain ⟨hn, hold⟩ := hstays n entry hl
    obtain ⟨hmanifest, hkeys, hallocs⟩ := teardownNodes_keeps herrs hn
    refine ⟨entry, hold, rfl, fun nmf hnmf => ⟨nmf, hmanifest.trans hnmf, rfl⟩, fun a ha => ⟨ha,
      hkeys _ fun n' nmf hne hnmf => h.apart n entry n' nmf hold hne hnmf a ha,
      hallocs a fun n' hn' hin => ?_⟩⟩
    -- it would be on a node that is torn down as well
    obtain ⟨node, hl', -⟩ := (mem_tornDown h.running.alone).mp hn'
    rw [nodeAllocations_of_lookup hl'] at hin
    exact hn (h.running.single n entry n' node a hold ha hl' hin ▸ hn')
  · obtain ⟨hn, hold⟩ := hstays n entry hl
    obtain ⟨node', hnode', hpeer⟩ :
        ∃ node', mcfg.node n = some node' ∧ entry.peer = node'.peer := by
      by_contra hmoved
      exact hn ((mem_tornDown h.running.alone).mpr
        ⟨entry, hold, fun node' hnode' hpeer => hmoved ⟨node', hnode', hpeer⟩⟩)
    rw [h.alone.node_eq] at hnode'
    refine ⟨node', hnode',
      (h.oneWay n entry node' hold hnode' hpeer).imp_right fun hsup => ⟨?_, hsup⟩⟩
    exact inp.turns.mem_visit.mpr (mem_keys.mp (mem_nodes.mpr (.inl (mem_of_lookup hl))))
  · obtain ⟨node, hl, hpeer⟩ := h.bare n node' hl' hbare
    rw [← lookup_isSome, teardownNodes_lookup herrs, if_neg, hl]
    · rfl
    intro htorn
    obtain ⟨node'', hl'', hmoved⟩ := (mem_tornDown h.running.alone).mp htorn
    cases hl.symm.trans hl''
    exact hmoved node' (node_of_lookup hl') hpeer

/-! ## What the additions bring -/

theorem InOrder.keyed (h : InOrder s) {n a} (ha : a ∈ s.cfg.nodeAllocations n) :
    (∃ key, generateManifestKey n a = some key ∧ key ∈ s.manifest.allocations) ∧
      a ∈ s.cfg.allocations := by
  obtain ⟨node, hnode⟩ := Option.isSome_iff_exists.mp (isSome_node_of_mem ha)
  rw [nodeAllocations_of_node hnode] at ha
  rw [h.alone.node_eq] at hnode
  obtain ⟨hnamed, hkey, hconfigured⟩ := h.listed n node hnode a ha
  exact ⟨⟨_, generateManifestKey_eq_some.mpr ⟨hnamed.node.1, hnamed.allocation.1, rfl⟩, hkey⟩,
    hconfigured⟩

section Adding

variable {eid : GoString} {delta : EnsembleConfig} {old : GoMap GoString GoString}
  {additions : RangeOrder} (h : Trimmed mcfg [] s)
  (halone : mcfg.Alone)
  (hconfig : newConfigForDeploymentUpdate s.cfg mcfg old additions = .ok delta)

include h halone hconfig

theorem Trimmed.applied_of_nothing (hnothing : delta.allocations.keys = []) : Applied mcfg s := by
  have hold : ∀ n ∈ mcfg.nodes, ∀ a ∈ mcfg.nodeAllocations n, a ∈ s.cfg.nodeAllocations n := by
    intro n hn a ha
    by_contra hnew
    have hmem := mem_keys.mp ((mem_newConfig_allocations hconfig).mpr ⟨n, hn, ha, hnew⟩)
    rw [hnothing] at hmem
    cases hmem
  have hthere : ∀ n ∈ mcfg.nodes, n ∈ s.cfg.primaryNodes := by
    intro n hn
    obtain ⟨node', hl'⟩ := halone.exists_lookup hn
    cases hlist : node'.allocations with
    | nil => exact h.bare n node' hl' hlist
    | cons a as =>
      have ha : a ∈ mcfg.nodeAllocations n := by
        rw [nodeAllocations_of_lookup hl', hlist]
        exact .head _
      have hsome := isSome_node_of_mem (hold n hn a ha)
      rwa [h.alone.node_eq, lookup_isSome] at hsome
  have hback : ∀ n, n ∈ s.cfg.nodes → n ∈ mcfg.nodes := by
    intro n hn
    obtain ⟨node, hl⟩ := h.alone.exists_lookup hn
    obtain ⟨node', hl', -⟩ := h.nodes n node hl
    exact mem_nodes.mpr (.inl (mem_of_lookup hl'))
  refine ⟨fun n hn => h.placed n (hthere n hn), fun n hn a ha => (h.keyed (hold n hn a ha)).1,
    fun n => ⟨hback n, fun hn => mem_nodes.mpr (.inl (hthere n hn))⟩,
    fun n hn _ a => ⟨fun ha => ?_, hold n hn a⟩, fun n hn a ha => (h.keyed (hold n hn a ha)).2⟩
  obtain ⟨node, hl⟩ := exists_lookup (hthere n hn)
  obtain ⟨node', hl', hsub⟩ := h.nodes n node hl
  rw [nodeAllocations_of_lookup hl] at ha
  rw [nodeAllocations_of_lookup hl']
  exact hsub.elim (fun hsub => hsub ha) fun hp => nomatch hp.1

omit h in
theorem commit_refused {c : Candidate} {commits mf} (hsome : delta.allocations.keys ≠ [])
    (hbids : ∀ n ∈ mcfg.nodes, ∃ bid, c.lookup n = some bid ∧ bid.handle ≠ .zero)
    (hrefused : ∀ n ∈ mcfg.nodes, parseNodeName n = none ∧ ∀ i, commits.replies n i ≠ .ok) :
    (commit delta eid mf c commits).error ≠ none := by
  intro hok
  obtain ⟨a, ha⟩ := List.exists_mem_of_ne_nil _ hsome
  obtain ⟨n, hn, hmod, hnew⟩ := (mem_newConfig_allocations hconfig).mp (mem_keys.mpr ha)
  obtain ⟨bid, hbid, -⟩ := hbids n hn
  obtain ⟨hparse, hreplies⟩ := hrefused n hn
  obtain ⟨ncfg, hncfg, hgranted⟩ :=
    commitDeployment_errs.mp ((commit_of_ok hok).held n bid hbid).1
  rw [deployedConfig, hparse] at hncfg
  obtain ⟨-, -, hlists, -⟩ := newConfig_entry hconfig
    (((Alone.newConfig hconfig halone).node_eq n).symm.trans hncfg)
  obtain ⟨i, hi⟩ := List.mem_iff_getElem?.mp ((hlists a).mpr ⟨hmod, hnew⟩)
  exact hreplies i (hgranted i a hi).2.2

theorem Trimmed.applied_of_added {c : Candidate} {commits prov order}
    (hnamed : ∀ n node, mcfg.primaryNodes.lookup n = some node → ∀ a ∈ node.allocations, Named n a)
    (hbids : ∀ n ∈ mcfg.nodes, ∃ bid, c.lookup n = some bid ∧ bid.handle ≠ .zero)
    (hcommit : (commit delta eid (extendedManifest eid delta s.manifest) c commits).error = none)
    (hprovisioned : prov.nodes = (commit delta eid (extendedManifest eid delta s.manifest) c
      commits).manifest.nodes) : Applied mcfg
      ⟨addNodesAndAllocsToCfg order delta mcfg s.cfg, mergeManifest order prov s.manifest⟩ := by
  have hnodes : ∀ n, n ∈ delta.nodes ↔ n ∈ mcfg.nodes := fun n => mem_newConfig_nodes hconfig
  have hlookup := extended_lookup hcommit hprovisioned
  have hwritten := @addNodesAndAllocsToCfg_lookup mcfg delta s.cfg order hnodes
  refine ⟨fun n hn => (merged_placed_iff hlookup ((hnodes n).mpr hn)).mpr (hbids n hn),
    fun n hn a ha => ?_, fun n => ?_, fun n hn hsome a => ?_, fun n hn a ha => ?_⟩
  · by_cases hold : a ∈ s.cfg.nodeAllocations n
    · obtain ⟨key, hkey, hmem⟩ := (h.keyed hold).1
      exact ⟨key, hkey, (mem_merged_iff hlookup).mpr (.inl hmem)⟩
    obtain ⟨node', hl'⟩ := halone.exists_lookup hn
    obtain ⟨hnode, halloc⟩ := hnamed n node' hl' a
      (by rwa [nodeAllocations_of_lookup hl'] at ha)
    have hkey := generateManifestKey_eq_some.mpr ⟨hnode.1, halloc.1, rfl⟩
    have hdelta := (Alone.newConfig hconfig halone).nodes_lookup
    obtain ⟨ncfg, hl⟩ := exists_lookup ((hnodes n).mpr hn)
    obtain ⟨-, -, hlists, -⟩ := newConfig_entry hconfig ((hdelta n).symm.trans hl)
    exact ⟨_, hkey, (mem_merged_iff hlookup).mpr (.inr ⟨n, ncfg, hl, mem_nodeAllocations.mpr
      ⟨a, (hlists a).mpr ⟨ha, hold⟩, (mem_newConfig_allocations hconfig).mpr ⟨n, hn, ha, hold⟩,
        hkey⟩⟩)⟩
  · have hentry : ∀ n node, written mcfg s.cfg n = some node →
        n ∈ mcfg.nodes ∧ node.redundancy ≤ 0 := by
      intro n node hl
      unfold written at hl
      split at hl
      · next hn =>
        obtain ⟨node', hl'⟩ := halone.exists_lookup hn
        rw [node_of_lookup hl'] at hl
        cases hl
        exact ⟨hn, halone n node hl'⟩
      · obtain ⟨node', hl', -⟩ := h.nodes n node hl
        exact ⟨mem_nodes.mpr (.inl (mem_of_lookup hl')), h.alone n node hl⟩
    have hplain : (addNodesAndAllocsToCfg order delta mcfg s.cfg).Alone := fun n node hl =>
      (hentry n node ((hwritten n).symm.trans hl)).2
    rw [← lookup_isSome, hplain.nodes_lookup, hwritten]
    refine ⟨fun hsome => ?_, fun hn => ?_⟩
    · obtain ⟨node, hl⟩ := Option.isSome_iff_exists.mp hsome
      exact (hentry n node hl).1
    · obtain ⟨node', hl'⟩ := halone.exists_lookup hn
      rw [written, if_pos hn, node_of_lookup hl']
      rfl
  · rw [written_nodeAllocations hnodes hn hsome]
  · by_cases hold : a ∈ s.cfg.nodeAllocations n
    · exact mem_addNodesAndAllocsToCfg.mpr (.inl (h.keyed hold).2)
    · exact mem_addNodesAndAllocsToCfg.mpr (.inr ⟨(mem_newConfig_allocations hconfig).mpr
        ⟨n, hn, ha, hold⟩, n, (hnodes n).mpr hn, ha⟩)

end Adding

/-- In time, the loop succeeds with a candidate that it finds, and the turns before have left the
state as it was. -/
theorem addLoop_updated {eid delta exp ts} (hin : ∀ t ∈ ts, t.now < exp)
    (hwait : ∀ t ∈ ts.dropLast, ∀ c, t.bidding = .found c → t.extension = none →
      ∀ mf, (commit delta eid mf c t.commits).error ≠ none)
    (h : (addLoop eid mcfg delta exp ts s).ending.result = some (.ok ())) :
    ∃ t ∈ ts, ∃ c prov, t.bidding = .found c ∧
      (commit delta eid (extendedManifest eid delta s.manifest) c t.commits).error = none ∧
      prov.nodes = (commit delta eid (extendedManifest eid delta s.manifest) c
        t.commits).manifest.nodes ∧
      (addLoop eid mcfg delta exp ts s).state =
        ⟨addNodesAndAllocsToCfg t.order delta mcfg s.cfg,
          mergeManifest t.order prov s.manifest⟩ := by
  induction ts with
  | nil => cases h
  | cons t ts ih =>
    have hrest := ih (fun t ht => hin t (.tail _ ht)) fun t' ht' =>
      hwait t' (by cases ts with | nil => cases ht' | cons => exact .tail _ ht')
    have hnow := hin t (.head _)
    revert h
    unfold addLoop
    rw [if_neg (by omega)]
    cases hbid : t.bidding with
    | failed text => rintro ⟨⟩
    | notFound =>
      intro h
      obtain ⟨t', ht', hupdated⟩ := hrest h
      exact ⟨t', .tail _ ht', hupdated⟩
    | found c =>
      dsimp only
      split
      · intro h
        obtain ⟨t', ht', hupdated⟩ := hrest h
        exact ⟨t', .tail _ ht', hupdated⟩
      rename_i hok
      obtain ⟨herror, hextended⟩ := not_or.mp hok
      split
      · cases ts with
        | nil => rintro ⟨⟩
        | cons => exact absurd (hwait t (.head _) c hbid (not_not.mp hextended) _) herror
      rename_i prov hprovision
      exact fun _ => ⟨t, .head _, c, prov, hbid, not_not.mp herror,
        (provision_places hprovision).nodes, rfl⟩

def sampleUpdate (old modified added : List String) (redundancy now : Int) : UpdateRun :=
  update (ascii "e") (sampleHost modified redundancy) 1
    ⟨0, .stored, sampleRemovals, .stored, [sampleTurn now (sampleHost modified redundancy) added]⟩
    (sampleRunning old redundancy)

end DMS.Orchestrator
