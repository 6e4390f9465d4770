import DMS.Orchestrator.Update

/-! # Giving back what a failed commit has taken

After a commit that fails `deploy` walks over the nodes of the manifest and reverts them;
`handleNewAllocations` bids again at once. Which of the nodes that hold resources are told
to release them depends on what the manifest says about them.
-/

namespace DMS.Orchestrator

open Jobs EnsembleConfig List

section Taken

variable {cfg : EnsembleConfig} {eid : GoString} {commits : CommitInputs} {n a : GoString}

def Granted (cfg : EnsembleConfig) (eid n a : GoString) (reply : Reply) : Prop :=
  a ∈ cfg.allocations ∧ (generateFullAllocationID eid n a).isSome = true ∧ reply = .ok

def Held (cfg : EnsembleConfig) (eid : GoString) (commits : CommitInputs) (n a : GoString) : Prop :=
  ∃ ncfg i, deployedConfig cfg n = some ncfg ∧ ncfg.allocations[i]? = some a ∧
    Granted cfg eid n a (commits.replies n i)

def HeldWhole (cfg : EnsembleConfig) (eid : GoString) (commits : CommitInputs) (n : GoString) :
    Prop :=
  ∃ ncfg, deployedConfig cfg n = some ncfg ∧ ∀ i a, ncfg.allocations[i]? = some a →
    Granted cfg eid n a (commits.replies n i)

theorem Held.id (h : Held cfg eid commits n a) :
    ∃ id, generateFullAllocationID eid n a = some id := by
  obtain ⟨-, -, -, -, -, hid, -⟩ := h
  exact Option.isSome_iff_exists.mp hid

variable {h : Handle} {ncfg : NodeConfig} {reply : Reply} {x : Sent} {c : Candidate}

theorem commitAllocation_error :
    (commitAllocation cfg eid n h ncfg a reply).2 = none ↔ Granted cfg eid n a reply := by
  rw [commitAllocation, Granted, allocation, ← AList.lookup_isSome]
  cases cfg.allocations.lookup a with
  | none => simp
  | some acfg =>
    cases generateFullAllocationID eid n a with
    | none => simp
    | some id => cases reply <;> simp [commitError]

theorem commitAllocation_sent
    (hx : (commitAllocation cfg eid n h ncfg a reply).1 = some x) (hok : x.reply = .ok) :
    Granted cfg eid n a reply ∧ x.request.nodeID = n ∧ x.request.dest = h ∧
      generateFullAllocationID eid n a = some x.request.allocationName := by
  unfold commitAllocation allocation at hx
  rw [Granted, ← AList.lookup_isSome]
  cases hacfg : cfg.allocations.lookup a with
  | none =>
    rw [hacfg] at hx
    cases hx
  | some acfg =>
    rw [hacfg] at hx
    cases hid : generateFullAllocationID eid n a with
    | none =>
      rw [hid] at hx
      cases hx
    | some id =>
      rw [hid] at hx
      dsimp only at hx
      split at hx
      · cases hx
        exact ⟨⟨rfl, rfl, hok⟩, rfl, rfl, rfl⟩
      · cases hx

theorem commitAllocation_of_granted (hg : Granted cfg eid n a reply) :
    ∃ x, (commitAllocation cfg eid n h ncfg a reply).1 = some x ∧ x.reply = .ok ∧
      x.request.nodeID = n ∧ x.request.dest = h ∧
      generateFullAllocationID eid n a = some x.request.allocationName := by
  obtain ⟨hmem, hid, rfl⟩ := hg
  obtain ⟨acfg, hacfg⟩ := GoMap.exists_lookup hmem
  obtain ⟨id, hid⟩ := Option.isSome_iff_exists.mp hid
  rw [commitAllocation, allocation, hacfg, hid]
  exact ⟨_, rfl, rfl, rfl, rfl, rfl⟩

theorem commitDeployment_errs {order} :
    (commitDeployment cfg eid n h (commits.replies n) order).errs = [] ↔
      HeldWhole cfg eid commits n := by
  unfold commitDeployment HeldWhole
  cases deployedConfig cfg n with
  | none => simp
  | some ncfg =>
    rw [← length_eq_zero_iff, (order.perm _).length_eq, length_eq_zero_iff, filterMap_eq_nil_iff]
    simp only [forall_mem_map, commitAllocation_error, Option.some.injEq, exists_eq_left']
    constructor
    · intro hall i a hi
      exact hall (a, i) (mem_zipIdx_iff_getElem?.mpr hi)
    · rintro hall ⟨a, i⟩ hin
      exact hall i a (mem_zipIdx_iff_getElem?.mp hin)

theorem mem_commitDeployment_sent {replies order} :
    x ∈ (commitDeployment cfg eid n h replies order).sent ↔
      ∃ ncfg i a, deployedConfig cfg n = some ncfg ∧ ncfg.allocations[i]? = some a ∧
        (commitAllocation cfg eid n h ncfg a (replies i)).1 = some x := by
  unfold commitDeployment
  cases deployedConfig cfg n with
  | none => simp
  | some ncfg =>
    simp only [mem_filterMap, mem_map, Prod.exists, mem_zipIdx_iff_getElem?, Option.some.injEq]
    constructor
    · rintro ⟨_, _, ⟨a, i, hi, hout⟩, rfl⟩
      exact ⟨ncfg, i, a, rfl, hi, congrArg Prod.fst hout⟩
    · rintro ⟨_, i, a, rfl, hi, hout⟩
      exact ⟨_, _, ⟨a, i, hi, rfl⟩, hout⟩

theorem mem_commit_sent {m} : x ∈ (commit cfg eid m c commits).sent ↔
      ∃ n bid, c.lookup n = some bid ∧ x ∈ (commitOf cfg eid commits ⟨n, bid⟩).sent := by
  have hsent : (commit cfg eid m c commits).sent =
      c.entries.flatMap fun e => (commitOf cfg eid commits e).sent := by
    unfold commit
    dsimp only
    split
    · rfl
    · split <;> rfl
  rw [hsent, mem_flatMap]
  exact GoMap.exists_mem_entries (P := fun n bid => x ∈ (commitOf cfg eid commits ⟨n, bid⟩).sent)

theorem held_of_sent {m} (hx : x ∈ (commit cfg eid m c commits).sent) (hok : x.reply = .ok) :
    ∃ bid a, c.lookup x.request.nodeID = some bid ∧ x.request.dest = bid.handle ∧
      Held cfg eid commits x.request.nodeID a ∧
      generateFullAllocationID eid x.request.nodeID a = some x.request.allocationName := by
  obtain ⟨n, bid, hbid, hx⟩ := mem_commit_sent.mp hx
  obtain ⟨ncfg, i, a, hcfg, hi, hx⟩ := mem_commitDeployment_sent.mp hx
  obtain ⟨hg, hnode, hdest, hid⟩ := commitAllocation_sent hx hok
  rw [hnode]
  exact ⟨bid, a, hbid, hdest, ⟨ncfg, i, hcfg, hi, hg⟩, hid⟩

theorem sent_of_held (m : EnsembleManifest) {bid}
    (hbid : c.lookup n = some bid) (hheld : Held cfg eid commits n a) :
    ∃ x ∈ (commit cfg eid m c commits).sent, x.reply = .ok ∧
      x.request.nodeID = n ∧ x.request.dest = bid.handle ∧
      generateFullAllocationID eid n a = some x.request.allocationName := by
  obtain ⟨ncfg, i, hcfg, hi, hg⟩ := hheld
  obtain ⟨x, hx, hfacts⟩ := @commitAllocation_of_granted cfg eid n a bid.handle ncfg _ hg
  exact ⟨x, mem_commit_sent.mpr ⟨n, bid, hbid,
    mem_commitDeployment_sent.mpr ⟨ncfg, i, a, hcfg, hi, hx⟩⟩, hfacts⟩

end Taken

def Attempt.Undone (t : Attempt) : Prop := ∀ x ∈ t.run.sent, x.reply = .ok → ∃ r ∈ t.reverts,
    r.nodeID = x.request.nodeID ∧ r.dest = x.request.dest ∧
      ∀ y ∈ t.run.sent, y.reply = .ok → y.request.nodeID = x.request.nodeID →
        y.request.allocationName ∈ r.allocsByName

def Names (cfg : EnsembleConfig) (eid : GoString) (commits : CommitInputs) (n : GoString)
    (r : Revert) : Prop :=
  ∀ a id, Held cfg eid commits n a → generateFullAllocationID eid n a = some id →
    id ∈ r.allocsByName

variable {cfg : EnsembleConfig} {eid : GoString} {t : Attempt}

theorem undone_iff (hrun : t.run = commit cfg eid t.manifest t.candidate t.commits) :
    t.Undone ↔ ∀ n bid, t.candidate.lookup n = some bid → (∃ a, Held cfg eid t.commits n a) →
        ∃ r ∈ t.reverts, r.nodeID = n ∧ r.dest = bid.handle ∧ Names cfg eid t.commits n r := by
  rw [Attempt.Undone, hrun]
  constructor
  · rintro h n bid hbid ⟨a, hheld⟩
    obtain ⟨x, hx, hok, rfl, hdest, -⟩ := sent_of_held t.manifest hbid hheld
    obtain ⟨r, hr, hnode, hrdest, hnames⟩ := h x hx hok
    refine ⟨r, hr, hnode, hrdest.trans hdest, fun a' id hheld' hid => ?_⟩
    obtain ⟨y, hy, hyok, hynode, -, hyid⟩ := sent_of_held t.manifest hbid hheld'
    rw [hid, Option.some.injEq] at hyid
    rw [hyid]
    exact hnames y hy hyok hynode
  intro h x hx hok
  obtain ⟨bid, a, hbid, hdest, hheld, -⟩ := held_of_sent hx hok
  obtain ⟨r, hr, hnode, hrdest, hnames⟩ := h _ bid hbid ⟨a, hheld⟩
  refine ⟨r, hr, hnode, hrdest.trans hdest.symm, fun y hy hyok hynode => ?_⟩
  obtain ⟨-, a', -, -, hheld', hid'⟩ := held_of_sent hy hyok
  rw [hynode] at hheld' hid'
  exact hnames a' _ hheld' hid'

/-- The walk over the manifest reaches a node that holds something: the manifest has it with the
handle of its bid, the configuration knows what it holds, and the revert goes out. -/
structure Revertible (cfg : EnsembleConfig) (eid : GoString) (t : Attempt) (n : GoString)
    (bid : Bid) : Prop where
  listed : ∃ nmf, t.manifest.nodes.lookup n = some nmf ∧
    (HeldWhole cfg eid t.commits n ∨ nmf.handle = bid.handle)
  known : ∃ ncfg, cfg.node n = some ncfg ∧ ∀ a, Held cfg eid t.commits n a → a ∈ ncfg.allocations
  sent : (t.replies n).sent = true

theorem recorded_handle {commits} {c : Candidate} {n bid nmf} (hbid : c.lookup n = some bid) :
    (recorded cfg eid commits c n nmf).handle = bid.handle ↔
      HeldWhole cfg eid commits n ∨ nmf.handle = bid.handle := by
  have hwhole : (commitOf cfg eid commits ⟨n, bid⟩).errs = [] ↔ HeldWhole cfg eid commits n :=
    commitDeployment_errs
  rw [recorded, hbid]
  dsimp only
  split
  · next herrs => exact iff_of_true rfl (.inl (hwhole.mp herrs))
  · next herrs => exact (or_iff_right fun h => herrs (hwhole.mpr h)).symm

theorem deploy_undone_iff (ht : t.OfDeploy cfg eid) (herror : t.run.error ≠ none) :
    t.Undone ↔ ∀ n bid, t.candidate.lookup n = some bid →
      (∃ a, Held cfg eid t.commits n a) → Revertible cfg eid t n bid := by
  rw [undone_iff ht.run]
  refine forall_congr' fun n => forall_congr' fun bid => forall_congr' fun hbid =>
    forall_congr' fun _ => ?_
  have hlookup := commit_nodes_of_error (ht.run ▸ herror) n
  rw [← ht.run] at hlookup
  constructor
  · rintro ⟨r, hr, hnode, hdest, hnames⟩
    obtain ⟨n', nmf, ncfg, hnmf, hncfg, hsent, rfl⟩ := (ht.reverts herror r).mp hr
    obtain rfl : n' = n := hnode
    rw [hlookup, Option.map_eq_some_iff] at hnmf
    obtain ⟨old, hold, rfl⟩ := hnmf
    refine ⟨⟨old, hold, (recorded_handle hbid).mp hdest⟩, ⟨ncfg, hncfg, fun a hheld => ?_⟩, hsent⟩
    obtain ⟨id, hid⟩ := hheld.id
    obtain ⟨a', ha', hid'⟩ := mem_filterMap.mp (hnames a id hheld hid)
    have heq := Option.some.inj ((Option.ite_none_left_eq_some.mp hid).2.trans
      (Option.ite_none_left_eq_some.mp hid').2.symm)
    exact (cons.inj (append_cancel_left heq)).2 ▸ ha'
  intro h
  obtain ⟨old, hold, hhandle⟩ := h.listed
  obtain ⟨ncfg, hncfg, hknown⟩ := h.known
  refine ⟨_, (ht.reverts herror _).mpr ⟨n, _, ncfg, ?_, hncfg, h.sent, rfl⟩, rfl,
    (recorded_handle hbid).mpr hhandle, fun a id hheld hid => ?_⟩
  · rw [hlookup, hold]
    rfl
  · exact mem_filterMap.mpr ⟨a, hknown a hheld, hid⟩

/-- What an attempt of the add phase is: a commit that fails is followed by nothing. -/
structure Attempt.OfUpdate (newConfig : EnsembleConfig) (eid : GoString) (t : Attempt) :
    Prop where
  run : t.run = commit newConfig eid t.manifest t.candidate t.commits
  reverts : t.run.error ≠ none → t.reverts = []

theorem addLoop_attempts (eid : GoString) (mcfg delta : EnsembleConfig) (exp : Int)
    (ts : List UpdateTurn) (s : Running) :
    ∀ t ∈ (addLoop eid mcfg delta exp ts s).attempts, t.OfUpdate delta eid := by
  induction ts generalizing s with
  | nil => simp [addLoop]
  | cons turn ts ih =>
    unfold addLoop
    split
    · simp
    split
    · exact ih s
    · simp
    dsimp only
    split
    · rw [forall_mem_cons]
      exact ⟨⟨rfl, fun _ => rfl⟩, ih s⟩
    rename_i hok
    split
    · rw [forall_mem_cons]
      exact ⟨⟨rfl, fun h => absurd (.inl h) hok⟩, ih _⟩
    intro t ht
    rw [mem_singleton] at ht
    subst ht
    exact ⟨rfl, fun _ => rfl⟩

theorem update_undone_iff {delta} (ht : t.OfUpdate delta eid) (herror : t.run.error ≠ none) :
    t.Undone ↔ ∀ n bid, t.candidate.lookup n = some bid → ∀ a, ¬ Held delta eid t.commits n a := by
  rw [undone_iff ht.run, ht.reverts herror]
  refine forall_congr' fun n => forall_congr' fun bid => forall_congr' fun _ => ?_
  simp

/-- In every run of `deploy` a failed commit is undone exactly when the walk over the manifest
reaches every node that holds something; in the add phase exactly when no node holds anything. -/
theorem failed_commit_undone_iff (eid : GoString) (expiry : Int) (cfg : EnsembleConfig)
    (deployTurns : List DeployTurn) (deploying : Deploying) (modifiedCfg newConfig : EnsembleConfig)
    (order : RangeOrder) (updateTurns : List UpdateTurn) (running : Running) :
    (∀ t ∈ (deploy cfg eid expiry deployTurns deploying).attempts, t.run.error ≠ none →
      (t.Undone ↔ ∀ n bid, t.candidate.lookup n = some bid →
        (∃ a, Held cfg eid t.commits n a) → Revertible cfg eid t n bid)) ∧
    (newConfigForDeploymentUpdate running.cfg modifiedCfg
        (running.manifest.nodes.mapValues fun _ node => node.peer) order = .ok newConfig →
      ∀ t ∈ (handleNewAllocations eid modifiedCfg expiry order updateTurns running).attempts,
        t.run.error ≠ none → (t.Undone ↔ ∀ n bid, t.candidate.lookup n = some bid →
          ∀ a, ¬ Held newConfig eid t.commits n a)) := by
  constructor
  · intro t ht herror
    exact deploy_undone_iff (deploy_attempts cfg eid expiry deployTurns deploying t ht) herror
  intro hconfig t ht herror
  refine update_undone_iff ?_ herror
  unfold handleNewAllocations at ht
  dsimp only at ht
  rw [hconfig] at ht
  dsimp only at ht
  split at ht
  · cases ht
  · exact addLoop_attempts _ _ _ _ _ _ t ht

/-- One turn of `deploy` on one node. -/
def sampleDeploy (allocs : List String) (commits : CommitInputs) : DeployRun :=
  deploy (sampleHost allocs 0) (ascii "e") 1
    [⟨0, .found (sampleBids (sampleHost allocs 0)), commits, none, successes, .stored,
      fun _ => .ok⟩]
    ⟨newManifest (ascii "e") (sampleHost allocs 0), none⟩

def partialCommits : CommitInputs :=
  { sampleCommits [] with replies := fun _ i => if i = 0 then .ok else .refused "no resources" }

/-- Everything is committed, but the allocations are not created. -/
theorem failed_allocate_undone :
    ∃ t ∈ (sampleDeploy ["a"] (sampleCommits [])).attempts, t.run.error ≠ none ∧ t.Undone := by
  have hnode : ∀ n ∈ sampleBids (sampleHost ["a"] 0), n = ascii "n" :=
    fun n hn => mem_singleton.mp (AList.mem_keys.mp hn)
  have hattempt : ∃ t ∈ (sampleDeploy ["a"] (sampleCommits [])).attempts, t.run.error ≠ none ∧
      t.manifest = newManifest (ascii "e") (sampleHost ["a"] 0) ∧
      t.candidate = sampleBids (sampleHost ["a"] 0) ∧ t.commits = sampleCommits [] ∧
      t.replies = fun _ => .ok :=
    ⟨_, .head _, Option.isSome_iff_ne_none.mp rfl, rfl, rfl, rfl, rfl⟩
  obtain ⟨t, ht, herror, hmanifest, hcandidate, hcommits, hreplies⟩ := hattempt
  refine ⟨t, ht, herror, ((failed_commit_undone_iff (ascii "e") 1 (sampleHost ["a"] 0) _ _
    (sampleHost ["a"] 0) (sampleHost ["a"] 0) .stored [] (sampleRunning ["a"] 0)).1 t ht
      herror).mpr ?_⟩
  rw [hcandidate]
  intro n bid hbid _
  obtain rfl := hnode n (GoMap.mem_of_lookup hbid)
  have hgranted : ∀ (i : Nat) (a : GoString), [ascii "a"][i]? = some a →
      Granted (sampleHost ["a"] 0) (ascii "e") (ascii "n") a .ok := by
    intro i a hi
    obtain rfl := mem_singleton.mp (mem_of_getElem? hi)
    exact ⟨by decide, rfl, rfl⟩
  refine ⟨⟨_, by rw [hmanifest]; rfl, .inl ?_⟩, ⟨_, rfl, fun a hheld => ?_⟩, by rw [hreplies]; rfl⟩
  · rw [hcommits]
    exact ⟨_, rfl, hgranted⟩
  · obtain ⟨ncfg, i, ⟨⟩, hi, -⟩ := hheld
    exact mem_of_getElem? hi

/-- One of two allocations of a node is refused: the manifest has no handle for the node, and the
revert for the other goes nowhere. During an update there is none. -/
theorem failed_commit_not_undone :
    (∃ t ∈ (sampleDeploy ["a", "b"] partialCommits).attempts, t.run.error ≠ none ∧ ¬ t.Undone) ∧
    ∃ t ∈ (handleNewAllocations (ascii "e") (sampleHost ["a", "b", "c"] 0) 1 .stored
        [⟨0, .found (sampleBids (sampleHost ["a", "b", "c"] 0)), partialCommits, none, none,
          successes, .stored, fun _ => .ok⟩] (sampleRunning ["a"] 0)).attempts,
      t.run.error ≠ none ∧ ¬ t.Undone := by
  refine ⟨⟨_, .head _, Option.isSome_iff_ne_none.mp rfl, fun h => ?_⟩,
    ⟨_, .head _, Option.isSome_iff_ne_none.mp rfl, fun h => ?_⟩⟩
  · obtain ⟨r, hr, -, hdest, -⟩ := h _ (.head _) rfl
    obtain rfl := mem_singleton.mp hr
    revert hdest
    decide
  · obtain ⟨r, ⟨⟩, -⟩ := h _ (.head _) rfl

end DMS.Orchestrator
