import DMS.Orchestrator.Provision

/-! # Deploying an ensemble

The loop of `deploy` in `dms/orchestrator/orchestrator.go`, with the reverts of
`teardown.go`. Every turn bids, commits and provisions; when a step fails the turn gives
back what it can and the loop starts over.
-/

namespace DMS.Orchestrator

open Jobs

/-- `DeploymentRevertRequest`, with the node it is for and the handle that it is sent to. -/
structure Revert where
  nodeID : GoString
  dest : Handle
  ensembleID : GoString
  allocsByName : List GoString

def removeNodeFromManifest (name : GoString) (mf : EnsembleManifest) : EnsembleManifest :=
  match mf.nodes.lookup name with
  | none => mf
  | some n =>
    { allocations := GoMap.eraseAll n.allocations mf.allocations
      nodes := mf.nodes.erase name }

/-- `revertNodeDeployment`. The node leaves the manifest of the orchestrator only when it
answers well. -/
def revertNodeDeployment (cfg : EnsembleConfig) (eid n : GoString) (h : Handle) (reply : Reply)
    (mf : EnsembleManifest) : Option Revert × EnsembleManifest :=
  match cfg.node n with
  | none => (none, mf)
  | some ncfg =>
    if reply.sent = false then (none, mf)
    else
      (some ⟨n, h, eid, ncfg.allocations.filterMap (generateFullAllocationID eid n)⟩,
        if reply = .ok then removeNodeFromManifest n mf else mf)

/-- The loop over the nodes of a manifest; `mf` is the manifest of the orchestrator. -/
def revertNodes (cfg : EnsembleConfig) (eid : GoString) (replies : GoString → Reply) :
    List (Σ _ : GoString, NodeManifest) → EnsembleManifest → List Revert × EnsembleManifest
  | [], mf => ([], mf)
  | e :: es, mf =>
    let (sent, mf) := revertNodeDeployment cfg eid e.1 e.2.handle (replies e.1) mf
    let (rest, mf) := revertNodes cfg eid replies es mf
    (sent.toList ++ rest, mf)

theorem mem_revertNodes {cfg eid replies es mf r} : r ∈ (revertNodes cfg eid replies es mf).1 ↔
      ∃ e ∈ es, ∃ ncfg, cfg.node e.1 = some ncfg ∧ (replies e.1).sent = true ∧
        r = ⟨e.1, e.2.handle, eid,
          ncfg.allocations.filterMap (generateFullAllocationID eid e.1)⟩ := by
  induction es generalizing mf with
  | nil => simp [revertNodes]
  | cons e es ih =>
    rw [revertNodes, List.mem_append, ih, List.exists_mem_cons_iff]
    refine or_congr_left ?_
    rw [Option.mem_toList]
    unfold revertNodeDeployment
    split
    · next hnone => simp [hnone]
    rename_i ncfg hsome
    split
    · next hsent => simp [hsent]
    rename_i hsent
    simp only [hsome, hsent, Option.some.injEq, true_and, exists_eq_left']
    exact eq_comm

/-- How the bidding of a turn ends; bids that are promises are converted already. -/
inductive Bidding
  | notFound
  | failed (text : String)
  | found (candidate : Candidate)

/-- What one turn does not decide itself. -/
structure DeployTurn where
  now : Int
  bidding : Bidding
  commits : CommitInputs
  subnet : Option String
  provision : ProvisionInputs
  order : RangeOrder
  reverts : GoString → Reply

/-- One commit, with the requests that were sent after it and before the next bidding. -/
structure Attempt where
  manifest : EnsembleManifest
  candidate : Candidate
  commits : CommitInputs
  replies : GoString → Reply
  run : CommitRun
  reverts : List Revert

/-- The manifest of the orchestrator, and the one that every attempt starts from: `none` as long
as both have the same maps, so that a node removed from one is gone from both. -/
structure Deploying where
  manifest : EnsembleManifest
  partialManifest : Option EnsembleManifest

inductive DeployEnd
  | running
  | failed (text : String)
  | timedOut
  | deployed
deriving DecidableEq, Repr

structure DeployRun where
  attempts : List Attempt
  ending : DeployEnd
  state : Deploying

/-- `Provision`; what the subnet answers is an input. -/
def provision (cfg : EnsembleConfig) (manifest : EnsembleManifest) (subnet : Option String)
    (inputs : ProvisionInputs) : EnsembleManifest × Option String :=
  match subnet with
  | some text => (manifest, some s!"provisioning subnet: {text}")
  | none =>
    let run := provisionAllocations cfg manifest inputs
    (run.manifest, if run.errs = [] then none
      else some ("provisioning allocations: " ++ String.intercalate "\n" run.errs))

theorem provision_places {cfg m prov subnet inp} (h : provision cfg m subnet inp = (prov, none)) :
    SamePlaces m prov := by
  unfold provision at h
  split at h
  · cases h
  · rw [← (Prod.mk.inj h).1]
    exact provisionAllocations_places ..

/-- `deploy`, up to the turns that are given. -/
def deploy (cfg : EnsembleConfig) (eid : GoString) (expiry : Int) :
    List DeployTurn → Deploying → DeployRun
  | [], s => ⟨[], .running, s⟩
  | t :: ts, s =>
    if expiry ≤ t.now then ⟨[], .timedOut, s⟩
    else
      match t.bidding with
      | .notFound => deploy cfg eid expiry ts s
      | .failed text => ⟨[], .failed text, s⟩
      | .found candidate =>
        let manifest := s.partialManifest.getD s.manifest
        let run := commit cfg eid manifest candidate t.commits
        if run.error ≠ none then
          let (reverts, mf) := revertNodes cfg eid t.reverts
            (t.order.visit run.manifest.nodes.entries) s.manifest
          let rest := deploy cfg eid expiry ts { s with manifest := mf }
          { rest with
            attempts := ⟨manifest, candidate, t.commits, t.reverts, run, reverts⟩ :: rest.attempts }
        else
          match provision cfg run.manifest t.subnet t.provision with
          | (_, some _) =>
            let (reverts, mf) := revertNodes cfg eid t.reverts
              (t.order.visit run.manifest.nodes.entries) run.manifest
            let rest := deploy cfg eid expiry ts ⟨mf, some manifest⟩
            { rest with
              attempts := ⟨manifest, candidate, t.commits, t.reverts, run, reverts⟩ ::
                rest.attempts }
          | (provisioned, none) =>
            ⟨[⟨manifest, candidate, t.commits, t.reverts, run, []⟩], .deployed,
              ⟨provisioned, some manifest⟩⟩

/-- What an attempt of `deploy` is: a commit that fails is followed by a revert for every
node of the manifest that the configuration knows. -/
structure Attempt.OfDeploy (cfg : EnsembleConfig) (eid : GoString) (t : Attempt) : Prop where
  run : t.run = commit cfg eid t.manifest t.candidate t.commits
  reverts : t.run.error ≠ none → ∀ r, r ∈ t.reverts ↔
    ∃ n nmf ncfg, t.run.manifest.nodes.lookup n = some nmf ∧ cfg.node n = some ncfg ∧
      (t.replies n).sent = true ∧
      r = ⟨n, nmf.handle, eid, ncfg.allocations.filterMap (generateFullAllocationID eid n)⟩

theorem deploy_attempts (cfg : EnsembleConfig) (eid : GoString) (exp : Int)
    (ts : List DeployTurn) (s : Deploying) :
    ∀ t ∈ (deploy cfg eid exp ts s).attempts, t.OfDeploy cfg eid := by
  induction ts generalizing s with
  | nil => simp [deploy]
  | cons turn ts ih =>
    unfold deploy
    split
    · simp
    split
    · exact ih s
    · simp
    dsimp only
    split
    · rw [List.forall_mem_cons]
      refine ⟨⟨rfl, fun _ r => ?_⟩, ih _⟩
      rw [mem_revertNodes]
      simp only [RangeOrder.mem_visit, exists_and_left]
      exact GoMap.exists_mem_entries (P := fun n (nmf : NodeManifest) =>
        ∃ ncfg, cfg.node n = some ncfg ∧
        (turn.reverts n).sent = true ∧ r = ⟨n, nmf.handle, eid,
          ncfg.allocations.filterMap (generateFullAllocationID eid n)⟩)
    rename_i hok
    split
    · rw [List.forall_mem_cons]
      exact ⟨⟨rfl, fun h => absurd (not_not.mp hok) h⟩, ih _⟩
    intro t ht
    rw [List.mem_singleton] at ht
    subst ht
    exact ⟨rfl, fun h => absurd (not_not.mp hok) h⟩

end DMS.Orchestrator
