import DMS.Orchestrator.DeploymentsStore
import DMS.Orchestrator.Removal
import DMS.Orchestrator.Subnet
import DMS.Tokenomics.ContractStore

/-! # Restoring a saved deployment

`RestoreDeployment` of `dms/orchestrator/registry.go`, next to `Deploy` of `orchestrator.go` and
`Shutdown` of `teardown.go`. The restored orchestrator has no node identifier generator, no
contracts and no event handler.
-/

namespace DMS.Orchestrator

open Jobs

/-- What `SaveOrchestrator` writes. `contracts` and `join` are the fields `V1.Contracts` and
`V1.Subnet.Join` of the configuration. -/
structure Deployment where
  cfg : EnsembleConfig
  contracts : GoMap GoString Types.ContractConfig
  join : Bool
  manifestID : GoString
  manifest : EnsembleManifest
  manifestJoin : Bool
  subnet : SubnetManifest
  status : DeploymentStatus
  candidates : Candidate
  expiry : Int

/-- What a restore does not decide itself. -/
structure RestoreEnv where
  known : Bool
  registers : Bool
  grant : GoString → Bool
  reverts : GoString → Reply
  order : RangeOrder
  subnet : Option String
  provision : ProvisionInputs
  created : Bool
  joined : Bool
  turns : List DeployTurn

/-- An orchestrator in memory: the handles it has granted its capabilities to, and the manifest
that a supervisor loop runs on. -/
structure Live where
  status : DeploymentStatus
  manifest : EnsembleManifest
  granted : List GoString
  supervised : Option EnsembleManifest
  contracts : GoMap GoString Types.ContractConfig

/-- `events.DeploymentStop` with the contract and the host that it is pushed to. -/
structure DeploymentStop where
  contractHostDID : GoString
  contractDID : GoString
deriving DecidableEq, Repr

/-- The events of a `Shutdown`. -/
def Live.stops (o : Live) : List DeploymentStop :=
  if o.status = .completed ∨ o.status = .shuttingDown then []
  else o.contracts.entries.map fun e => ⟨e.2.host, e.2.did⟩

inductive RestoreEnd
  | panicked
  | pending
  | failed
  | returned (o : Live)

def redundant (cfg : EnsembleConfig) : Bool :=
  cfg.primaryNodes.entries.any fun e => 0 < e.2.redundancy

/-- `newManifest`, which has the generator name the standby nodes. -/
def bareManifest (eid : GoString) (cfg : EnsembleConfig) : Option EnsembleManifest :=
  if redundant cfg then none else some (newManifest eid cfg)

/-- The committer finds the configuration of the node without the generator. -/
def located (cfg : EnsembleConfig) (n : GoString) : Bool :=
  match parseNodeName n with
  | some (primaryNode, _) => primaryNode ∈ cfg.primaryNodes
  | none => n ∈ cfg.primaryNodes

def DeployRun.located (cfg : EnsembleConfig) (run : DeployRun) : Bool :=
  run.attempts.all fun t => t.candidate.keys.all (Orchestrator.located cfg)

section Restore

variable (eid : GoString) (d : Deployment) (env : RestoreEnv)

def redeploy (s : Deploying) : DeployRun := deploy d.cfg eid d.expiry env.turns s

/-- `deploy` with what comes after it: the supervisor is started on one way only. -/
def redeployed (s : Deploying) (granted : List GoString) (supervise : Bool) : RestoreEnd :=
  let run := redeploy eid d env s
  if run.located d.cfg = false then .panicked
  else
    match run.ending with
    | .running => .pending
    | .failed _ => .failed
    | .timedOut => .failed
    | .deployed =>
      .returned ⟨.running, run.state.manifest, granted,
        if supervise then some run.state.manifest else none, ∅⟩

def revertCandidates (mf : EnsembleManifest) : EnsembleManifest :=
  (env.order.visit d.candidates.entries).foldl
    (fun mf e => (revertNodeDeployment d.cfg eid e.1 e.2.handle (env.reverts e.1) mf).2) mf

/-- `revert` of the saved manifest; `mf` is the manifest of the orchestrator. -/
def revertSaved (mf : EnsembleManifest) : EnsembleManifest :=
  (revertNodes d.cfg eid env.reverts (env.order.visit d.manifest.nodes.entries) mf).2

def startOver (mf : EnsembleManifest) (granted : List GoString) (supervise : Bool) : RestoreEnd :=
  match bareManifest eid d.cfg with
  | none => .panicked
  | some fresh => redeployed eid d env ⟨revertSaved eid d env mf, some fresh⟩ granted supervise

def handleDIDs (mf : EnsembleManifest) : List GoString :=
  mf.allocations.entries.map fun e => e.2.handle.did

def rejoins : Bool := (if d.manifestID = [] then d.join else d.manifestJoin) &&
    (d.subnet.indexRoutingTable.lookup orchSubnetName).isSome

/-- The branches of `restoreDeployment`; `mf` is the manifest of the orchestrator. -/
def resume (mf : EnsembleManifest) : RestoreEnd :=
  match d.status with
  | .preparing =>
    -- the saved manifest is passed on, also when a new one was made for the orchestrator
    redeployed eid d env ⟨mf, if d.manifestID = [] then some d.manifest else none⟩ [] true
  | .committing => redeployed eid d env ⟨revertCandidates eid d env mf, some mf⟩ [] true
  | .provisioning =>
    match provision d.cfg d.manifest env.subnet env.provision with
    | (provisioned, none) => .returned ⟨.running, provisioned, [], some provisioned, ∅⟩
    | (_, some _) => startOver eid d env mf [] true
  | .running =>
    if (handleDIDs mf).all env.grant = false then .failed
    else if rejoins d = true ∧ (env.created && env.joined) = false then
      startOver eid d env mf (handleDIDs mf) false
    else .returned ⟨.running, mf, handleDIDs mf, some mf, ∅⟩
  | status => .returned ⟨status, mf, [], none, ∅⟩

def restoreDeployment : RestoreEnd :=
  if env.known = true ∨ env.registers = false then .failed
  else if d.manifestID = [] then
    match bareManifest eid d.cfg with
    | none => .panicked
    | some mf => resume eid d env mf
  else resume eid d env d.manifest

end Restore

/-- What `Deploy` leaves behind. -/
structure Complete (contracts : GoMap GoString Types.ContractConfig) (o : Live) : Prop where
  granted : ∀ key a, o.manifest.allocations.lookup key = some a → a.handle.did ∈ o.granted
  supervised : o.supervised = some o.manifest
  stops : ∀ name c, contracts.lookup name = some c → ⟨c.host, c.did⟩ ∈ o.stops

/-- No panic, and what is running is complete. -/
def RestoreEnd.AsNew (contracts : GoMap GoString Types.ContractConfig) : RestoreEnd → Prop
  | .panicked => False
  | .returned o => o.status = .running → Complete contracts o
  | _ => True

variable {mf : EnsembleManifest}

variable {granted : List GoString}

theorem complete_bare_iff {contracts supervised} :
    Complete contracts ⟨.running, mf, granted, supervised, ∅⟩ ↔
      (∀ key a, mf.allocations.lookup key = some a → a.handle.did ∈ granted) ∧
        supervised = some mf ∧ ∀ name, name ∉ contracts := by
  constructor
  · intro h
    refine ⟨h.granted, h.supervised, fun name hname => ?_⟩
    obtain ⟨c, hc⟩ := GoMap.exists_lookup hname
    have hstop := h.stops name c hc
    cases hstop
  · rintro ⟨hgranted, hsupervised, hnone⟩
    exact ⟨hgranted, hsupervised, fun name c hc => absurd (GoMap.mem_of_lookup hc) (hnone name)⟩

theorem granted_nil_iff : (∀ key a, mf.allocations.lookup key = some a → a.handle.did ∈ []) ↔
      ∀ key, key ∉ mf.allocations := by
  constructor
  · intro h key hkey
    obtain ⟨a, ha⟩ := GoMap.exists_lookup hkey
    exact absurd (h key a ha) List.not_mem_nil
  · intro h key a ha
    exact absurd (GoMap.mem_of_lookup ha) (h key)

section Restorable

variable (eid : GoString) (d : Deployment) (env : RestoreEnv)

def Bare (mf : EnsembleManifest) : Prop :=
  (∀ key, key ∉ mf.allocations) ∧ ∀ name, name ∉ d.contracts

def base (s : Deploying) : EnsembleManifest :=
  s.partialManifest.getD (redeploy eid d env s).state.manifest

def Redeployable (s : Deploying) : Prop := (redeploy eid d env s).located d.cfg = true ∧
    ((redeploy eid d env s).ending = .deployed → Bare d (base eid d env s))

def Resumable (mf : EnsembleManifest) : Prop :=
  match d.status with
  | .preparing => Redeployable eid d env ⟨mf, if d.manifestID = [] then some d.manifest else none⟩
  | .committing => Redeployable eid d env ⟨revertCandidates eid d env mf, some mf⟩
  | .provisioning =>
    if (provision d.cfg d.manifest env.subnet env.provision).2 = none then Bare d d.manifest
    else
      redundant d.cfg = false ∧
        Redeployable eid d env ⟨revertSaved eid d env mf, some (newManifest eid d.cfg)⟩
  | .running =>
    (handleDIDs mf).all env.grant = true →
      if rejoins d = true ∧ (env.created && env.joined) = false then
        let run := redeploy eid d env ⟨revertSaved eid d env mf, some (newManifest eid d.cfg)⟩
        redundant d.cfg = false ∧ run.located d.cfg = true ∧ run.ending ≠ .deployed
      else ∀ name, name ∉ d.contracts
  | _ => True

def Restorable : Prop := env.known = true ∨ env.registers = false ∨
    (d.manifestID = [] → redundant d.cfg = false) ∧
      Resumable eid d env (if d.manifestID = [] then newManifest eid d.cfg else d.manifest)

variable {eid d env} {s : Deploying}

theorem deploy_allocations {cfg exp ts} (hs : s.partialManifest = some mf)
    (h : (deploy cfg eid exp ts s).ending = .deployed) (key : GoString) :
    key ∈ (deploy cfg eid exp ts s).state.manifest.allocations ↔ key ∈ mf.allocations := by
  induction ts generalizing s with
  | nil => cases h
  | cons t ts ih =>
    unfold deploy at h ⊢
    split at h
    · cases h
    rename_i hnow
    rw [if_neg hnow]
    split at h
    · exact ih hs h
    · cases h
    dsimp only at h ⊢
    split at h
    · next herror =>
      rw [if_pos herror]
      exact ih hs h
    rename_i hok
    rw [if_neg hok]
    rw [not_not] at hok
    split at h
    · exact ih (by rw [hs]; rfl) h
    rename_i prov hprovisioned
    rw [← (provision_places hprovisioned).mem_allocations, (commit_of_ok hok).allocations, hs]
    rfl

theorem redeployed_asNew_iff {supervise} :
    (redeployed eid d env s granted supervise).AsNew d.contracts ↔
      (redeploy eid d env s).located d.cfg = true ∧ ((redeploy eid d env s).ending = .deployed →
          (∀ key a, (redeploy eid d env s).state.manifest.allocations.lookup key = some a →
            a.handle.did ∈ granted) ∧ supervise = true ∧ ∀ name, name ∉ d.contracts) := by
  unfold redeployed
  dsimp only
  cases hlocated : (redeploy eid d env s).located d.cfg with
  | false => simp [RestoreEnd.AsNew]
  | true =>
    cases hending : (redeploy eid d env s).ending with
    | deployed =>
      cases supervise <;> simp [RestoreEnd.AsNew, complete_bare_iff]
    | running | failed text | timedOut => simp [RestoreEnd.AsNew]

theorem redeployed_iff_redeployable :
    (redeployed eid d env s [] true).AsNew d.contracts ↔ Redeployable eid d env s := by
  rw [redeployed_asNew_iff]
  refine and_congr_right fun _ => forall_congr' fun hdeployed => ?_
  have hbase : ∀ key, key ∈ (redeploy eid d env s).state.manifest.allocations ↔
      key ∈ (base eid d env s).allocations := by
    unfold base
    cases hs : s.partialManifest with
    | none => exact fun key => Iff.rfl
    | some mf => exact deploy_allocations hs hdeployed
  rw [granted_nil_iff]
  unfold Bare
  simp [hbase, true_and]

theorem startOver_asNew_iff {supervise} :
    (startOver eid d env mf granted supervise).AsNew d.contracts ↔ redundant d.cfg = false ∧
        (redeployed eid d env ⟨revertSaved eid d env mf, some (newManifest eid d.cfg)⟩ granted
          supervise).AsNew d.contracts := by
  unfold startOver bareManifest
  cases redundant d.cfg <;> simp [RestoreEnd.AsNew]

theorem resume_asNew_iff (eid : GoString) (d : Deployment) (env : RestoreEnv)
    (mf : EnsembleManifest) : (resume eid d env mf).AsNew d.contracts ↔ Resumable eid d env mf := by
  unfold resume Resumable
  cases d.status with
  | preparing | committing => exact redeployed_iff_redeployable
  | provisioning =>
    dsimp only
    split
    · next prov hprovisioned =>
      have hplaces := provision_places hprovisioned
      rw [hprovisioned, if_pos rfl]
      unfold RestoreEnd.AsNew Bare
      simp only [complete_bare_iff, granted_nil_iff, ← hplaces.mem_allocations, true_and,
        true_implies]
    · next hfailed =>
      rw [hfailed, if_neg nofun, startOver_asNew_iff, redeployed_iff_redeployable]
  | running =>
    dsimp only
    split
    · next hrefused => exact iff_of_true trivial fun h => absurd (hrefused.symm.trans h) nofun
    rename_i hgranted
    split
    · rw [startOver_asNew_iff, redeployed_asNew_iff]
      simp [hgranted]
    have hall : ∀ key a, mf.allocations.lookup key = some a → a.handle.did ∈ handleDIDs mf :=
      fun key a h => List.mem_map.mpr ⟨⟨key, a⟩, AList.mem_lookup_iff.mp h, rfl⟩
    unfold RestoreEnd.AsNew
    simp only [complete_bare_iff, hgranted, true_and, true_implies]
    exact and_iff_right hall
  | generating | updating | failed | shuttingDown | completed => exact iff_of_true nofun trivial

end Restorable

/-- One node with one allocation, saved after it was committed. -/
def sampleSaved (status : DeploymentStatus) (redundancy : Int)
    (contracts : GoMap GoString Types.ContractConfig) : Deployment where
  cfg := sampleHost ["a"] redundancy
  contracts := contracts
  join := false
  manifestID := ascii "e"
  manifest := (sampleRunning ["a"] redundancy).manifest
  manifestJoin := false
  subnet := newSubnetManifest 0 0
  status := status
  candidates := ∅
  expiry := 1

def sampleEnv (subnet : Option String) : RestoreEnv where
  known := false
  registers := true
  grant _ := true
  reverts _ := .ok
  order := .stored
  subnet := subnet
  provision := successes
  created := true
  joined := true
  turns := []

def sampleContracts : GoMap GoString Types.ContractConfig :=
  GoMap.insertAll [(ascii "c", ⟨ascii "did:c", ascii "did:h", [], []⟩)] ∅

end DMS.Orchestrator
