import DMS.Jobs.Ensemble
import DMS.Node.ChainVerification

/-! # Answering bid requests

`handleBidRequest` of `dms/node/behaviors_bid.go`. A bid request has an entry for each node of
an ensemble. A node that requires contracts looks at the contracts of the first entry, then
shuffles the entries and answers the first one that it can serve.
-/

namespace DMS.Node

open Did Jobs DMS.Types List

variable {κ : Type}

structure BidRequestV1 (κ : Type) where
  nodeID : GoString
  executors : List GoString
  resources : Resources κ
  location : LocationConstraints
  staticPorts : List Int
  dynamicPorts : Int
  privilegedDocker : Bool
  contracts : GoMap GoString ContractConfig

/-- The entries are versioned; one without a `V1` body is `none`. -/
structure EnsembleBidRequest (κ : Type) where
  id : GoString
  request : List (Option (BidRequestV1 κ))
  nonce : UInt64
  peerExclusion : List GoString

structure BidEnvelope (κ : Type) where
  fromHost : GoString
  fromDID : DID
  broadcast : Bool
  /-- The payload, or the error of decoding it. -/
  message : Except String (EnsembleBidRequest κ)

structure BidV1 where
  ensembleID : GoString
  nodeID : GoString
  location : Location
  promiseBid : Bool

structure Bidder (κ : Type) where
  hostID : GoString
  did : DID
  readyForBids : Bool
  onboarded : Bool
  computeGateway : Bool
  requireContracts : Bool
  allowPrivilegedDocker : Bool
  /-- The execution type of each executor. -/
  executors : GoMap GoString GoString
  location : Location
  bids : GoMap GoString (UInt64 × BidRequestV1 κ)
  answeredBids : GoMap GoString (List UInt64)

/-- What the handler is answered from outside. The contract hosts are asked once for each key
of the contract map, so the answers depend on the key. -/
structure BidEnv (κ : Type) where
  publicKeyFromDID : DID → Except String GoString
  peerID : GoString → Except String GoString
  handleFromPeerID : GoString → Except String Unit
  handleFromPublicKey : GoString → GoString → GoString → Except String Unit
  /-- The reply of a contract host and its decoding. -/
  invokeChain : GoString → ContractChainVerificationRequest →
    Except String (Except String ContractChainVerificationResponse)
  invokeValidation : GoString → GoString → Except String (Except String Bool)
  order : RangeOrder
  machineResources : Except String Unit
  /-- The resources of the machine compare as `Better`. -/
  better : Resources κ → Bool
  /-- Some provider of the gateway has a plan. -/
  foundServer : Resources κ → Bool
  checkAvailability : List Int → Int → Resources κ → Except String Unit
  getProvider : Except String Unit
  sign : BidV1 → Except String Unit

inductive BidOutcome (κ : Type)
  | ignored
  | panic
  | answered (v : BidRequestV1 κ) (bid : BidV1)

/-- How the handler ends, with the contracts that it verified on the way. -/
structure BidResult (κ : Type) where
  node : Bidder κ
  verified : List ContractConfig
  outcome : BidOutcome κ

/-- How a verification ends that does not succeed. -/
inductive VerifyFailure
  | refused (text : String)
  | panic

namespace Bidder

/-- `verifyContractChain` up to the response of the contract host. -/
def chainResponse (n : Bidder κ) (env : BidEnv κ) (contractConfig : ContractConfig)
    (orchestratorDID : DID) (contractKey : GoString) :
    Except String ContractChainVerificationResponse := do
  let hostDID ← (DID.fromString contractConfig.host).mapError ("failed to parse host DID: " ++ ·)
  let pubKey ← (env.publicKeyFromDID hostDID).mapError
    ("failed to get contract actor public key: " ++ ·)
  let pid ← (env.peerID pubKey).mapError ("failed to get peer id: " ++ ·)
  (env.handleFromPeerID pid).mapError ("failed to construct contract actor handle: " ++ ·)
  let reply ← (env.invokeChain contractKey
    ⟨contractConfig.did, orchestratorDID.uri, n.did.uri⟩).mapError
      ("failed to invoke chain verification: " ++ ·)
  reply.mapError ("failed to unmarshal chain verification response: " ++ ·)

def verifyContractChain (n : Bidder κ) (env : BidEnv κ) (contractConfig : ContractConfig)
    (orchestratorDID : DID) (contractKey : GoString) : Except VerifyFailure Unit :=
  match n.chainResponse env contractConfig orchestratorDID contractKey with
  | .error text => .error (.refused text)
  | .ok resp =>
    if resp.valid = false then
      .error (.refused ("contract chain verification failed: " ++ resp.error))
    else
      -- The log takes the identifiers of both contracts, without a look at the pointers.
      match resp.orchestratorContract, resp.providerContract with
      | some _, some _ => .ok ()
      | _, _ => .error .panic

def verifyP2PContract (env : BidEnv κ) (contractConfig : ContractConfig)
    (contractKey : GoString) : Except String Unit := do
  let hostDID ← (DID.fromString contractConfig.host).mapError
    ("failed to get contracts host did: " ++ ·)
  let pubKey ← (env.publicKeyFromDID hostDID).mapError
    ("failed to get contracts host public key from did: " ++ ·)
  let pid ← (env.peerID pubKey).mapError ("failed to get peer id: " ++ ·)
  let contractActorDID ← (DID.fromString contractConfig.did).mapError
    ("failed to get contracts actor did: " ++ ·)
  let pubKeyContractActor ← (env.publicKeyFromDID contractActorDID).mapError
    ("failed to get contracts actor public key from did: " ++ ·)
  (env.handleFromPublicKey pubKeyContractActor contractConfig.did pid).mapError
    ("failed to get contracts host handle: " ++ ·)
  let reply ← (env.invokeValidation contractKey contractConfig.did).mapError
    ("failed to send message to contract host: " ++ ·)
  let valid ← reply.mapError ("failed to unmarshal contract hosts response payload: " ++ ·)
  if valid then .ok () else .error "contract is invalid"

/-- `verifyContract` over the entries of the map in the order of the `range` loop, with the
contracts that were verified. -/
def verifyContract (n : Bidder κ) (env : BidEnv κ) (orchestratorDID : DID) :
    List (Sigma fun _ : GoString => ContractConfig) →
      List ContractConfig × Except VerifyFailure Unit
  | [] => ([], .ok ())
  | ⟨contractKey, contractConfig⟩ :: rest =>
    let next := n.verifyContract env orchestratorDID rest
    match n.verifyContractChain env contractConfig orchestratorDID contractKey with
    | .ok _ => (contractConfig :: next.1, next.2)
    | .error .panic => ([], .error .panic)
    | .error (.refused _) =>
      match verifyP2PContract env contractConfig contractKey with
      | .ok _ => (contractConfig :: next.1, next.2)
      | .error e => ([], .error (.refused
          ("contract verification failed for " ++ printed contractKey ++ ": " ++ e)))

def verifies (n : Bidder κ) (env : BidEnv κ) (orchestratorDID : DID)
    (e : Sigma fun _ : GoString => ContractConfig) : Bool :=
  match n.verifyContractChain env e.2 orchestratorDID e.1 with
  | .ok _ => true
  | .error .panic => false
  | .error (.refused _) => (verifyP2PContract env e.2 e.1).isOk

def bidAnswered (n : Bidder κ) (eid : GoString) (nonce : UInt64) : Bool :=
  nonce ∈ n.answeredBids.list eid

def storeBid (n : Bidder κ) (eid : GoString) (nonce : UInt64) (req : BidRequestV1 κ) : Bidder κ :=
  { n with
    bids := n.bids.insert eid (nonce, req)
    answeredBids := n.answeredBids.push eid nonce }

def hasExecutors (n : Bidder κ) (v : BidRequestV1 κ) : Bool := v.executors.all fun e =>
    match n.executors.lookup e with
    | none => false
    | some executionType =>
      !(executionType = ascii "docker" && v.privilegedDocker && !n.allowPrivilegedDocker)

def choose (n : Bidder κ) (env : BidEnv κ) (request : EnsembleBidRequest κ) :
    List (Option (BidRequestV1 κ)) → Option (BidRequestV1 κ)
  | [] => none
  | none :: rest => n.choose env request rest
  | some v :: rest =>
    if n.bidAnswered request.id request.nonce then none
    else if n.hostID ∈ request.peerExclusion then n.choose env request rest
    else if n.location.satisfies v.location = false then n.choose env request rest
    else if n.computeGateway then
      -- A gateway returns when no provider has a plan, and looks at no other entry.
      if env.foundServer v.resources then some v else none
    else if n.hasExecutors v = false then n.choose env request rest
    else if env.better v.resources then some v
    else n.choose env request rest

/-- `bid` as it is built and signed. -/
def bidFor (n : Bidder κ) (request : EnsembleBidRequest κ) (v : BidRequestV1 κ) : BidV1 :=
  ⟨request.id, v.nodeID, n.location, n.computeGateway⟩

def promises (n : Bidder κ) (env : BidEnv κ) (request : EnsembleBidRequest κ)
    (v : BidRequestV1 κ) : Bool :=
  (n.computeGateway || (env.checkAvailability v.staticPorts v.dynamicPorts v.resources).isOk) &&
    env.getProvider.isOk && (env.sign (n.bidFor request v)).isOk

/-- The handler from `GetMachineResources` on. -/
def answer (n : Bidder κ) (env : BidEnv κ) (shuffle : RangeOrder)
    (request : EnsembleBidRequest κ) (verified : List ContractConfig) : BidResult κ :=
  if env.machineResources.isOk = false then ⟨n, verified, .ignored⟩
  else
    match n.choose env request (shuffle.visit request.request) with
    | none => ⟨n, verified, .ignored⟩
    | some v =>
      if n.promises env request v then
        ⟨n.storeBid request.id request.nonce v, verified, .answered v (n.bidFor request v)⟩
      else ⟨n, verified, .ignored⟩

/-- Contracts are not required of the node itself. -/
def requiresContracts (n : Bidder κ) (msg : BidEnvelope κ) : Bool :=
  n.hostID ≠ msg.fromHost && n.requireContracts

def gate (n : Bidder κ) (env : BidEnv κ) (shuffle : RangeOrder) (msg : BidEnvelope κ)
    (request : EnsembleBidRequest κ) : BidResult κ :=
  match request.request with
  | [] => n.answer env shuffle request []
  -- `Request[0].V1.Contracts` is read without a look at `V1`.
  | none :: _ => ⟨n, [], .panic⟩
  | some first :: _ =>
    if first.contracts.entries = [] then
      if n.requiresContracts msg then ⟨n, [], .ignored⟩
      else n.answer env shuffle request []
    else
      match n.verifyContract env msg.fromDID (env.order.visit first.contracts.entries) with
      | (verified, .error .panic) => ⟨n, verified, .panic⟩
      | (verified, .error (.refused _)) => ⟨n, verified, .ignored⟩
      | (verified, .ok _) => n.answer env shuffle request verified

def receives (n : Bidder κ) (msg : BidEnvelope κ) : Bool :=
  n.readyForBids && !(msg.broadcast && n.hostID = msg.fromHost) && (n.computeGateway || n.onboarded)

def handleBidRequest (n : Bidder κ) (env : BidEnv κ) (shuffle : RangeOrder)
    (msg : BidEnvelope κ) : BidResult κ :=
  if n.receives msg = false then ⟨n, [], .ignored⟩
  else
    match msg.message with
    | .error _ => ⟨n, [], .ignored⟩
    | .ok request => n.gate env shuffle msg request

end Bidder

/-- The entry lists a contract, and lists only contracts that are among `verified`. -/
def BidRequestV1.ListsOnly (v : BidRequestV1 κ) (verified : List ContractConfig) : Prop :=
  v.contracts.entries ≠ [] ∧ ∀ e ∈ v.contracts.entries, e.2 ∈ verified

/-- The handler does not panic, and an entry that it answers lists a contract and lists only
contracts that were verified. -/
structure BidResult.Gated (r : BidResult κ) : Prop where
  noPanic : r.outcome ≠ .panic
  verified : ∀ v bid, r.outcome = .answered v bid → v.ListsOnly r.verified

theorem BidResult.gated_ignored (n : Bidder κ) (verified : List ContractConfig) :
    (⟨n, verified, .ignored⟩ : BidResult κ).Gated :=
  ⟨nofun, nofun⟩

namespace Bidder

variable (n : Bidder κ) (env : BidEnv κ)

/-- A response that says valid names both contracts. -/
def NamesBoth (o : DID) (e : Sigma fun _ : GoString => ContractConfig) : Prop :=
  ∀ resp, n.chainResponse env e.2 o e.1 = .ok resp → resp.valid = true →
    resp.orchestratorContract.isSome = true ∧ resp.providerContract.isSome = true

theorem verifyContractChain_panic_iff (o : DID) (e : Sigma fun _ : GoString => ContractConfig) :
    n.verifyContractChain env e.2 o e.1 = .error .panic ↔ ¬ n.NamesBoth env o e := by
  unfold verifyContractChain NamesBoth
  cases n.chainResponse env e.2 o e.1 with
  | error text => simp
  | ok resp =>
    obtain ⟨valid, organization, orchestratorContract, providerContract, error⟩ := resp
    cases valid <;> cases orchestratorContract <;> cases providerContract <;> simp

theorem verifyContract_cons (o : DID) (e : Sigma fun _ : GoString => ContractConfig)
    (rest : List (Sigma fun _ : GoString => ContractConfig)) : if n.verifies env o e then
      n.verifyContract env o (e :: rest) = (e.2 :: (n.verifyContract env o rest).1,
          (n.verifyContract env o rest).2)
    else ∃ failure, n.verifyContract env o (e :: rest) = ([], .error failure) ∧
      (failure = .panic ↔ ¬ n.NamesBoth env o e) := by
  rw [← verifyContractChain_panic_iff]
  unfold verifies
  cases hchain : n.verifyContractChain env e.2 o e.1 with
  | ok u => simp [verifyContract, hchain]
  | error failure =>
    cases failure with
    | panic => simp [verifyContract, hchain]
    | refused text =>
      cases hp2p : verifyP2PContract env e.2 e.1 with
      | ok u | error text => simp [verifyContract, hchain, hp2p, Except.isOk, Except.toBool]

/-- Every host that is asked, because the contracts before are verified, names both contracts. -/
def HostsNameBoth (o : DID) (es : List (Sigma fun _ : GoString => ContractConfig)) : Prop :=
  ∀ before e after, es = before ++ e :: after →
    (∀ e' ∈ before, n.verifies env o e' = true) → n.NamesBoth env o e

theorem hostsNameBoth_cons {o e es} : n.HostsNameBoth env o (e :: es) ↔
    n.NamesBoth env o e ∧ (n.verifies env o e = true → n.HostsNameBoth env o es) := by
  constructor
  · intro h
    refine ⟨h [] e es rfl (by simp), fun hverifies before e' after hsplit hbefore => ?_⟩
    exact h (e :: before) e' after (by rw [hsplit, cons_append])
      (forall_mem_cons.mpr ⟨hverifies, hbefore⟩)
  rintro ⟨hfirst, hrest⟩ before e' after hsplit hbefore
  cases before with
  | nil =>
    cases hsplit
    exact hfirst
  | cons b before =>
    obtain ⟨rfl, rfl⟩ := cons.inj hsplit
    exact hrest (hbefore e (.head _)) before e' after rfl fun b hb => hbefore b (.tail _ hb)

theorem verifyContract_panic_iff {o es} :
    (n.verifyContract env o es).2 = .error .panic ↔ ¬ n.HostsNameBoth env o es := by
  induction es with
  | nil => simp [verifyContract, HostsNameBoth]
  | cons e es ih =>
    have hcons := n.verifyContract_cons env o e es
    rw [hostsNameBoth_cons]
    by_cases hverifies : n.verifies env o e = true
    · rw [if_pos hverifies] at hcons
      have hboth : n.NamesBoth env o e := by
        by_contra hnot
        rw [← verifyContractChain_panic_iff] at hnot
        simp [verifies, hnot] at hverifies
      rw [hcons, ih]
      simp [hboth, hverifies]
    · rw [if_neg hverifies] at hcons
      obtain ⟨failure, hresult, hpanic⟩ := hcons
      simp [hresult, hpanic, hverifies]

theorem verifyContract_of_verifies {o es} (h : ∀ e ∈ es, n.verifies env o e = true) :
    n.verifyContract env o es = (es.map Sigma.snd, .ok ()) := by
  induction es with
  | nil => rfl
  | cons e rest ih =>
    have hcons := n.verifyContract_cons env o e rest
    rw [if_pos (h e (.head _))] at hcons
    rw [hcons, ih fun e he => h e (.tail _ he)]
    rfl

theorem verifies_of_verifyContract {o es} (h : (n.verifyContract env o es).2 = .ok ()) :
    ∀ e ∈ es, n.verifies env o e = true := by
  induction es with
  | nil => exact fun e he => absurd he not_mem_nil
  | cons e rest ih =>
    have hcons := n.verifyContract_cons env o e rest
    by_cases hv : n.verifies env o e = true
    · rw [if_pos hv] at hcons
      rw [hcons] at h
      exact forall_mem_cons.mpr ⟨hv, ih h⟩
    rw [if_neg hv] at hcons
    obtain ⟨failure, hfailure, -⟩ := hcons
    rw [hfailure] at h
    cases h

def serves (request : EnsembleBidRequest κ) (v : BidRequestV1 κ) : Bool :=
  !n.bidAnswered request.id request.nonce && n.hostID ∉ request.peerExclusion &&
    n.location.satisfies v.location &&
    if n.computeGateway then env.foundServer v.resources
    else n.hasExecutors v && env.better v.resources

variable {request : EnsembleBidRequest κ} {v : BidRequestV1 κ}

theorem choose_cons_of_serves
    (rest : List (Option (BidRequestV1 κ))) (h : n.serves env request v = true) :
    n.choose env request (some v :: rest) = some v := by
  unfold serves at h
  unfold choose
  split at h <;> simp_all

theorem choose_eq_some {es} (h : n.choose env request es = some v) :
    some v ∈ es ∧ n.serves env request v = true := by
  induction es with
  | nil => cases h
  | cons e rest ih =>
    -- Every branch of the loop stops, chooses the entry or goes on.
    have later h := (ih h).imp_left (Mem.tail e)
    cases e with
    | none => exact later h
    | some w =>
      unfold choose at h
      split at h
      · cases h
      split at h
      · exact later h
      split at h
      · exact later h
      split at h
      · split at h
        · cases h
          refine ⟨.head _, ?_⟩
          simp_all [serves]
        · cases h
      split at h
      · exact later h
      split at h
      · cases h
        refine ⟨.head _, ?_⟩
        simp_all [serves]
      · exact later h

structure MayAnswer (request : EnsembleBidRequest κ) (v : BidRequestV1 κ) : Prop where
  machine : env.machineResources.isOk = true
  listed : some v ∈ request.request
  served : n.serves env request v = true
  promised : n.promises env request v = true

theorem answer_gated_iff (request : EnsembleBidRequest κ) (verified : List ContractConfig) :
    (∀ sh, (n.answer env sh request verified).Gated) ↔
      ∀ v, n.MayAnswer env request v → v.ListsOnly verified := by
  constructor
  · intro hgated v hv
    obtain ⟨sh, rest, hfront⟩ := RangeOrder.exists_shuffle hv.listed
    have hchoose := n.choose_cons_of_serves env rest hv.served
    have hresult : n.answer env sh request verified =
        ⟨n.storeBid request.id request.nonce v, verified, .answered v (n.bidFor request v)⟩ := by
      unfold answer
      simp [hv.machine, hfront, hchoose, hv.promised]
    have hlists := (hgated sh).verified
    rw [hresult] at hlists
    exact hlists v _ rfl
  intro hcovers sh
  unfold answer
  split
  · exact BidResult.gated_ignored n verified
  rename_i hmachine
  split
  · exact BidResult.gated_ignored n verified
  rename_i v hchoose
  split
  · rename_i hpromised
    obtain ⟨hmem, hserved⟩ := n.choose_eq_some env hchoose
    have hlisted : some v ∈ request.request := sh.mem_visit.mp hmem
    refine ⟨nofun, fun w bid heq => ?_⟩
    cases heq
    exact hcovers v ⟨by simpa using hmachine, hlisted, hserved, hpromised⟩
  · exact BidResult.gated_ignored n verified

/-- No host says valid without naming the contracts, and when the contracts of the first entry are
verified every entry that the node may answer lists contracts, and only ones that it lists. -/
def SpeaksFor (msg : BidEnvelope κ) (request : EnsembleBidRequest κ) (first : BidRequestV1 κ) :
    Prop :=
  n.HostsNameBoth env msg.fromDID (env.order.visit first.contracts.entries) ∧
    ((∀ e ∈ first.contracts.entries, n.verifies env msg.fromDID e = true) →
      ∀ v, n.MayAnswer env request v → v.ListsOnly (first.contracts.entries.map Sigma.snd))

/-- The first entry has a body and speaks for the others, if it lists contracts. -/
def FirstSpeaks (msg : BidEnvelope κ) : Prop :=
  n.receives msg = true → ∀ request, msg.message = .ok request → request.request.head? ≠ some none ∧
      ∀ first, request.request.head? = some (some first) → first.contracts.entries ≠ [] →
        n.SpeaksFor env msg request first

theorem gate_verified_iff {msg first rest}
    (hrequest : request.request = some first :: rest) (hsome : first.contracts.entries ≠ []) :
    (∀ sh, (n.gate env sh msg request).Gated) ↔ n.SpeaksFor env msg request first := by
  have hgate (sh : RangeOrder) : n.gate env sh msg request =
      match n.verifyContract env msg.fromDID (env.order.visit first.contracts.entries) with
      | (verified, .error .panic) => ⟨n, verified, .panic⟩
      | (verified, .error (.refused _)) => ⟨n, verified, .ignored⟩
      | (verified, .ok _) => n.answer env sh request verified := by
    rw [gate, hrequest]
    exact if_neg hsome
  have hpanic : (n.verifyContract env msg.fromDID (env.order.visit first.contracts.entries)).2 =
      .error .panic ↔ _ := n.verifyContract_panic_iff env
  simp only [hgate]
  unfold SpeaksFor
  by_cases hall : ∀ e ∈ first.contracts.entries, n.verifies env msg.fromDID e = true
  · have hverified :=
      n.verifyContract_of_verifies env fun e he => hall e (env.order.mem_visit.mp he)
    rw [hverified] at hpanic ⊢
    rw [answer_gated_iff]
    simp only [BidRequestV1.ListsOnly, ((env.order.perm first.contracts.entries).map _).mem_iff]
    have hboth := not_not.mp (hpanic.not.mp nofun)
    exact ⟨fun h => ⟨hboth, fun _ => h⟩, fun h => h.2 hall⟩
  rw [and_iff_left fun h => absurd h hall, ← not_iff_not, ← hpanic]
  cases hresult : n.verifyContract env msg.fromDID (env.order.visit first.contracts.entries) with
  | mk verified r =>
    rcases r with (text | -) | u
    · refine iff_of_false (fun hnot => hnot fun sh => ?_) nofun
      exact BidResult.gated_ignored n verified
    · exact iff_of_true (fun hgated => (hgated .stored).noPanic rfl) rfl
    · have hok := n.verifies_of_verifyContract env (congrArg Prod.snd hresult)
      exact absurd (fun e he => hok e (env.order.mem_visit.mpr he)) hall

theorem gate_gated_iff {msg} (hrequires : n.requiresContracts msg = true)
    (request : EnsembleBidRequest κ) :
    (∀ sh, (n.gate env sh msg request).Gated) ↔ request.request.head? ≠ some none ∧
        ∀ first, request.request.head? = some (some first) → first.contracts.entries ≠ [] →
          n.SpeaksFor env msg request first := by
  rcases hrequest : request.request with _ | ⟨_ | first, rest⟩
  · have hanswer := n.answer_gated_iff env request []
    unfold gate
    rw [hrequest]
    refine iff_of_true (hanswer.mpr fun v hv => ?_) ⟨nofun, nofun⟩
    exact absurd (hrequest ▸ hv.listed) not_mem_nil
  · refine iff_of_false (fun hgated => ?_) fun h => h.1 rfl
    have hpanic := (hgated .stored).noPanic
    unfold gate at hpanic
    rw [hrequest] at hpanic
    exact hpanic rfl
  simp only [head?_cons, Option.some.injEq, forall_eq', ne_eq, reduceCtorEq,
    not_false_eq_true, true_and]
  by_cases hempty : first.contracts.entries = []
  · refine iff_of_true (fun sh => ?_) fun hne => absurd hempty hne
    rw [gate, hrequest]
    dsimp only
    rw [if_pos hempty, if_pos hrequires]
    exact BidResult.gated_ignored n []
  · rw [n.gate_verified_iff env hrequest hempty]
    exact ⟨fun h _ => h, fun h => h hempty⟩

end Bidder

def sampleConfig : ContractConfig := ⟨ascii "did:key:contract", ascii "did:key:host", [], []⟩

def sampleEntry (contracts : GoMap GoString ContractConfig) : BidRequestV1 Unit :=
  ⟨ascii "node", [], ⟨(), [], 0, 0⟩, ⟨[], []⟩, [], 0, false, contracts⟩

def contractedEntry : BidRequestV1 Unit :=
  sampleEntry ((∅ : GoMap GoString ContractConfig).insert (ascii "work") sampleConfig)

def sampleBidder : Bidder Unit :=
  ⟨ascii "provider", ⟨ascii "did:key:provider"⟩, true, true, false, true, false, ∅,
    ⟨[], [], [], 0, []⟩, ∅, ∅⟩

/-- The hosts say valid, and name their contracts or leave them out. -/
def sampleBidEnv (named : Bool) : BidEnv Unit where
  publicKeyFromDID did := .ok did.uri
  peerID pubKey := .ok pubKey
  handleFromPeerID _ := .ok ()
  handleFromPublicKey _ _ _ := .ok ()
  invokeChain _ _ := .ok (.ok ⟨true, [],
    if named then some (sampleAgreement "a" "organization" "orchestrator") else none,
    if named then some (sampleAgreement "b" "provider" "organization") else none, ""⟩)
  invokeValidation _ _ := .ok (.ok true)
  order := .stored
  machineResources := .ok ()
  better _ := true
  foundServer _ := false
  checkAvailability _ _ _ := .ok ()
  getProvider := .ok ()
  sign _ := .ok ()

def sampleBidMessage (entries : List (Option (BidRequestV1 Unit))) : BidEnvelope Unit :=
  ⟨ascii "orchestrator", ⟨ascii "did:key:orchestrator"⟩, true,
    .ok ⟨ascii "ensemble", entries, 1, []⟩⟩

end DMS.Node
