import DMS.Tokenomics.ContractStore

/-! # Verification of contract chains

`handleContractChainVerification` of `dms/node/behaviors_contract.go`. A provider asks the
contract host whether it may work for an orchestrator: contract A between the orchestrator and
an organization, and contract B between the organization and the provider.
-/

namespace DMS.Node

open Did Tokenomics ContractStore

structure ContractChainVerificationRequest where
  contractDID : GoString
  orchestratorDID : GoString
  providerDID : GoString
deriving DecidableEq, Repr

structure ContractChainVerificationResponse where
  valid : Bool
  organizationDID : GoString
  orchestratorContract : Option Agreement
  providerContract : Option Agreement
  error : String
deriving DecidableEq, Repr

/-- What the handler meets: the decoded request, and whether the database answers. -/
structure ChainEnv where
  request : Except String ContractChainVerificationRequest
  find : Except String Unit
  findAll : Except String Unit

namespace ContractChainVerificationResponse

def refuse (error : String) : ContractChainVerificationResponse := ⟨false, [], none, none, error⟩

end ContractChainVerificationResponse

open ContractChainVerificationResponse

def stateText : ContractState → String
  | .draft => "DRAFT"
  | .proposed => "PROPOSED"
  | .accepted => "ACCEPTED"
  | .active => "ACTIVE"
  | .paused => "PAUSED"
  | .updated => "UPDATED"
  | .terminated => "TERMINATED"
  | .completed => "COMPLETED"
  | .settled => "SETTLED"

def verifyChain (env : ChainEnv) (store : ContractStore) (req : ContractChainVerificationRequest)
    (providerDID orchestratorDID : DID) : ContractChainVerificationResponse :=
  match store.getContract env.find req.contractDID with
  | .error e => refuse ("contract A not found: " ++ e)
  | .ok contractA =>
    if contractA.participants.requestor.uri ≠ orchestratorDID.uri ∧
        contractA.participants.provider.uri = req.providerDID then
      refuse "contract A participants do not match orchestrator and organization"
    else if contractA.valid = false then
      refuse ("contract A is not in active state: " ++ stateText contractA.currentState)
    else
      match store.findContractByParticipants env.findAll contractA.participants.provider
          providerDID with
      | .error e =>
        refuse ("no active contract found between organization and provider: " ++ e)
      | .ok contractB =>
        if contractA.valid = false ∨ contractB.valid = false then
          refuse ("contract chain invalid: Contract A state=" ++
            stateText contractA.currentState ++ ", Contract B state=" ++
            stateText contractB.currentState)
        else
          ⟨true, contractA.participants.provider.uri, some contractA, some contractB, ""⟩

def handleContractChainVerification (env : ChainEnv) (store : ContractStore) (sender : DID) :
    ContractChainVerificationResponse :=
  match env.request with
  | .error e => refuse ("failed to unmarshal request: " ++ e)
  | .ok req =>
    match DID.fromString req.providerDID with
    | .error e => refuse ("invalid provider DID: " ++ e)
    | .ok providerDID =>
      if sender ≠ providerDID then
        refuse ("caller DID (" ++ printed sender.uri ++
          ") does not match ProviderDID in request (" ++ printed req.providerDID ++ ")")
      else
        match DID.fromString req.orchestratorDID with
        | .error e => refuse ("invalid orchestrator DID: " ++ e)
        | .ok orchestratorDID => verifyChain env store req providerDID orchestratorDID

def Stored (store : ContractStore) (a : Agreement) : Prop :=
  ∃ doc ∈ store.docs, doc.contractData = .ok a

def Between (a : Agreement) (one other : DID) : Prop :=
  a.participants = ⟨one, other⟩ ∨ a.participants = ⟨other, one⟩

structure ChainHolds (store : ContractStore) (sender : DID)
    (req : ContractChainVerificationRequest) : Prop where
  caller : sender.uri = req.providerDID
  chain : ∃ contractA, Stored store contractA ∧ contractA.contractDID = req.contractDID ∧
    contractA.valid = true ∧ contractA.participants.requestor.uri = req.orchestratorDID ∧
    ∃ contractB, Stored store contractB ∧ contractB.valid = true ∧
      contractB.contractDID ≠ contractA.contractDID ∧
      Between contractB contractA.participants.provider sender

/-- The request gets as far as the contracts: it can be read, comes from the provider it names,
and names a stored contract that is active. -/
structure Reaches (env : ChainEnv) (store : ContractStore) (sender : DID)
    (req : ContractChainVerificationRequest) (contractA : Agreement) : Prop where
  request : env.request = .ok req
  provider : DID.fromString req.providerDID = .ok sender
  orchestrator : (DID.fromString req.orchestratorDID).isOk = true
  found : store.getContract env.find req.contractDID = .ok contractA
  active : contractA.valid = true

def ChainStraight (env : ChainEnv) (store : ContractStore) (sender : DID) : Prop :=
  ∀ req contractA, Reaches env store sender req contractA → env.findAll = .ok () →
    (store.activeBetween contractA.participants.provider sender).length = 1 →
      contractA.participants.requestor.uri = req.orchestratorDID ∧ ¬ contractA.IsParty sender ∨
        contractA.participants.requestor.uri ≠ req.orchestratorDID ∧
          contractA.participants.provider = sender

variable {env : ChainEnv} {store : ContractStore} {sender : DID}
  {req : ContractChainVerificationRequest} {contractA contractB : Agreement}

theorem verifyChain_valid {providerDID o} : (verifyChain env store req providerDID o).valid = true ↔
      ∃ contractA, store.getContract env.find req.contractDID = .ok contractA ∧
        contractA.valid = true ∧ ¬ (contractA.participants.requestor.uri ≠ o.uri ∧
          contractA.participants.provider.uri = req.providerDID) ∧ env.findAll = .ok () ∧
        (store.activeBetween contractA.participants.provider providerDID).length = 1 := by
  unfold verifyChain
  cases hfound : store.getContract env.find req.contractDID with
  | error e => simp [refuse]
  | ok contractA =>
    simp only [Except.ok.injEq, exists_eq_left']
    split
    · next hparties => simp [refuse, hparties]
    rename_i hparties
    split
    · next hinactive => simp [refuse, hinactive]
    rename_i hactive
    rw [List.length_eq_one_iff]
    cases hfind : store.findContractByParticipants env.findAll
        contractA.participants.provider providerDID with
    | error e =>
      simp only [refuse, Bool.false_eq_true, false_iff]
      rintro ⟨-, -, hanswers, contractB, hone⟩
      rw [findContractByParticipants_eq_ok.mpr ⟨hanswers, hone⟩] at hfind
      cases hfind
    | ok contractB =>
      obtain ⟨hanswers, hone⟩ := findContractByParticipants_eq_ok.mp hfind
      have hmem : contractB ∈ store.activeBetween contractA.participants.provider
          providerDID := by
        rw [hone]
        exact List.mem_singleton.mpr rfl
      have hvalid := (mem_activeBetween.mp hmem).2.2.2
      simp [hactive, hvalid, hparties, hanswers, hone]

theorem verifyChain_of_parsed {o} (hprovider : DID.fromString req.providerDID = .ok sender)
    (horchestrator : DID.fromString req.orchestratorDID = .ok o) :
    (verifyChain env store req sender o).valid = true ↔
      ∃ contractA, store.getContract env.find req.contractDID = .ok contractA ∧
        contractA.valid = true ∧ ¬ (contractA.participants.requestor.uri ≠ req.orchestratorDID ∧
          contractA.participants.provider = sender) ∧ env.findAll = .ok () ∧
        (store.activeBetween contractA.participants.provider sender).length = 1 := by
  have hcaller : ∀ did, did.uri = req.providerDID ↔ did = sender := by
    intro did
    rw [← DID.fromString_eq_ok hprovider]
    exact ⟨fun huri => by cases did; cases sender; cases huri; rfl, fun h => h ▸ rfl⟩
  simp [verifyChain_valid, DID.fromString_eq_ok horchestrator, hcaller]

theorem handle_valid : (handleContractChainVerification env store sender).valid = true ↔
      ∃ req contractA, Reaches env store sender req contractA ∧
        ¬ (contractA.participants.requestor.uri ≠ req.orchestratorDID ∧
          contractA.participants.provider = sender) ∧ env.findAll = .ok () ∧
        (store.activeBetween contractA.participants.provider sender).length = 1 := by
  constructor
  · intro hvalid
    unfold handleContractChainVerification at hvalid
    split at hvalid
    · cases hvalid
    rename_i req hrequest
    split at hvalid
    · cases hvalid
    rename_i providerDID hprovider
    split at hvalid
    · cases hvalid
    rename_i hsender
    obtain rfl := not_not.mp hsender
    split at hvalid
    · cases hvalid
    rename_i o horchestrator
    obtain ⟨contractA, hfound, hactive, hrest⟩ :=
      (verifyChain_of_parsed hprovider horchestrator).mp hvalid
    exact ⟨req, contractA,
      ⟨hrequest, hprovider, by rw [horchestrator]; rfl, hfound, hactive⟩, hrest⟩
  rintro ⟨req, contractA, ⟨hrequest, hprovider, horchestrator, hfound, hactive⟩, hrest⟩
  cases hparsed : DID.fromString req.orchestratorDID with
  | error e =>
    rw [hparsed] at horchestrator
    cases horchestrator
  | ok o =>
    rw [handleContractChainVerification, hrequest]
    dsimp only
    rw [hprovider]
    dsimp only
    rw [if_neg (not_not.mpr rfl), hparsed]
    exact (verifyChain_of_parsed hprovider hparsed).mpr ⟨contractA, hfound, hactive, hrest⟩

theorem Reaches.stored (h : Reaches env store sender req contractA) :
    Stored store contractA ∧ contractA.contractDID = req.contractDID := by
  obtain ⟨doc, hdoc, hdata, hkey⟩ := getContract_eq_ok h.found
  exact ⟨⟨doc, hdoc, hdata⟩, (store.keyed doc hdoc contractA hdata).trans hkey⟩

theorem between_of_isParty {a : Agreement} {one other} (hone : a.IsParty one)
    (hother : a.IsParty other) (hne : one ≠ other) : Between a one other := by
  rcases hone with rfl | rfl <;> rcases hother with rfl | rfl
  · exact absurd rfl hne
  · exact .inl rfl
  · exact .inr rfl
  · exact absurd rfl hne

theorem isParty_of_between {a one other} (h : Between a one other) :
    a.IsParty one ∧ a.IsParty other := by
  rcases h with h | h
  · exact ⟨.inl (by rw [h]), .inr (by rw [h])⟩
  · exact ⟨.inr (by rw [h]), .inl (by rw [h])⟩

theorem chainHolds_of_notParty (h : Reaches env store sender req contractA)
    (hone : (store.activeBetween contractA.participants.provider sender).length = 1)
    (hrequestor : contractA.participants.requestor.uri = req.orchestratorDID)
    (hparty : ¬ contractA.IsParty sender) : ChainHolds store sender req := by
  obtain ⟨contractB, hcontractB⟩ := List.length_eq_one_iff.mp hone
  have hmem : contractB ∈ store.activeBetween contractA.participants.provider sender := by
    rw [hcontractB]
    exact List.mem_singleton.mpr rfl
  obtain ⟨hstored, horganization, hsender, hactive⟩ := mem_activeBetween.mp hmem
  refine ⟨DID.fromString_eq_ok h.provider, contractA, h.stored.1, h.stored.2, h.active,
    hrequestor, contractB, hstored, hactive, ?_, ?_⟩
  · intro hsame
    rw [eq_of_contractDID hstored h.stored.1 hsame] at hsender
    exact hparty hsender
  · exact between_of_isParty horganization hsender fun hprovider => hparty (.inl hprovider)

/-- A chain that holds is the condition: the contract that is found is not contract A, which
the search would find if the caller were a party of it. -/
theorem notParty_of_chainHolds (h : Reaches env store sender req contractA)
    (hone : (store.activeBetween contractA.participants.provider sender).length = 1)
    (hchain : ChainHolds store sender req) :
    contractA.participants.requestor.uri = req.orchestratorDID ∧ ¬ contractA.IsParty sender := by
  obtain ⟨contract, hstored, hname, -, hrequestor, contractB, hstoredB, hactiveB, hne, hbetween⟩ :=
    hchain.chain
  obtain rfl : contract = contractA :=
    eq_of_contractDID hstored h.stored.1 (hname.trans h.stored.2.symm)
  refine ⟨hrequestor, fun hparty => hne ?_⟩
  obtain ⟨found, hfound⟩ := List.length_eq_one_iff.mp hone
  have hmemA := mem_activeBetween.mpr ⟨h.stored.1, .inl rfl, hparty, h.active⟩
  have hmemB := mem_activeBetween.mpr ⟨hstoredB, (isParty_of_between hbetween).1,
    (isParty_of_between hbetween).2, hactiveB⟩
  rw [hfound, List.mem_singleton] at hmemA hmemB
  rw [hmemA, hmemB]

/-- A valid reply shows the chain if and only if contract A is straight. -/
theorem chain_verified_iff (env : ChainEnv) (store : ContractStore) (sender : DID) :
    ((handleContractChainVerification env store sender).valid = true →
        ∃ req, env.request = .ok req ∧ ChainHolds store sender req) ↔
      ChainStraight env store sender := by
  constructor
  · intro hsound req contractA hreaches hanswers hone
    by_cases hrefused : contractA.participants.requestor.uri ≠ req.orchestratorDID ∧
        contractA.participants.provider = sender
    · exact .inr hrefused
    obtain ⟨req', hrequest, hchain⟩ :=
      hsound (handle_valid.mpr ⟨req, contractA, hreaches, hrefused, hanswers, hone⟩)
    cases hreaches.request.symm.trans hrequest
    exact .inl (notParty_of_chainHolds hreaches hone hchain)
  intro hstraight hvalid
  obtain ⟨req, contractA, hreaches, hpassed, hanswers, hone⟩ := handle_valid.mp hvalid
  refine ⟨req, hreaches.request, ?_⟩
  rcases hstraight req contractA hreaches hanswers hone with hgood | hrefused
  · exact chainHolds_of_notParty hreaches hone hgood.1 hgood.2
  · exact absurd hrefused hpassed

def sampleDid (name : String) : DID := ⟨ascii ("did:key:" ++ name)⟩

def sampleAgreement (name provider requestor : String) : Agreement :=
  { Agreement.new (sampleDid name).uri ⟨sampleDid provider, sampleDid requestor⟩ none
      (GoTime.unixTime 100 0) with currentState := .accepted }

def sampleContracts : ContractStore where
  docs := [⟨(sampleDid "a").uri, .ok (sampleAgreement "a" "organization" "orchestrator")⟩,
      ⟨(sampleDid "b").uri, .ok (sampleAgreement "b" "provider" "organization")⟩]
  nodup := by decide
  keyed := by
    intro doc hdoc a ha
    rcases List.mem_cons.mp hdoc with rfl | hdoc
    · cases ha
      rfl
    cases List.mem_singleton.mp hdoc
    cases ha
    rfl

def sampleChainRequest (orchestrator : String) : ContractChainVerificationRequest :=
  ⟨(sampleDid "a").uri, (sampleDid orchestrator).uri, (sampleDid "provider").uri⟩

def sampleChainEnv (orchestrator : String) : ChainEnv :=
  ⟨.ok (sampleChainRequest orchestrator), .ok (), .ok ()⟩

/-- The provider asks for another orchestrator. Contract A, which is not that orchestrator's,
is answered to be valid. -/
theorem stranger_chain_valid :
    (handleContractChainVerification (sampleChainEnv "stranger") sampleContracts
        (sampleDid "provider")).valid = true ∧
      ¬ ∃ req, (sampleChainEnv "stranger").request = .ok req ∧
        ChainHolds sampleContracts (sampleDid "provider") req := by
  refine ⟨by decide, ?_⟩
  rintro ⟨req, ⟨⟩, hchain⟩
  have hreaches : Reaches (sampleChainEnv "stranger") sampleContracts (sampleDid "provider")
      (sampleChainRequest "stranger") (sampleAgreement "a" "organization" "orchestrator") :=
    ⟨rfl, rfl, rfl, rfl, rfl⟩
  have hrequestor := (notParty_of_chainHolds hreaches (by decide) hchain).1
  exact absurd hrequestor (by decide)

end DMS.Node
