import DMS.Core.Snapshots
import DMS.Tokenomics.Lifecycle

/-! # Signatures from two sides

The goroutine of `createContractOnHost` in `dms/node/behaviors_contract.go` proposes a contract to
both parties, reads it again and stores it with their signatures. A party may also send a sign
request to the contract actor, which reads the contract and stores it some time later.
-/

namespace DMS.Tokenomics

open Did Agreement List

/-- `proposeContract`: the signatures of the replies, the provider's and then the requestor's.
A party that does not answer, or answers with an error, has none. -/
def proposeContract (provider requestor : Option Signature) : List Signature :=
  provider.toList ++ requestor.toList

/-- Who reads the stored contract to store it again: the handler of a message, and the goroutines
of `ContractActor.Start` and of `createContractOnHost` with the replies to its proposals. -/
inductive HostTask
  | message (m : HostMessage)
  | endDate
  | proposal (provider requestor : Option Signature)
deriving DecidableEq, Repr

/-- What a task meets when it is about to store: the clock, and whether the store saves. -/
structure StoreInputs where
  clock : GoTime
  host : DID
  saves : Bool
deriving DecidableEq, Repr

namespace Agreement

/-- The end of the goroutine of `createContractOnHost`. -/
def recordProposal (i : StoreInputs) (sigs : List Signature) (a : Agreement) : Agreement :=
  let signed := { a with signatures := sigs }
  if signed.signatures.length = 2 then signed.accept i.clock i.host else signed

end Agreement

namespace HostTask

def handle (i : StoreInputs) (a : Agreement) : HostTask → Handling
  | .message m => m.handle i.clock a
  | .endDate => if a.endDate < i.clock then .store a.expire else .reply
  | .proposal provider requestor => .store (a.recordProposal i (proposeContract provider requestor))

def signer : HostTask → List DID
  | .message (.sign sender _) => [sender]
  | _ => []

def effect (i : StoreInputs) (t : HostTask) (a : Agreement) : Option (Agreement × List DID) :=
  match t.handle i a with
  | .store b => if i.saves then some (b, t.signer) else none
  | .refuse _ | .reply | .panic => none

def Stores (i : StoreInputs) (a : Agreement) : HostTask → Prop
  | .message (.sign sender _) => sender ∉ a.signers ∧ a.IsParty sender
  | .message (.terminate _) => a.terminationOption = some true
  | .message (.complete _) => True
  | .message (.settle _) => True
  | .message .validatePayment => True
  | .message .status => False
  | .message .validate => False
  | .endDate => a.endDate < i.clock
  | .proposal _ _ => True

end HostTask

namespace Agreement

def BothSigned (a : Agreement) : Prop :=
  a.participants.provider ∈ a.signers ∧ a.participants.requestor ∈ a.signers

instance (a : Agreement) : Decidable a.BothSigned := inferInstanceAs (Decidable (_ ∧ _))

def Backed (a : Agreement) : Prop := a.currentState = .accepted → a.BothSigned

instance (a : Agreement) : Decidable a.Backed := inferInstanceAs (Decidable (_ → _))

variable {a : Agreement}

theorem both_iff {pr requestor snd other : DID} (hne : other ≠ snd)
    (hparty : pr = snd ∨ requestor = snd) :
    (pr = other ∨ pr = snd) ∧ (requestor = other ∨ requestor = snd) ↔
      (pr = other ∨ requestor = other) ∨ pr = requestor := by
  rcases hparty with rfl | rfl
  · constructor
    · rintro ⟨-, hrequestor | hrequestor⟩
      · exact .inl (.inr hrequestor)
      · exact .inr hrequestor.symm
    rintro ((hprovider | hrequestor) | hsame)
    · exact absurd hprovider.symm hne
    · exact ⟨.inr rfl, .inl hrequestor⟩
    · exact ⟨.inr rfl, .inr hsame.symm⟩
  constructor
  · rintro ⟨hprovider | hprovider, -⟩
    · exact .inl (.inl hprovider)
    · exact .inr hprovider
  rintro ((hprovider | hrequestor) | hsame)
  · exact ⟨.inl hprovider, .inr rfl⟩
  · exact absurd hrequestor.symm hne
  · exact ⟨.inr hsame, .inr rfl⟩

theorem addSignature_backed_iff (h : a.Backed) {snd} (hsigned : snd ∉ a.signers)
    (hparty : a.IsParty snd) (clock : GoTime) (sig : GoString) :
    (a.addSignature clock ⟨snd, sig⟩).Backed ↔ ∀ other, a.signatures = [other] →
        a.IsParty other.did ∨ a.participants.provider = a.participants.requestor := by
  by_cases hone : a.signatures.length = 1
  · obtain ⟨other, hother⟩ := length_eq_one_iff.mp hone
    have hne : other.did ≠ snd := by
      rintro rfl
      exact hsigned (by simp [signers, hother])
    rw [addSignature_of_eq hone]
    simp only [Backed, BothSigned, accept, signers, hother, cons_append, nil_append,
      map_cons, map_nil, mem_cons, not_mem_nil, or_false, forall_const,
      cons.injEq, and_true, forall_eq', IsParty]
    exact both_iff hne hparty
  rw [addSignature_of_ne hone]
  have hguard : ∀ other, a.signatures = [other] →
      a.IsParty other.did ∨ a.participants.provider = a.participants.requestor :=
    fun other hother => absurd (by rw [hother]; rfl) hone
  refine ⟨fun _ => hguard, fun _ hstate => ?_⟩
  obtain ⟨hprovider, hrequestor⟩ := h hstate
  simp only [BothSigned, signers, map_append, mem_append]
  exact ⟨.inl hprovider, .inl hrequestor⟩

theorem recordProposal_backed_iff (i : StoreInputs) (sigs : List Signature) :
    (a.recordProposal i sigs).Backed ↔ (a.currentState = .accepted ∨ sigs.length = 2 →
        a.participants.provider ∈ sigs.map (·.did) ∧
          a.participants.requestor ∈ sigs.map (·.did)) := by
  unfold recordProposal
  dsimp only
  split
  · next hboth => simp [Backed, BothSigned, accept, signers, hboth]
  · next hboth => simp [Backed, BothSigned, signers, hboth]

end Agreement

theorem length_proposeContract {pr requestor} :
    (proposeContract pr requestor).length = 2 ↔ pr.isSome ∧ requestor.isSome := by
  cases pr <;> cases requestor <;> simp [proposeContract]

namespace HostTask

variable {i : StoreInputs} {t : HostTask} {a b : Agreement} {outs : List DID}

theorem effect_eq_some :
    t.effect i a = some (b, outs) ↔ i.saves ∧ t.handle i a = .store b ∧ t.signer = outs := by
  unfold effect
  cases t.handle i a with
  | store c =>
    cases i.saves <;> simp
  | refuse text | reply | panic => simp

/-- When both parties answered, or the contract had been accepted before, the replies name both
parties. A party that signs next to one signature finds that of a party. -/
def Attributed (i : StoreInputs) (t : HostTask) (a : Agreement) (_ : List DID) : Prop := i.saves →
    match t with
    | .message (.sign sender _) =>
      sender ∉ a.signers → a.IsParty sender → ∀ other, a.signatures = [other] →
        a.IsParty other.did ∨ a.participants.provider = a.participants.requestor
    | .proposal provider requestor =>
      a.currentState = .accepted ∨ provider.isSome ∧ requestor.isSome →
        a.participants.provider ∈ (proposeContract provider requestor).map (·.did) ∧
          a.participants.requestor ∈ (proposeContract provider requestor).map (·.did)
    | _ => True

theorem backed_of_ne (h : a.currentState ≠ .accepted) : a.Backed := fun hstate => absurd hstate h

theorem attributed_iff (h : a.Backed) (answered : List DID) :
    t.Attributed i a answered ↔ ∀ b outs, t.effect i a = some (b, outs) → b.Backed := by
  have hstored : (∀ b outs, t.effect i a = some (b, outs) → b.Backed) ↔
      (i.saves → ∀ b, t.handle i a = .store b → b.Backed) := by
    simp only [effect_eq_some]
    exact ⟨fun hall hsaves b hb => hall b _ ⟨hsaves, hb, rfl⟩,
      fun hall b outs hb => hall hb.1 b hb.2.1⟩
  rw [hstored]
  refine imp_congr_right fun _ => ?_
  cases t with
  | message m =>
    cases m with
    | sign snd sig =>
      simp only [handle, HostMessage.handle, sign_eq_store]
      constructor
      · rintro hguard b ⟨hsigned, hparty, rfl⟩
        exact (addSignature_backed_iff h hsigned hparty _ _).mpr (hguard hsigned hparty)
      · intro hall hsigned hparty
        exact (addSignature_backed_iff h hsigned hparty _ _).mp (hall _ ⟨hsigned, hparty, rfl⟩)
    | terminate snd =>
      simp only [handle, HostMessage.handle, termination_eq_store, true_iff]
      rintro b ⟨-, rfl⟩
      exact backed_of_ne (by simp [enter])
    | complete snd | settle snd =>
      refine ⟨fun _ b hb => ?_, fun _ => trivial⟩
      cases hb
      exact backed_of_ne (by simp [enter])
    | validatePayment =>
      refine ⟨fun _ b hb => ?_, fun _ => trivial⟩
      cases hb
      exact h
    | status | validate => exact ⟨fun _ b hb => (by cases hb), fun _ => trivial⟩
  | endDate =>
    refine ⟨fun _ b hb => ?_, fun _ => trivial⟩
    simp only [handle] at hb
    split at hb
    · cases hb
      exact backed_of_ne (by simp [expire])
    · cases hb
  | proposal pr requestor =>
    simp [handle, Handling.store.injEq, forall_eq', recordProposal_backed_iff,
      length_proposeContract]

end HostTask

/-- From a fresh contract, an accepted contract is signed by both parties in every state of a
run if and only if every task that finishes is attributed. -/
theorem accepted_signed_iff (contractDID : GoString) (participants : ContractParticipants)
    (terminationOption : Option Bool) (endDate : GoTime)
    (turns : List (SharedStep HostTask StoreInputs)) :
    (∀ past, past <+: turns → (past.foldl (Shared.step HostTask.effect)
          (.start (.new contractDID participants terminationOption endDate))).stored.Backed) ↔
      Reach.Passes (Shared.Permits HostTask.Attributed) (Shared.step HostTask.effect)
        (.start (.new contractDID participants terminationOption endDate)) turns := by
  refine Shared.good_iff_permits Agreement.Backed (fun a _ => a.Backed) (fun h => by cases h)
    (fun _ _ h => h) ?_ turns
  intro i t a answered h
  exact HostTask.attributed_iff h answered

def borrowedName : List (SharedStep HostTask StoreInputs) :=
  [.begin (.proposal (some ⟨Lifetime.sampleParties.provider, ascii "p"⟩)
      (some ⟨Lifetime.sampleParties.provider, ascii "p"⟩)),
    .finish 0 ⟨GoTime.unixTime 1 0, .zero, true⟩]

/-- The contract is accepted although its requestor has not signed it. -/
theorem accepted_without_requestor : (borrowedName.foldl (Shared.step HostTask.effect)
        (.start Lifetime.sampleLifetime.stored)).stored.currentState = .accepted ∧
      ¬ (borrowedName.foldl (Shared.step HostTask.effect)
        (.start Lifetime.sampleLifetime.stored)).stored.Backed := by
  decide

namespace HostTask

variable {i : StoreInputs} {t : HostTask} {a b : Agreement}

def entries (a : Agreement) : HostTask → List DID
  | .proposal provider requestor => (proposeContract provider requestor).map (·.did)
  | t => a.signers ++ t.signer

theorem signers_of_store (h : t.handle i a = .store b) : b.signers = t.entries a := by
  cases t with
  | message m =>
    cases m with
    | sign snd sig =>
      obtain ⟨-, -, rfl⟩ := sign_eq_store.mp h
      unfold Agreement.addSignature
      dsimp only
      split <;> simp [signers, accept, entries, signer]
    | terminate snd =>
      obtain ⟨-, rfl⟩ := termination_eq_store.mp h
      exact (append_nil _).symm
    | complete snd | settle snd | validatePayment =>
      cases h
      exact (append_nil _).symm
    | status | validate => cases h
  | endDate =>
    simp only [handle] at h
    split at h
    · cases h
      exact (append_nil _).symm
    · cases h
  | proposal pr requestor =>
    cases h
    unfold Agreement.recordProposal
    dsimp only
    split <;> rfl

attribute [local simp] HostMessage.handle

theorem stores_iff : t.Stores i a ↔ ∃ b, t.handle i a = .store b := by
  cases t with
  | message m =>
    cases m with
    | sign snd sig =>
      simp [Stores, handle, sign_eq_store]
    | terminate snd =>
      simp [Stores, handle, termination_eq_store]
    | complete snd | settle snd | validatePayment =>
      exact ⟨fun _ => ⟨_, rfl⟩, fun _ => trivial⟩
    | status | validate => simp [Stores, handle]
  | endDate =>
    simp only [Stores, handle]
    split <;> simp [*]
  | proposal pr requestor => exact ⟨fun _ => ⟨_, rfl⟩, fun _ => trivial⟩

def Informed (i : StoreInputs) (t : HostTask) (a : Agreement) (answered : List DID) : Prop :=
  i.saves → t.Stores i a → ∀ did ∈ answered, did ∈ t.entries a

theorem signer_subset (a : Agreement) : ∀ did ∈ t.signer, did ∈ t.entries a := by
  intro did hdid
  cases t with
  | message m => exact mem_append.mpr (.inr hdid)
  | endDate | proposal pr requestor => cases hdid

theorem informed_iff (answered : List DID) : t.Informed i a answered ↔
      ∀ b outs, t.effect i a = some (b, outs) → ∀ did ∈ answered ++ outs, did ∈ b.signers := by
  constructor
  · intro hguard b outs heffect did hdid
    obtain ⟨hsaves, hstore, rfl⟩ := effect_eq_some.mp heffect
    rw [signers_of_store hstore]
    rcases mem_append.mp hdid with hanswered | hsigner
    · exact hguard hsaves (stores_iff.mpr ⟨b, hstore⟩) did hanswered
    · exact signer_subset a did hsigner
  intro hall hsaves hstores did hdid
  obtain ⟨b, hstore⟩ := stores_iff.mp hstores
  rw [← signers_of_store hstore]
  exact hall b _ (effect_eq_some.mpr ⟨hsaves, hstore, rfl⟩) did (mem_append.mpr (.inl hdid))

end HostTask

/-- From a fresh contract, every party whose sign request was answered with success has an
entry in every later state of a run if and only if every task that finishes is informed. -/
theorem signatures_kept_iff (contractDID : GoString) (participants : ContractParticipants)
    (terminationOption : Option Bool) (endDate : GoTime)
    (turns : List (SharedStep HostTask StoreInputs)) :
    (∀ past, past <+: turns → ∀ did ∈ (past.foldl (Shared.step HostTask.effect)
            (.start (.new contractDID participants terminationOption endDate))).outputs,
          did ∈ (past.foldl (Shared.step HostTask.effect)
            (.start (.new contractDID participants terminationOption endDate))).stored.signers) ↔
      Reach.Passes (Shared.Permits HostTask.Informed) (Shared.step HostTask.effect)
        (.start (.new contractDID participants terminationOption endDate)) turns := by
  refine Shared.good_iff_permits (fun _ => True)
    (fun (a : Agreement) answered => ∀ did ∈ answered, did ∈ a.signers)
    (fun _ hdid => absurd hdid not_mem_nil) (fun _ _ _ => trivial) ?_ turns
  intro i t a answered _
  exact HostTask.informed_iff answered

/-- The provider's sign request is handled after the goroutine has read the contract again and
before it stores it. Only the requestor has answered the proposals. -/
def overwrittenSignature : List (SharedStep HostTask StoreInputs) :=
  [.begin (.proposal none (some ⟨Lifetime.sampleParties.requestor, ascii "r"⟩)),
    .begin (.message (.sign Lifetime.sampleParties.provider (ascii "p"))),
    .finish 1 ⟨GoTime.unixTime 1 0, .zero, true⟩,
    .finish 0 ⟨GoTime.unixTime 2 0, .zero, true⟩]

/-- The provider was answered with success, and the stored contract has no entry of it. -/
theorem answered_signature_lost : (overwrittenSignature.foldl (Shared.step HostTask.effect)
        (.start Lifetime.sampleLifetime.stored)).outputs = [Lifetime.sampleParties.provider] ∧
      (overwrittenSignature.foldl (Shared.step HostTask.effect)
        (.start Lifetime.sampleLifetime.stored)).stored.signers =
          [Lifetime.sampleParties.requestor] ∧
      Lifetime.sampleParties.provider ≠ Lifetime.sampleParties.requestor := by
  decide

end DMS.Tokenomics
