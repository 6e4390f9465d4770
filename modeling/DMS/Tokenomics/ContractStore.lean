import DMS.Tokenomics.Agreement

/-! # The contract store

`tokenomics/store/contract_store.go`. A document of the collection has the identifier of a
contract and the contract itself, encoded. `Upsert` is the only writer: it keeps one document
for each identifier.
-/

namespace DMS.Types

/-- `types.ContractConfig`: how an ensemble names a contract. -/
structure ContractConfig where
  did : GoString
  host : GoString
  provider : GoString
  requestor : GoString
deriving DecidableEq, Repr

end DMS.Types

namespace DMS.Tokenomics

open Did

/-- The error of data that cannot be decoded is its text. -/
structure ContractDoc where
  contractDID : GoString
  contractData : Except String Agreement

structure ContractStore where
  docs : List ContractDoc
  nodup : (docs.map (·.contractDID)).Nodup
  keyed : ∀ doc ∈ docs, ∀ a, doc.contractData = .ok a → a.contractDID = doc.contractDID

namespace ContractStore

variable (s : ContractStore)

/-- `GetContract`, with the answer of the database. -/
def getContract (find : Except String Unit) (contractDID : GoString) : Except String Agreement :=
  if contractDID = [] then .error "contractDID is empty"
  else
    match find with
    | .error text => .error ("failed to find contract by ID: " ++ text)
    | .ok _ =>
      match s.docs.find? (fun doc => doc.contractDID = contractDID) with
      | none => .error "failed to find contract by ID: %!w(<nil>)"
      | some doc => doc.contractData

def Matches (participant1 participant2 : DID) (a : Agreement) : Prop :=
  a.IsParty participant1 ∧ a.IsParty participant2 ∧ a.valid = true

instance (participant1 participant2 : DID) (a : Agreement) :
    Decidable (Matches participant1 participant2 a) :=
  inferInstanceAs (Decidable (_ ∧ _))

/-- The `matches` of `FindContractByParticipants`. Data that cannot be decoded is passed over. -/
def activeBetween (participant1 participant2 : DID) : List Agreement := s.docs.filterMap fun doc =>
    match doc.contractData with
    | .error _ => none
    | .ok a => if Matches participant1 participant2 a then some a else none

def findContractByParticipants (findAll : Except String Unit) (participant1 participant2 : DID) :
    Except String Agreement :=
  match findAll with
  | .error text => .error ("failed to retrieve contracts: " ++ text)
  | .ok _ =>
    match s.activeBetween participant1 participant2 with
    | [] => .error "no active contract found between participants"
    | [a] => .ok a
    | _ => .error
        "multiple active contracts found between participants (violates single contract rule)"

variable {s} {participant1 participant2 : DID} {a b : Agreement}

theorem mem_activeBetween : a ∈ s.activeBetween participant1 participant2 ↔
      (∃ doc ∈ s.docs, doc.contractData = .ok a) ∧ Matches participant1 participant2 a := by
  rw [activeBetween, List.mem_filterMap]
  constructor
  · rintro ⟨doc, hdoc, hdata⟩
    split at hdata
    · cases hdata
    rename_i c hcontract
    split at hdata
    · next hmatches =>
      cases hdata
      exact ⟨⟨doc, hdoc, hcontract⟩, hmatches⟩
    · cases hdata
  rintro ⟨⟨doc, hdoc, hcontract⟩, hmatches⟩
  refine ⟨doc, hdoc, ?_⟩
  rw [hcontract]
  exact if_pos hmatches

theorem getContract_eq_ok {find did} (h : s.getContract find did = .ok a) :
    ∃ doc ∈ s.docs, doc.contractData = .ok a ∧ doc.contractDID = did := by
  unfold getContract at h
  split at h
  · cases h
  cases find with
  | error text => cases h
  | ok _ =>
    dsimp only at h
    split at h
    · cases h
    · next doc hdoc =>
      exact ⟨doc, List.mem_of_find?_eq_some hdoc, h, by simpa using List.find?_some hdoc⟩

theorem findContractByParticipants_eq_ok {findAll} :
    s.findContractByParticipants findAll participant1 participant2 = .ok a ↔
      findAll = .ok () ∧ s.activeBetween participant1 participant2 = [a] := by
  unfold findContractByParticipants
  cases findAll with
  | error text => simp
  | ok _ =>
    dsimp only
    split
    · next hnone => simp [hnone]
    · next c hone => simp [hone]
    rename_i hnone hone
    simp only [reduceCtorEq, true_and, false_iff]
    exact hone a

theorem eq_of_contractDID (ha : ∃ doc ∈ s.docs, doc.contractData = .ok a)
    (hb : ∃ doc ∈ s.docs, doc.contractData = .ok b) (h : a.contractDID = b.contractDID) :
    a = b := by
  obtain ⟨doc, hdoc, hdata⟩ := ha
  obtain ⟨doc', hdoc', hdata'⟩ := hb
  have hkey : doc.contractDID = doc'.contractDID := by
    rw [← s.keyed doc hdoc a hdata, ← s.keyed doc' hdoc' b hdata', h]
  have hsame : doc = doc' := List.inj_on_of_nodup_map s.nodup hdoc hdoc' hkey
  rw [hsame, hdata'] at hdata
  cases hdata
  rfl

end ContractStore

end DMS.Tokenomics
