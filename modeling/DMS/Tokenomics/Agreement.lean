import DMS.Did.Identity
import DMS.Tokenomics.ContractHost

/-! # The agreement of the parties

The handlers of `tokenomics/contract_host.go` that change a stored contract. A handler reads
the contract, and either refuses the message or stores the contract with its change. Of the
contract this module has the parties, their signatures and the state.
-/

namespace DMS.Tokenomics

open Did

structure ContractParticipants where
  provider : DID
  requestor : DID
deriving DecidableEq, Repr

structure Signature where
  did : DID
  signatures : GoString
deriving DecidableEq, Repr

inductive ContractEvent
  | propose
  | accepted
  | activate
  | dispute
  | update
  | terminate
  | complete
  | settle
deriving DecidableEq, Repr

/-- `StateTransition` with all its fields. The empty text, which names no state, is `none`. -/
structure Transition extends StateTransition where
  fromState : Option ContractState
  event : ContractEvent
  initiatedBy : DID
deriving DecidableEq, Repr

structure Agreement where
  contractDID : GoString
  participants : ContractParticipants
  /-- `Allowed` of the termination option, when the contract has one. -/
  terminationOption : Option Bool
  endDate : GoTime
  paid : Bool
  signatures : List Signature
  currentState : ContractState
  transitions : List Transition
deriving DecidableEq, Repr

/-- How a handler ends: with a contract for the store, with an error, with a plain reply, or
not at all. -/
inductive Handling
  | store (a : Agreement)
  | refuse (text : String)
  | reply
  | panic

namespace Agreement

variable (a : Agreement)

/-- `NewContract` -/
def new (contractDID : GoString) (participants : ContractParticipants)
    (terminationOption : Option Bool) (endDate : GoTime) : Agreement :=
  ⟨contractDID, participants, terminationOption, endDate, false, [], .draft, []⟩

def signers : List DID := a.signatures.map (·.did)

/-- `lastTransition` of the handlers: the zero value for an empty history. -/
def lastTransition : Option ContractState := a.transitions.getLast?.map (·.toState)

def accept (clock : GoTime) (initiatedBy : DID) : Agreement := { a with
    currentState := .accepted
    transitions := [⟨⟨.accepted, clock⟩, some .draft, .accepted, initiatedBy⟩] }

def enter (state : ContractState) (event : ContractEvent) (clock : GoTime) (sender : DID) :
    Agreement :=
  { a with
    currentState := state
    transitions := a.transitions ++ [⟨⟨state, clock⟩, a.lastTransition, event, sender⟩] }

def expire : Agreement := { a with currentState := .completed }

/-- The reply of `handleContractValidation` says `Valid`. -/
def valid : Bool := a.currentState = .accepted || a.currentState = .active

def IsParty (sender : DID) : Prop :=
  a.participants.provider = sender ∨ a.participants.requestor = sender

instance (sender : DID) : Decidable (a.IsParty sender) := inferInstanceAs (Decidable (_ ∨ _))

def addSignature (clock : GoTime) (signature : Signature) : Agreement :=
  let signed := { a with signatures := a.signatures ++ [signature] }
  if signed.signatures.length = 2 then signed.accept clock .zero else signed

def handleContractSignByParticipants (clock : GoTime) (sender : DID) (signature : GoString) :
    Handling :=
  if sender ∈ a.signers then .refuse "contract already signed"
  else if a.IsParty sender then .store (a.addSignature clock ⟨sender, signature⟩)
  else .refuse "not allowed to sign this contract"

def handleContractTermination (clock : GoTime) (sender : DID) : Handling :=
  match a.terminationOption with
  -- `Allowed` is read through a nil pointer.
  | none => .panic
  | some false => .refuse "contract is not allowed to be terminated"
  | some true => .store (a.enter .terminated .terminate clock sender)

def handleCompleteContract (clock : GoTime) (sender : DID) : Handling :=
  .store (a.enter .completed .complete clock sender)

def handleSettleContract (clock : GoTime) (sender : DID) : Handling :=
  .store (a.enter .settled .settle clock sender)

def handlePaymentValidate : Handling := .store { a with paid := true }

end Agreement

inductive HostMessage
  | sign (sender : DID) (signature : GoString)
  | terminate (sender : DID)
  | complete (sender : DID)
  | settle (sender : DID)
  | validatePayment
  | status
  | validate
deriving DecidableEq, Repr

namespace HostMessage

def handle (clock : GoTime) (a : Agreement) : HostMessage → Handling
  | .sign sender signature => a.handleContractSignByParticipants clock sender signature
  | .terminate sender => a.handleContractTermination clock sender
  | .complete sender => a.handleCompleteContract clock sender
  | .settle sender => a.handleSettleContract clock sender
  | .validatePayment => a.handlePaymentValidate
  | .status => .reply
  | .validate => .reply

end HostMessage

namespace Agreement

variable {a b : Agreement} {clock : GoTime} {snd : DID}

theorem sign_eq_store {sig} : a.handleContractSignByParticipants clock snd sig = .store b ↔
      snd ∉ a.signers ∧ a.IsParty snd ∧ a.addSignature clock ⟨snd, sig⟩ = b := by
  unfold handleContractSignByParticipants
  split
  · next hsigned => simp [hsigned]
  rename_i hsigned
  split
  · next hparty => simp [hsigned, hparty]
  · next hparty => simp [hparty]

theorem termination_eq_store : a.handleContractTermination clock snd = .store b ↔
      a.terminationOption = some true ∧ a.enter .terminated .terminate clock snd = b := by
  unfold handleContractTermination
  cases ha : a.terminationOption with
  | none => simp
  | some allowed => cases allowed <;> simp

theorem addSignature_of_ne {sig} (h : a.signatures.length ≠ 1) :
    a.addSignature clock sig = { a with signatures := a.signatures ++ [sig] } := by
  exact if_neg (by simpa using h)

theorem addSignature_of_eq {sig} (h : a.signatures.length = 1) : a.addSignature clock sig =
      accept { a with signatures := a.signatures ++ [sig] } clock .zero := by
  exact if_pos (by simpa using h)

end Agreement

end DMS.Tokenomics
