import DMS.Core.Reach
import DMS.Node.PaymentValidation

/-! # Payments over whole runs

The node that validates payments, and a node that confirms its own transactions with
`handleConfirmLocalTransaction`. The run keeps a ledger of the payments that were marked and of the
transactions on whose strength that was done.
-/

namespace DMS.Node

open Tokenomics

structure Transaction where
  uniqueID : GoString
  paymentValidatorDID : GoString
  status : GoString
  txHash : GoString

/-- A payment that was marked as paid, and what the request had to show for it. -/
structure Acceptance where
  uniqueID : GoString
  blockchain : GoString
  txHash : GoString
deriving DecidableEq, Repr

structure PaymentSystem where
  validator : Validator
  transactions : GoMap GoString Transaction
  ledger : List Acceptance

structure ValidationCall where
  now : GoTime
  req : PaymentValidationRequest
  chain : ChainReplies

def PaymentSystem.validate (s : PaymentSystem) (call : ValidationCall) :
    PaymentSystem × List String :=
  let v := validatePayment s.validator call.now call.req call.chain
  ({ s with
      validator := v.state
      ledger := v.marked.toList.map (⟨·.uniqueID, call.req.blockchain, call.req.txHash⟩) ++
        s.ledger }, v.replies)

def markAsPaid (transactions : GoMap GoString Transaction) (uniqueID txHash : GoString) :
    GoMap GoString Transaction :=
  match transactions.lookup uniqueID with
  | none => transactions
  | some t => transactions.insert uniqueID { t with status := ascii "paid", txHash }

/-- `handleConfirmLocalTransaction` as far as the payment is concerned. The message may not
arrive, or no reply in time; only the first reply is read. -/
def PaymentSystem.confirm (s : PaymentSystem) (call : ValidationCall) (arrives returns : Bool) :
    PaymentSystem :=
  match s.transactions.lookup call.req.uniqueID with
  | none => s
  | some _ =>
    if arrives then
      let (s, replies) := s.validate call
      if returns ∧ replies.head? = some "" then
        { s with
          transactions := markAsPaid s.transactions call.req.uniqueID call.req.txHash }
      else s
    else s

inductive PaymentLabel
  | validate (call : ValidationCall)
  | confirm (call : ValidationCall) (arrives returns : Bool)

def PaymentLabel.call : PaymentLabel → ValidationCall
  | .validate call => call
  | .confirm call _ _ => call

def PaymentSystem.step (s : PaymentSystem) : PaymentLabel → PaymentSystem
  | .validate call => (s.validate call).1
  | .confirm call arrives returns => s.confirm call arrives returns

def SameTransfer (blockchain txHash txHash' : GoString) : Prop :=
  if blockchain = ethereumBlockchain then equalFold txHash txHash' = true else txHash = txHash'

instance (blockchain txHash txHash' : GoString) :
    Decidable (SameTransfer blockchain txHash txHash') :=
  inferInstanceAs (Decidable (if blockchain = ethereumBlockchain then _ = true else _ = _))

theorem SameTransfer.symm {blockchain txHash txHash'}
    (h : SameTransfer blockchain txHash txHash') : SameTransfer blockchain txHash' txHash := by
  unfold SameTransfer equalFold at *
  split
  · next hchain =>
    rw [if_pos hchain] at h
    simpa using (of_decide_eq_true h).symm
  rename_i hchain
  rw [if_neg hchain] at h
  exact h.symm

def PaidOnce (s : PaymentSystem) : Prop :=
  ∀ a ∈ s.ledger, ∀ b ∈ s.ledger, a.blockchain = b.blockchain →
    SameTransfer a.blockchain a.txHash b.txHash → a.uniqueID = b.uniqueID

/-- The transfer that a request shows has not been accepted for another payment. -/
def Unspent (s : PaymentSystem) (l : PaymentLabel) : Prop :=
  ∀ a ∈ s.ledger, a.blockchain = l.call.req.blockchain →
    SameTransfer a.blockchain a.txHash l.call.req.txHash → a.uniqueID = l.call.req.uniqueID

instance (s : PaymentSystem) (l : PaymentLabel) : Decidable (Unspent s l) :=
  inferInstanceAs (Decidable (∀ a ∈ s.ledger, _ → _ → _))

theorem marked_uniqueID {s now req chain p}
    (h : (validatePayment s now req chain).marked = some p) : p.uniqueID = req.uniqueID := by
  unfold validatePayment at h
  split at h
  · simp [Validation.refused] at h
  rename_i pay hpayment
  split at h
  · simp [Validation.refused] at h
  split at h
  · simp [Validation.refused] at h
  unfold settle at h
  split at h
  · dsimp only at h
    split at h
    · simp at h
    · have huid : pay.uniqueID = req.uniqueID := s.payments.keyed _ _ hpayment
      rw [← Option.some.inj h, ← huid]
  · simp at h

variable {s : PaymentSystem}

theorem mem_ledger_validate {call a} (h : a ∈ (s.validate call).1.ledger) :
    a ∈ s.ledger ∨ a = ⟨call.req.uniqueID, call.req.blockchain, call.req.txHash⟩ := by
  rcases List.mem_append.mp h with hnew | hold
  · obtain ⟨p, hp, rfl⟩ := List.mem_map.mp hnew
    right
    rw [marked_uniqueID (Option.mem_toList.mp hp)]
  · exact .inl hold

theorem mem_ledger_step {l a} (h : a ∈ (s.step l).ledger) :
    a ∈ s.ledger ∨ a = ⟨l.call.req.uniqueID, l.call.req.blockchain, l.call.req.txHash⟩ := by
  cases l with
  | validate call => exact mem_ledger_validate h
  | confirm call arrives returns =>
    dsimp only [PaymentSystem.step, PaymentSystem.confirm] at h
    split at h
    · exact .inl h
    split at h
    · split at h <;> exact mem_ledger_validate h
    · exact .inl h

theorem PaidOnce.step (h : PaidOnce s) {l} (hunspent : Unspent s l) : PaidOnce (s.step l) := by
  intro a ha b hb hchain hsame
  rcases mem_ledger_step ha with ha | rfl
  · rcases mem_ledger_step hb with hb | rfl
    · exact h a ha b hb hchain hsame
    · exact hunspent a ha hchain hsame
  rcases mem_ledger_step hb with hb | rfl
  · refine (hunspent b hb hchain.symm ?_).symm
    rw [← hchain]
    exact hsame.symm
  · rfl

/-- The states of runs in which every request shows a transfer that has not been accepted
for another payment. -/
def CarefulRun : PaymentSystem → Prop := Reach (fun s => s.ledger = []) Unspent PaymentSystem.step

/-- The handler does not keep the transactions it has accepted; a transfer pays one invoice
as long as no request shows one that has paid another. -/
theorem paidOnce_of_careful {s : PaymentSystem} (h : CarefulRun s) : PaidOnce s := by
  refine Reach.invariant PaidOnce ?_ ?_ h
  · intro s hs a ha
    rw [hs] at ha
    simp at ha
  · intro s l hs hunspent
    exact hs.step hunspent

def samplePayments : PaymentSystem where
  validator := sampleValidator
  transactions := ∅
  ledger := []

def sampleRequestFor (uniqueID : String) : PaymentLabel := .validate
    { now := .unixEpoch + 1
      req := sampleValidationRequest uniqueID "" ethereumBlockchain
      chain := sampleReplies "0xaa" 100 }

/-- Paying the first invoice, and showing the same transfer for it again. -/
theorem paidOnce_of_careful_sample :
    ([sampleRequestFor "first", sampleRequestFor "first"].foldl PaymentSystem.step
      samplePayments).ledger.length = 2 ∧
    PaidOnce ([sampleRequestFor "first", sampleRequestFor "first"].foldl PaymentSystem.step
      samplePayments) := by
  have hstart : CarefulRun samplePayments := .init rfl
  exact ⟨by decide +kernel, paidOnce_of_careful (hstart.foldl (by decide +kernel))⟩

/-- The transfer that paid the first invoice pays the second as well. -/
theorem paidOnce_fails :
    ¬ PaidOnce ([sampleRequestFor "first", sampleRequestFor "second"].foldl PaymentSystem.step
      samplePayments) := by
  intro h
  have hledger : ([sampleRequestFor "first", sampleRequestFor "second"].foldl PaymentSystem.step
      samplePayments).ledger = [⟨ascii "second", ethereumBlockchain, ascii "0xhash"⟩,
          ⟨ascii "first", ethereumBlockchain, ascii "0xhash"⟩] := by decide +kernel
  have hsame := h ⟨ascii "second", ethereumBlockchain, ascii "0xhash"⟩ (by rw [hledger]; simp)
    ⟨ascii "first", ethereumBlockchain, ascii "0xhash"⟩ (by rw [hledger]; simp) rfl (by decide)
  exact absurd hsame (by decide)

end DMS.Node
