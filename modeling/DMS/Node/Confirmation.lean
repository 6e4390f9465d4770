import DMS.Node.PaymentRuns

/-! # Confirming a transaction by any reply

`handleConfirmLocalTransaction` of `dms/node/behaviors_contract.go` with the message that
comes back as it is: any bytes, or none in time. What the bytes say is only looked for in the
text of an error, and what does not decode has no such text.
-/

namespace DMS.Node

open Tokenomics

/-- What the node takes from libraries: whether `HandleFromDID` knows a handle for a DID, and the
text that `json.Unmarshal` leaves in the `Error` field, with the error that it returns. -/
structure ReplyReader where
  resolves : GoString → Bool
  unmarshal : GoString → String × Option String
  unmarshal_nil : unmarshal [] = ("", some "unexpected end of JSON input")

/-- The error of the call is thrown away. -/
def ReplyReader.errorOf (p : ReplyReader) (message : GoString) : String := (p.unmarshal message).1

section

variable (p : ReplyReader) (transactions : GoMap GoString Transaction)
  (req : PaymentValidationRequest)

/-- `handleConfirmLocalTransaction` up to the mark, with the reply of `invokeBehaviour` if there is
one in time. -/
def confirmLocalTransaction (reply : Option GoString) :
    Except String (GoMap GoString Transaction) :=
  match transactions.lookup req.uniqueID with
  | none => .error ("failed to get payment validator did: transaction not found with unique_id: " ++
      printed req.uniqueID)
  | some t =>
    if p.resolves t.paymentValidatorDID = false then .error "failed to get payment provider hande"
    else
      match reply with
      | none => .error "failed to send transaction confirmation to payment provider"
      | some message =>
        if p.errorOf message ≠ "" then
          .error ("payment validation response from payment provider: " ++ p.errorOf message)
        else .ok (markAsPaid transactions req.uniqueID req.txHash)

/-- One confirmation: the state of the validator, whether it handles the request, and the
message that comes back from its node. -/
structure Exchange where
  validator : Validator
  now : GoTime
  chain : ChainReplies
  handled : Bool
  reply : Option GoString

def MarksPaid (x : Exchange) : Prop :=
  ∃ ts t, confirmLocalTransaction p transactions req x.reply = .ok ts ∧
    ts.lookup req.uniqueID = some t ∧ t.status = ascii "paid" ∧ t.txHash = req.txHash

def Validated (x : Exchange) : Prop :=
  x.handled = true ∧ ∃ payment, (validatePayment x.validator x.now req x.chain).marked =
    some payment ∧ payment.uniqueID = req.uniqueID

structure Consents (reply : Option GoString) : Prop where
  known : ∃ t, transactions.lookup req.uniqueID = some t ∧ p.resolves t.paymentValidatorDID = true
  silent : ∃ message, reply = some message ∧ p.errorOf message = ""

/-- The message decodes, and is an answer of the validator's handler to this request. -/
structure Answered (x : Exchange) (message : GoString) : Prop where
  decodes : (p.unmarshal message).2 = none
  handled : x.handled = true
  sent : p.errorOf message ∈ (validatePayment x.validator x.now req x.chain).replies

end

variable {req : PaymentValidationRequest}

theorem confirmLocalTransaction_eq_ok {p txs ts reply} :
    confirmLocalTransaction p txs req reply = .ok ts ↔
      Consents p txs req reply ∧ ts = markAsPaid txs req.uniqueID req.txHash := by
  unfold confirmLocalTransaction
  constructor
  · intro hok
    cases hlookup : txs.lookup req.uniqueID with
    | none => simp [hlookup] at hok
    | some t =>
      rw [hlookup] at hok
      obtain ⟨hresolves, hok⟩ := Outcome.ite_error_eq_ok.mp hok
      cases reply with
      | none => simp at hok
      | some message =>
        obtain ⟨hsilent, hok⟩ := Outcome.ite_error_eq_ok.mp hok
        exact ⟨⟨⟨t, hlookup, by simpa using hresolves⟩, message, rfl, not_not.mp hsilent⟩,
          (Except.ok.inj hok).symm⟩
  · rintro ⟨⟨⟨t, hlookup, hresolves⟩, message, rfl, hsilent⟩, rfl⟩
    simp [hlookup, hresolves, hsilent]

theorem marksPaid_iff {p txs x} : MarksPaid p txs req x ↔ Consents p txs req x.reply := by
  constructor
  · rintro ⟨ts, -, hok, -⟩
    exact (confirmLocalTransaction_eq_ok.mp hok).1
  intro hconsents
  obtain ⟨t, hlookup, -⟩ := hconsents.known
  refine ⟨_, { t with status := ascii "paid", txHash := req.txHash },
    confirmLocalTransaction_eq_ok.mpr ⟨hconsents, rfl⟩, ?_, rfl, rfl⟩
  simp [markAsPaid, hlookup]

theorem append_ne_empty {a : String} (h : a ≠ "") (b : String) : a ++ b ≠ "" := by
  simp [h]

theorem checkTransfer_replies {addr asset expected v transfer} (h : "" ∉ Verdict.replies v) :
    "" ∉ (checkTransfer addr asset expected v transfer).replies := by
  have hreplies : ∀ (p : Prop) [Decidable p] (text : String), text ≠ "" →
      "" ∉ if p then [text] else [] := by
    intro p _ text htext hin
    split at hin
    · exact htext (List.mem_singleton.mp hin).symm
    · cases hin
  unfold checkTransfer
  dsimp only
  split <;>
  · rw [List.mem_append, List.mem_append, not_or, not_or]
    exact ⟨⟨h, hreplies _ _ (append_ne_empty (by decide) _)⟩,
      hreplies _ _ (append_ne_empty (by decide) _)⟩

/-- Every reply before the last one has a text. -/
theorem checkChain_replies {payment expected chain v}
    (h : checkChain payment req expected chain = .ok v) : "" ∉ v.replies := by
  unfold checkChain at h
  split at h
  · unfold checkEthereum checkTransfers at h
    repeat' split at h
    all_goals cases h
    all_goals exact List.not_mem_nil
  split at h
  · unfold checkCardano at h
    split at h
    · cases h
    · obtain rfl := Except.ok.inj h
      exact List.foldlRecOn (motive := fun v : Verdict => "" ∉ v.replies) _ _ List.not_mem_nil
        fun v hv transfer _ => checkTransfer_replies hv
  · cases h

theorem checkChain_error {payment expected chain e}
    (h : checkChain payment req expected chain = .error e) : e ≠ "" := by
  unfold checkChain checkEthereum checkTransfers checkCardano at h
  repeat' split at h
  all_goals first | cases h; done | obtain rfl := Except.error.inj h
  all_goals simp only [ne_eq, String.append_eq_empty_iff, String.reduceEq, false_and,
    not_false_eq_true]

theorem marked_of_silent {s now chain}
    (h : "" ∈ (validatePayment s now req chain).replies) :
    (validatePayment s now req chain).marked.isSome = true := by
  have hrefused : ∀ e, e ≠ "" → "" ∉ (Validation.refused s e).replies :=
    fun e he hin => he (List.mem_singleton.mp hin).symm
  unfold validatePayment at h ⊢
  split at h
  · exact absurd h (hrefused _ (append_ne_empty (by decide) _))
  rename_i payment hpayment
  split at h
  · next e hexpected =>
    unfold expectedAmount at hexpected
    repeat' split at hexpected
    all_goals first | cases hexpected; done | obtain rfl := Except.error.inj hexpected
    exact absurd h (hrefused _ (append_ne_empty (by decide) _))
  split at h
  · next hcheck => exact absurd h (hrefused _ (checkChain_error hcheck))
  rename_i v hcheck
  have hbefore : ∀ text, text ≠ "" → "" ∉ v.replies ++ [text] := by
    intro text htext hin
    rcases List.mem_append.mp hin with hin | hin
    · exact checkChain_replies hcheck hin
    · exact htext (List.mem_singleton.mp hin).symm
  unfold settle at h ⊢
  split at h
  · next hverified =>
    rw [if_pos hverified]
    dsimp only at h ⊢
    split at h
    · next e he => exact absurd h (hbefore e (PaymentStore.update_error he))
    · rfl
  · refine absurd h (hbefore _ ?_)
    split
    · assumption
    · decide

/-- Knows the empty message, an object without fields, and error texts. -/
def sampleReader : ReplyReader where
  resolves := fun _ => true
  unmarshal := fun message =>
    if message = [] then ("", some "unexpected end of JSON input")
    else (if message = ascii "\x7b\x7d" then "" else "not verified", none)
  unmarshal_nil := rfl

def sampleTransactions : GoMap GoString Transaction :=
  AList.insert (ascii "first") ⟨ascii "first", ascii "did:key:validator", ascii "unpaid", []⟩ ∅

/-- The validator has a transfer of 100 for the invoice. -/
def sampleExchange (handled : Bool) (reply : GoString) : Exchange where
  validator := sampleValidator
  now := .unixEpoch + 1
  chain := sampleReplies "0xaa" 100
  handled
  reply := some reply

end DMS.Node
