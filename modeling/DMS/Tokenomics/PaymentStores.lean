import DMS.Core.Collection
import DMS.Tokenomics.Contract

/-! # Payments and quotes

`tokenomics/store/payment/payment_store.go` and `tokenomics/store/payment_quote/store.go`.
-/

namespace DMS.Tokenomics

structure Payment where
  uniqueID : GoString
  contract : Contract
  amount : GoString
  paid : Bool

/-- The payments by their unique identifiers. `Insert` does not overwrite, so that there is
one document for each. -/
structure PaymentStore where
  payments : GoMap GoString Payment
  keyed : ∀ uniqueID p, payments.lookup uniqueID = some p → p.uniqueID = uniqueID

namespace PaymentStore

def getByUniqueID (s : PaymentStore) (uniqueID : GoString) : Option Payment :=
  s.payments.lookup uniqueID

def update (s : PaymentStore) (p : Payment) : Except String PaymentStore :=
  if p.uniqueID = [] then .error "unique_id is required for update"
  else if (s.payments.lookup p.uniqueID).isNone then
    .error ("payment with unique_id " ++ printed p.uniqueID ++ " not found")
  else
    .ok
      { payments := s.payments.insert p.uniqueID p
        keyed := by
          intro uniqueID q hq
          by_cases h : uniqueID = p.uniqueID
          · subst h
            rw [AList.lookup_insert] at hq
            rw [← Option.some.inj hq]
          · rw [AList.lookup_insert_ne h] at hq
            exact s.keyed uniqueID q hq }

theorem update_error {s : PaymentStore} {p e} (h : s.update p = .error e) : e ≠ "" := by
  unfold update at h
  repeat' split at h
  all_goals first | cases h; done | obtain rfl := Except.error.inj h
  · decide
  · simp only [ne_eq, String.append_eq_empty_iff, String.reduceEq, false_and, not_false_eq_true]

end PaymentStore

structure PaymentQuote where
  quoteID : GoString
  uniqueID : GoString
  convertedAmount : GoString
  expiresAt : GoTime
  used : Bool
  usedAt : GoTime
deriving DecidableEq, Repr

namespace PaymentQuote

variable (quotes : Collection PaymentQuote)

def getQuote (quoteID : GoString) : Except String PaymentQuote :=
  match quotes.findFirst (·.quoteID = quoteID) with
  | none => .error ("quote not found: " ++ printed quoteID)
  | some quote => .ok quote

def markQuoteAsUsed (now : GoTime) (quoteID : GoString) : Except String (Collection PaymentQuote) :=
  match getQuote quotes quoteID with
  | .error e => .error e
  | .ok quote =>
    if quote.used then .error ("quote already used: " ++ printed quoteID)
    else
      .ok (quotes.update (·.quoteID = quoteID) fun _ => { quote with used := true, usedAt := now })

/-- `GetQuoteByUniqueID`: the newest quote for a payment that is not used. -/
def getQuoteByUniqueID (uniqueID : GoString) : Option PaymentQuote :=
  (quotes.findSorted (·.uniqueID = uniqueID) ⟨ascii "created_at", -1⟩).find? fun q => !q.used

variable {quotes}

theorem of_getQuoteByUniqueID {uniqueID q} (h : getQuoteByUniqueID quotes uniqueID = some q) :
    q.uniqueID = uniqueID ∧ q.used = false := by
  have hin := (quotes.perm _ _).mem_iff.mp (List.mem_of_find?_eq_some h)
  exact ⟨of_decide_eq_true (List.mem_filter.mp hin).2, by simpa using List.find?_some h⟩

end PaymentQuote

end DMS.Tokenomics
