import DMS.Core.Reach
import DMS.Tokenomics.Invoices

/-! # The time that an invoice covers

An invoice should cover no time before the start date of its contract and none after it is
generated, or after the termination. The stored time of the last invoice is the Unix epoch until
the first check has replaced it by the start date, and then a whole second.
-/

namespace DMS.Tokenomics

def Invoice.covers (inv : Invoice) : GoTime × GoTime := inv.usage.covers inv.since inv.upTo

def Invoice.Within (inv : Invoice) : Prop := inv.contract.duration.startDate ≤ inv.covers.1 ∧
    inv.covers.2 ≤ inv.contract.billableUntil inv.clock

instance (inv : Invoice) : Decidable inv.Within :=
  inferInstanceAs (Decidable (_ ∧ _))

/-- A last invoice at `last` is no reason for an invoice at `now` to leave the contract. Whole
cycles are billed from the first period boundary after `last`, which has to be after the start
date and as far from `last` as there is time left over; anything else from `last` on. -/
def Contract.Safe (c : Contract) (last now : Int) : Prop :=
  match parsePaymentPeriod c.paymentDetails.paymentPeriod with
  | .error _ => True
  | .ok p =>
    let cycle := cycleLength p c.paymentDetails.paymentPeriodCount
    let elapsed := GoTime.sub now last
    if c.paymentDetails.paymentModel.roundsToPeriods ∧ cycle ≤ elapsed then
      c.duration.startDate ≤ nextBoundary p last ∧
        nextBoundary p last - last ≤ now - last - cycle * (elapsed / cycle)
    else c.duration.startDate ≤ last

theorem Contract.safe_iff {c : Contract} {p}
    (hp : parsePaymentPeriod c.paymentDetails.paymentPeriod = .ok p) (last now : Int) :
    c.Safe last now ↔ c.duration.startDate ≤ (c.billedInterval p last now).1 ∧
        (c.billedInterval p last now).2 ≤ now := by
  simp only [Contract.Safe, hp, Contract.billedInterval]
  split
  · constructor
    · rintro ⟨hstart, hend⟩
      exact ⟨hstart, by omega⟩
    · rintro ⟨hstart, hend⟩
      exact ⟨hstart, by omega⟩
  · simp

namespace ContractActor

def Generates (P : Platform) (i : CheckInputs) (a : ContractActor) : Prop :=
  ∃ since usage now, a.billingAction P i = .send since usage now

def CarefulCheck (P : Platform) (a : ContractActor) : HostOp → Prop
  | .check i =>
    a.Generates P i → a.contract.Safe a.lastInvoiceAt (a.contract.billableUntil i.now)
  | _ => True

theorem covers_of_mem_requests {i} {a : ContractActor} {since now usage inv}
    (h : inv ∈ a.requests i since usage now) :
    inv.covers = usage.covers since now ∧ inv.contract = a.contract ∧ inv.clock = i.now := by
  unfold requests at h
  split at h
  case h_6 =>
    split at h
    · obtain ⟨deployment, -, rfl⟩ := List.mem_map.mp h
      exact ⟨rfl, rfl, rfl⟩
    · simp at h
  all_goals
    rw [List.mem_singleton] at h
    subst h
    exact ⟨rfl, rfl, rfl⟩

def AllWithin (a : ContractActor) : Prop := ∀ inv ∈ a.invoices, inv.Within

theorem allWithin_check (P : Platform) (i : CheckInputs) (a : ContractActor) :
    (a.checkAndGenerateInvoice P i).AllWithin ↔ a.AllWithin ∧
        (a.Generates P i → a.contract.Safe a.lastInvoiceAt (a.contract.billableUntil i.now)) := by
  unfold checkAndGenerateInvoice AllWithin Generates
  cases h : a.billingAction P i with
  | nothing | save t => simp [perform]
  | send since usage now =>
    obtain ⟨rfl, rfl, hsource⟩ := source_of_send h
    obtain ⟨p, hdue⟩ := hsource.due
    have hwithin : (∀ inv ∈ a.requests i a.lastInvoiceAt usage (a.contract.billableUntil i.now),
        inv.Within) ↔ a.contract.Safe a.lastInvoiceAt (a.contract.billableUntil i.now) := by
      rw [Contract.safe_iff hdue.parses, ← hdue.covers]
      constructor
      · intro hall
        obtain ⟨inv, hinv⟩ := List.exists_mem_of_ne_nil _ (requests_ne_nil hdue.sendable _ _ _)
        have := hall inv hinv
        obtain ⟨hcovers, hcontract, hclock⟩ := covers_of_mem_requests hinv
        rwa [Invoice.Within, hcovers, hcontract, hclock] at this
      intro hsafe inv hinv
      obtain ⟨hcovers, hcontract, hclock⟩ := covers_of_mem_requests hinv
      rwa [Invoice.Within, hcovers, hcontract, hclock]
    simp only [perform, invoices_sendInvoice hdue.sendable, List.forall_mem_append, hwithin]
    simp

theorem allWithin_step (P : Platform) (a : ContractActor) (op : HostOp) :
    (a.step P op).AllWithin ↔ a.AllWithin ∧ a.CarefulCheck P op := by
  cases op with
  | check i => exact allWithin_check P i a
  | _ => simp [step, CarefulCheck, AllWithin]

theorem allWithin_run (P : Platform) (a : ContractActor) (ops : List HostOp) :
    (ops.foldl (step P) a).AllWithin ↔
      a.AllWithin ∧ Reach.Passes (CarefulCheck P) (step P) a ops := by
  induction ops generalizing a with
  | nil => simp [Reach.Passes]
  | cons op ops ih => rw [List.foldl_cons, ih, allWithin_step, Reach.Passes, and_assoc]

/-- In a run of a contract from its creation on, every invoice is for time within the
contract if and only if every check that generates one is careful. -/
theorem invoices_within_iff (P : Platform) (contractDID : GoString) (req : CreateContractRequest)
    (events : List Usage) (ops : List HostOp) :
    (∀ inv ∈ (ops.foldl (step P) (registered contractDID req events)).invoices, inv.Within) ↔
      Reach.Passes (CarefulCheck P) (step P) (registered contractDID req events) ops := by
  have h := allWithin_run P (registered contractDID req events) ops
  have hempty : (registered contractDID req events).AllWithin := by
    simp [AllWithin, registered]
  exact h.trans (and_iff_right hempty)

def sampleCounting : PaymentDetails := ⟨.payPerAllocation, [], [], [], ascii "hour", 1, []⟩

def checkAt (sec : Int) : HostOp := .check (.regular .stored (GoTime.unixTime sec 0))

def sampleInvoices (pd : PaymentDetails) (nsec : Int) (ops : List HostOp) : List Invoice :=
  (ops.foldl (step samplePlatform) (registered (ascii "contract") (sampleRequest pd nsec)
    [])).invoices

/-- Three invoices for time outside the contract: of one terminated before its first check, one
that ends half a minute in the future, and one that begins half a second before the start date. -/
theorem invoices_not_within : (sampleRequest sampleRental 0).validate = none ∧
      (sampleRequest sampleCounting 500000000).validate = none ∧
      ¬ (∀ inv ∈ sampleInvoices sampleRental 0
        [.terminate (GoTime.unixTime 1704067240 0), checkAt 1704067250], inv.Within) ∧
      ¬ (∀ inv ∈ sampleInvoices sampleRental 0 [checkAt 1704067231, checkAt 1704067290],
        inv.Within) ∧ ¬ (∀ inv ∈ sampleInvoices sampleCounting 500000000
        [checkAt 1704067231, checkAt 1704070831], inv.Within) := by
  decide +kernel

end ContractActor

end DMS.Tokenomics
