import DMS.Core.Reach
import DMS.Tokenomics.Invoices

/-! # The cycles that a fixed rental invoices

Each run divides the time since the last invoice by the length of a cycle and moves the last
invoice to its own clock, so that the remainder is dropped. That does no harm as long as what was
dropped before and what is left over now stay below one cycle.
-/

namespace DMS.Tokenomics

open FixedRentalProcessor List

namespace ContractActor

/-- The length of a billing cycle of the contract; of no use for a period that is not one. -/
def cycle (a : ContractActor) : Int :=
  match parsePaymentPeriod a.contract.paymentDetails.paymentPeriod with
  | .error _ => 0
  | .ok p => cycleLength p a.contract.paymentDetails.paymentPeriodCount

def cyclesInvoiced (a : ContractActor) : Int :=
  (a.invoices.map fun inv => inv.usages / inv.contract.paymentDetails.paymentPeriodCount).sum

/-- The whole cycles between the start date and `t`. -/
def cyclesUntil (a : ContractActor) (t : Int) : Int := (t - a.contract.duration.startDate) / a.cycle

structure NewRental (P : Platform) (a : ContractActor) : Prop where
  model : a.contract.paymentDetails.paymentModel = .fixedRental
  valid : FixedRentalProcessor.validate P a.contract.paymentDetails = none
  new : a.invoices = []

def InvoicedExactly (P : Platform) (a : ContractActor) (turns : List BillingTurn) : Prop :=
  ∀ before t, before ++ [t] <+: turns →
    ((before ++ [t]).foldl (turn P) a).cyclesInvoiced = a.cyclesUntil t.time

/-- What is lost when the contract is invoiced at a run: the rest of a cycle at the last invoice,
the time that is not looked at, negative by the fraction of a second that the store lost, and the
remainder of the time that is. -/
def dropped (a : ContractActor) (t : BillingTurn) : Int :=
  let elapsed := GoTime.sub (a.contract.billableUntil t.time) a.lastInvoiceAt
  (a.lastRun - a.contract.duration.startDate) % a.cycle + (t.time - a.lastRun - elapsed) +
    elapsed % a.cycle

/-- A run that invoices loses less than a cycle, and no cycle ends before a run that does not
invoice. -/
def OnSchedule (P : Platform) (a : ContractActor) (t : BillingTurn) : Prop :=
  if a.Bills P t then 0 ≤ a.dropped t ∧ a.dropped t < a.cycle
  else a.cyclesUntil t.time = a.cyclesUntil a.lastRun

instance (P : Platform) (a : ContractActor) (t : BillingTurn) : Decidable (a.OnSchedule P t) :=
  inferInstanceAs (Decidable (if a.Bills P t then _ ∧ _ else _ = _))

end ContractActor

theorem eq_ediv_iff {x c k d : Int} (hc : 0 < c) (hx : x = c * k + d) :
    k = x / c ↔ 0 ≤ d ∧ d < c := by
  have hdiv := Int.mul_ediv_add_emod x c
  have hnonneg := Int.emod_nonneg x (by omega : c ≠ 0)
  have hlt := Int.emod_lt_of_pos x hc
  constructor
  · intro hk
    rw [← hk] at hdiv
    omega
  rintro ⟨hd, hdc⟩
  rw [hx, Int.add_comm, Int.add_mul_ediv_left _ _ (by omega), Int.ediv_eq_zero_of_lt hd hdc]
  omega

/-- Two divisions one after the other make up for one division when what they leave over is
less than the divisor. -/
theorem ediv_add_ediv_iff {c : Int} (hc : 0 < c) (start last now el : Int) :
    (last - start) / c + el / c = (now - start) / c ↔
      0 ≤ (last - start) % c + (now - last - el) + el % c ∧
        (last - start) % c + (now - last - el) + el % c < c := by
  apply eq_ediv_iff hc
  have hlast := Int.mul_ediv_add_emod (last - start) c
  have helapsed := Int.mul_ediv_add_emod el c
  rw [Int.mul_add]
  omega

namespace ContractActor

section Rental

variable {P : Platform} {a : ContractActor} {t : BillingTurn}

theorem cycle_of_valid (h : FixedRentalProcessor.validate P a.contract.paymentDetails = none) :
    0 < a.contract.paymentDetails.paymentPeriodCount ∧ ∃ p,
      parsePaymentPeriod a.contract.paymentDetails.paymentPeriod = .ok p ∧
        a.cycle = cycleLength p a.contract.paymentDetails.paymentPeriodCount ∧ 0 < a.cycle := by
  unfold validate at h
  split at h
  · cases h
  split at h
  · cases h
  split at h
  · cases h
  split at h
  · cases h
  next p hp =>
  split at h
  · cases h
  next hcount =>
  have hcycle : a.cycle = cycleLength p a.contract.paymentDetails.paymentPeriodCount := by
    simp [cycle, hp]
  refine ⟨by omega, p, hp, hcycle, ?_⟩
  rw [hcycle]
  exact cycleLength_pos (parsePaymentPeriod_pos hp) _

theorem periods_of_source {s q c p last now usage} (h : Source P s q c last now usage)
    (hmodel : c.paymentDetails.paymentModel = .fixedRental)
    (hp : parsePaymentPeriod c.paymentDetails.paymentPeriod = .ok p)
    (hcount : 0 < c.paymentDetails.paymentPeriodCount) :
    ∃ rental, usage = .fixedRental rental ∧ rental.periodsInvoiced = GoTime.sub now last /
        cycleLength p c.paymentDetails.paymentPeriodCount *
          c.paymentDetails.paymentPeriodCount := by
  cases h with
  | checked h =>
    unfold processorCheck at h
    rw [hmodel] at h
    obtain ⟨rental, hrental, rfl⟩ := Outcome.map_eq_ok.mp h
    refine ⟨rental, rfl, ?_⟩
    unfold FixedRentalProcessor.checkAndGenerateInvoice at hrental
    split at hrental
    · cases hrental
    next el helapsed =>
    obtain ⟨p', hp', -, rfl⟩ := elapsedPeriods_eq_ok helapsed
    cases hp.symm.trans hp'
    split at hrental
    · cases hrental
    cases hrental
    simp [periodsToInvoice, show ¬ c.paymentDetails.paymentPeriodCount ≤ 0 by omega]
  | proRatedRental _ hnot h =>
    obtain ⟨hpos, rfl⟩ := proRated_eq_ok h
    obtain ⟨p', hp', hlt⟩ := elapsedPeriods_not_elapsed hnot
    cases hp.symm.trans hp'
    refine ⟨_, rfl, ?_⟩
    rw [Int.ediv_eq_zero_of_lt (by omega) (by omega), Int.zero_mul]
  | proRatedPeriodic hperiodic => rw [hmodel] at hperiodic; cases hperiodic

@[simp] theorem cyclesUntil_turn (x : Int) : (a.turn P t).cyclesUntil x = a.cyclesUntil x := by
  simp [cyclesUntil, cycle]

theorem cyclesInvoiced_turn (hmodel : a.contract.paymentDetails.paymentModel = .fixedRental)
    (hvalid : FixedRentalProcessor.validate P a.contract.paymentDetails = none) :
    if a.Bills P t then (a.turn P t).cyclesInvoiced = a.cyclesInvoiced +
          GoTime.sub (a.contract.billableUntil t.time) a.lastInvoiceAt / a.cycle ∧
        (a.turn P t).lastRun = t.time
    else (a.turn P t).cyclesInvoiced = a.cyclesInvoiced ∧ (a.turn P t).lastRun = a.lastRun := by
  cases h : a.scheduledAction P t with
  | nothing =>
    rw [if_neg (by simp [Bills, h]), turn_of_nothing h]
    exact ⟨rfl, rfl⟩
  | save x =>
    rw [if_neg (by simp [Bills, h]), turn_of_save h]
    exact ⟨rfl, rfl⟩
  | send since usage now =>
    obtain ⟨hcount, p, hp, hcycle, -⟩ := cycle_of_valid hvalid
    obtain ⟨rfl, rfl, hsource⟩ := source_of_scheduled h
    obtain ⟨rental, rfl, hperiods⟩ := periods_of_source hsource hmodel hp hcount
    rw [if_pos ⟨_, _, _, h⟩, lastRun_of_bills ⟨_, _, _, h⟩, turn_of_send h]
    simp only [cyclesInvoiced, requests, map_append, map_cons, map_nil,
      sum_append, sum_cons, sum_nil, hperiods, hcycle]
    rw [Int.mul_ediv_cancel _ (by omega)]
    exact ⟨by omega, trivial⟩

end Rental

variable {P : Platform}

theorem invoicedExactly_cons {a : ContractActor} {t turns} :
    a.InvoicedExactly P (t :: turns) ↔ (a.turn P t).cyclesInvoiced = a.cyclesUntil t.time ∧
        (a.turn P t).InvoicedExactly P turns := by
  constructor
  · intro h
    refine ⟨h [] t (by simp), ?_⟩
    intro pre t' hpre
    rw [cyclesUntil_turn]
    exact h (t :: pre) t' (by simpa using hpre)
  rintro ⟨hfirst, hrest⟩ pre t' hpre
  cases pre with
  | nil =>
    obtain rfl : t' = t := by simpa using hpre
    exact hfirst
  | cons t'' pre =>
    rw [cons_append, cons_prefix_cons] at hpre
    obtain ⟨rfl, hpre⟩ := hpre
    have h := hrest pre t' hpre
    rwa [cyclesUntil_turn] at h

theorem cyclesInvoiced_turn_iff {a : ContractActor} {t}
    (hmodel : a.contract.paymentDetails.paymentModel = .fixedRental)
    (hvalid : FixedRentalProcessor.validate P a.contract.paymentDetails = none)
    (hinv : a.cyclesInvoiced = a.cyclesUntil a.lastRun) :
    (a.turn P t).cyclesInvoiced = a.cyclesUntil t.time ↔ a.OnSchedule P t := by
  obtain ⟨-, -, -, -, hpos⟩ := cycle_of_valid hvalid
  have hturn := cyclesInvoiced_turn (t := t) hmodel hvalid
  unfold OnSchedule
  split at hturn
  · next hbills =>
    rw [if_pos hbills, hturn.1, hinv]
    exact ediv_add_ediv_iff hpos _ _ _ _
  rename_i hbills
  rw [if_neg hbills, hturn.1, hinv]
  exact eq_comm

theorem invoicedExactly_run (turns : List BillingTurn) (a : ContractActor)
    (hmodel : a.contract.paymentDetails.paymentModel = .fixedRental)
    (hvalid : FixedRentalProcessor.validate P a.contract.paymentDetails = none)
    (hinv : a.cyclesInvoiced = a.cyclesUntil a.lastRun) :
    a.InvoicedExactly P turns ↔ Reach.Passes (OnSchedule P) (turn P) a turns := by
  induction turns generalizing a with
  | nil => simp [InvoicedExactly, Reach.Passes]
  | cons t turns ih =>
    have hiff := cyclesInvoiced_turn_iff (t := t) hmodel hvalid hinv
    have hturn := cyclesInvoiced_turn (t := t) hmodel hvalid
    rw [invoicedExactly_cons, hiff]
    refine and_congr_right fun hon => ih _ (by simpa using hmodel) (by simpa using hvalid) ?_
    rw [cyclesUntil_turn]
    split at hturn
    · rw [hiff.mpr hon, hturn.2]
    · rw [hturn.1, hturn.2, hinv]

/-- By each run of a fixed rental the whole cycles since the start date have been invoiced if
and only if every run is on schedule. -/
theorem cycles_invoiced_iff (P : Platform) (a : ContractActor) (h : a.NewRental P)
    (turns : List BillingTurn) :
    a.InvoicedExactly P turns ↔ Reach.Passes (OnSchedule P) (turn P) a turns := by
  apply invoicedExactly_run turns a h.model h.valid
  simp [cyclesInvoiced, lastRun, h.new, cyclesUntil]

def sampleRentalHost : ContractActor :=
  registered (ascii "contract") (sampleRequest sampleRental 0) []

theorem sampleRentalHost_new : sampleRentalHost.NewRental samplePlatform :=
  ⟨rfl, by decide +kernel, rfl⟩

theorem cycles_invoiced_sample :
    sampleRentalHost.NewRental samplePlatform ∧ sampleRentalHost.InvoicedExactly samplePlatform
        [sampleTurn 1704067231, sampleTurn 1704067290, sampleTurn 1704067355] :=
  ⟨sampleRentalHost_new, (cycles_invoiced_iff _ _ sampleRentalHost_new _).mpr (by decide +kernel)⟩

/-- The first run invoices nothing although a cycle is over, and a cycle is missing when the
remainders of two runs make up for one. -/
theorem cycles_not_invoiced : sampleRentalHost.NewRental samplePlatform ∧
      ¬ sampleRentalHost.InvoicedExactly samplePlatform [sampleTurn 1704067290] ∧
      ¬ sampleRentalHost.InvoicedExactly samplePlatform
        [sampleTurn 1704067231, sampleTurn 1704067320, sampleTurn 1704067360] := by
  refine ⟨sampleRentalHost_new, ?_, ?_⟩
  · intro h
    have hfirst := h [] (sampleTurn 1704067290) (prefix_rfl)
    exact absurd hfirst (by decide +kernel)
  intro h
  have hlast := h [sampleTurn 1704067231, sampleTurn 1704067320] (sampleTurn 1704067360)
    (prefix_rfl)
  exact absurd hlast (by decide +kernel)

end ContractActor

end DMS.Tokenomics
