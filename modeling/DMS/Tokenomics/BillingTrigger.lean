import DMS.Tokenomics.Invoices

/-! # When a contract is looked at again

`billing_trigger.go` and the functions of `billing_scheduler.go` that set it up. The cycle is a
product in 64 bits, and nothing bounds the number of periods from above. After an invoice the next
check is counted from the invoice and not from the clock.
-/

namespace DMS.Tokenomics

open GoTime

def calculateBillingCycle (pd : PaymentDetails) : Int :=
  let paymentPeriodCount := if pd.paymentPeriodCount ≤ 0 then 1 else pd.paymentPeriodCount
  match parsePaymentPeriod pd.paymentPeriod with
  | .error _ => int64 (hour * paymentPeriodCount)
  | .ok periodDuration => int64 (periodDuration * paymentPeriodCount)

def calculateCheckInterval (billingCycle : Int) : Int :=
  let checkInterval := max (billingCycle.tdiv 10) (30 * second)
  let maxInterval := min (billingCycle.tdiv 2) (24 * hour)
  min checkInterval maxInterval

structure BillingCycleTrigger where
  billingCycle : Int
  lastInvoiceAt : GoTime
  checkInterval : Int
  startedAt : GoTime

namespace BillingCycleTrigger

/-- `none` is the panic of the division. -/
def calculateNextCheck (now : GoTime) (t : BillingCycleTrigger) : Option GoTime :=
  if t.lastInvoiceAt.isZero then some (max (t.startedAt + t.billingCycle) (now + t.checkInterval))
  else if t.billingCycle = 0 then none
  else some (max (t.lastInvoiceAt +
    int64 (((now.sub t.lastInvoiceAt).tdiv t.billingCycle + 1) * t.billingCycle))
      (now + t.checkInterval))

/-- The next check that `NewBillingCycleTrigger`, `MarkTriggered` and `Reset` set. -/
def reset (now : GoTime) (t : BillingCycleTrigger) : Option GoTime :=
  { t with startedAt := now }.calculateNextCheck now

def updateLastInvoiceAt (invoiceTime now : GoTime) (t : BillingCycleTrigger) : Option GoTime :=
  { t with lastInvoiceAt := invoiceTime }.calculateNextCheck (min invoiceTime now)

/-- The trigger of a contract, at any time. -/
def ofContract (pd : PaymentDetails) (lastInvoiceAt startedAt : GoTime) : BillingCycleTrigger :=
  let billingCycle := calculateBillingCycle pd
  ⟨billingCycle, lastInvoiceAt, calculateCheckInterval billingCycle, startedAt⟩

/-- The next check is in the future, and not too far in it. -/
def Armed (t : BillingCycleTrigger) (now lastInvoiceAt : GoTime) (next : Option GoTime) : Prop :=
  0 < t.billingCycle ∧ ∃ check, next = some check ∧ now < check ∧
    (lastInvoiceAt ≤ now → check ≤ now + max t.billingCycle t.checkInterval)

/-- The invoice, or the start of a trigger without one, is less than a cycle old. -/
def Recent (t : BillingCycleTrigger) (invoiceTime now : GoTime) : Prop :=
  let since := if invoiceTime.isZero then t.startedAt else invoiceTime
  invoiceTime ≤ now → since ≤ now ∧
    now < max (since + t.billingCycle) (invoiceTime + t.checkInterval)

end BillingCycleTrigger

theorem int64_le {n : Int} (h : 0 ≤ n) : int64 n ≤ n := by
  rw [int64, Int.bmod_def]
  omega

theorem calculateBillingCycle_eq (pd : PaymentDetails) :
    int64 (calculateBillingCycle pd) = calculateBillingCycle pd ∧
      calculateBillingCycle pd % 2 = 0 := by
  have heven {d} (n : Int) (h : minute ∣ d) : int64 (d * n) % 2 = 0 := by
    obtain ⟨k, hk⟩ := Int.dvd_trans (by decide : (2 : Int) ∣ minute) h
    rw [hk, Int.mul_assoc, int64, Int.bmod_def]
    omega
  unfold calculateBillingCycle
  dsimp only
  cases h : parsePaymentPeriod pd.paymentPeriod with
  | error e => exact ⟨Int.bmod_bmod .., heven _ (by decide)⟩
  | ok d => exact ⟨Int.bmod_bmod .., heven _ (parsePaymentPeriod_eq_ok h).2⟩

theorem calculateCheckInterval_bounds {cycle : Int} (hpos : 0 < cycle) (heven : cycle % 2 = 0) :
    0 < calculateCheckInterval cycle ∧ calculateCheckInterval cycle ≤ cycle := by
  unfold calculateCheckInterval hour minute second
  rw [Int.tdiv_eq_ediv_of_nonneg (by omega), Int.tdiv_eq_ediv_of_nonneg (by omega)]
  dsimp only
  omega

theorem boundary_le {last now cycle : Int} (hpos : 0 < cycle) (h : last ≤ now) :
    last + int64 (((sub now last).tdiv cycle + 1) * cycle) ≤ now + cycle := by
  have hsub : 0 ≤ sub now last ∧ sub now last ≤ now - last := by
    unfold sub GoTime
    omega
  rw [Int.tdiv_eq_ediv_of_nonneg hsub.1, Int.add_mul, Int.one_mul]
  have hfloor := Int.ediv_mul_le (sub now last) (by omega : cycle ≠ 0)
  have hnonneg := Int.mul_nonneg (Int.ediv_nonneg hsub.1 (Int.le_of_lt hpos)) (Int.le_of_lt hpos)
  have hcut := int64_le (Int.add_nonneg hnonneg (Int.le_of_lt hpos))
  omega

namespace BillingCycleTrigger

section NextCheck

variable {t : BillingCycleTrigger} (hpos : 0 < t.billingCycle)

include hpos

theorem calculateNextCheck_spec (hcheck : 0 < t.checkInterval) (now : Int) :
    ∃ check, t.calculateNextCheck now = some check ∧ now < check ∧ (t.lastInvoiceAt ≤ now →
      t.startedAt ≤ now → check ≤ now + max t.billingCycle t.checkInterval) := by
  unfold calculateNextCheck GoTime
  split
  · exact ⟨_, rfl, by omega, by omega⟩
  rw [if_neg (by omega)]
  refine ⟨_, rfl, by omega, fun hlast _ => ?_⟩
  have hle := boundary_le hpos hlast
  omega

theorem calculateNextCheck_invoice (hfits : int64 t.billingCycle = t.billingCycle) :
    t.calculateNextCheck t.lastInvoiceAt = some
      (max ((if t.lastInvoiceAt.isZero then t.startedAt else t.lastInvoiceAt) + t.billingCycle)
        (t.lastInvoiceAt + t.checkInterval)) := by
  have hsame : sub t.lastInvoiceAt t.lastInvoiceAt = 0 := by
    unfold sub GoTime
    omega
  unfold calculateNextCheck
  split
  · rfl
  rw [if_neg (by omega), hsame, Int.zero_tdiv, Int.zero_add, Int.one_mul, hfits]

end NextCheck

/-- A trigger is armed for the future exactly when its cycle is positive and, after an invoice,
the invoice is recent. -/
theorem armed_iff (pd : PaymentDetails) (lastInvoiceAt startedAt now : GoTime) :
    let t := ofContract pd lastInvoiceAt startedAt
    (t.Armed now lastInvoiceAt (t.reset now) ↔ 0 < t.billingCycle) ∧
      ∀ invoiceTime, t.Armed now invoiceTime (t.updateLastInvoiceAt invoiceTime now) ↔
        0 < t.billingCycle ∧ t.Recent invoiceTime now := by
  intro t
  obtain ⟨hfits, heven⟩ := calculateBillingCycle_eq pd
  have hbounds (hpos : 0 < t.billingCycle) :
      0 < t.checkInterval ∧ t.checkInterval ≤ t.billingCycle :=
    calculateCheckInterval_bounds hpos heven
  constructor
  · refine and_iff_left_of_imp fun hpos => ?_
    obtain ⟨check, heq, hlt, hle⟩ := calculateNextCheck_spec
      (t := { t with startedAt := now }) hpos (hbounds hpos).1 now
    exact ⟨check, heq, hlt, fun hlast => hle hlast (Int.le_refl _)⟩
  intro invoiceTime
  refine and_congr_right fun hpos => ?_
  have hle := hbounds hpos
  by_cases hpast : invoiceTime ≤ now
  · have hnext :=
      calculateNextCheck_invoice (t := { t with lastInvoiceAt := invoiceTime }) hpos hfits
    rw [updateLastInvoiceAt, Int.min_eq_left hpast, hnext, Recent]
    simp only [Option.some.injEq, exists_eq_left']
    generalize (if invoiceTime.isZero then t.startedAt else invoiceTime) = since
    unfold GoTime at *
    omega
  obtain ⟨check, heq, hlt, -⟩ := calculateNextCheck_spec
    (t := { t with lastInvoiceAt := invoiceTime }) hpos hle.1 now
  refine iff_of_true ⟨check, ?_, hlt, fun hle => absurd hle hpast⟩ fun hle => absurd hle hpast
  rw [updateLastInvoiceAt, Int.min_eq_right (Int.le_of_not_le hpast)]
  exact heq

/-- A contract over `2 ^ 53` minutes is accepted, and registering it divides by a cycle of zero. -/
theorem trigger_not_armed : let pd := { sampleRental with paymentPeriodCount := 2 ^ 53 }
    let t := ofContract pd (unixTime 1704067230 0) (unixTime 1704067290 0)
    (sampleRequest pd 0).validate = none ∧ t.billingCycle = 0 ∧ t.reset t.startedAt = none := by
  decide +kernel

end BillingCycleTrigger

end DMS.Tokenomics
