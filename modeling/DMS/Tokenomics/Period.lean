import DMS.Core.GoTime

/-! # Billing periods

`utils/convert/period.go`. A contract is billed in cycles of a number of periods. The time
since the last invoice is cut down to whole cycles, and the invoiced time begins at the
first period boundary that is not before the last invoice.
-/

namespace DMS.Tokenomics

def minute : Int := 60 * GoTime.second

def hour : Int := 60 * minute

def parsePaymentPeriod (period : GoString) : Except String Int :=
  if period = ascii "minute" then .ok minute
  else if period = ascii "hour" then .ok hour
  else if period = ascii "day" then .ok (24 * hour)
  else if period = ascii "week" then .ok (7 * 24 * hour)
  else if period = ascii "month" then .ok (30 * 24 * hour)
  else .error ("unsupported payment period: " ++ printed period)

structure ElapsedPeriods where
  billingCyclesElapsed : Int
  periodStart : GoTime
  periodEnd : GoTime
deriving DecidableEq, Repr

def calculateElapsedPeriods (lastInvoiceAt now : GoTime) (periodDuration periodCount : Int) :
    ElapsedPeriods :=
  let periodCount := if periodCount ≤ 0 then 1 else periodCount
  let elapsed := now.sub lastInvoiceAt
  let periodsElapsed := elapsed.tdiv periodDuration
  let billingCyclesElapsed := periodsElapsed.tdiv periodCount
  if billingCyclesElapsed < 1 then ⟨0, 0, 0⟩
  else
    let truncated := lastInvoiceAt.truncate periodDuration
    let periodStart :=
      if truncated < lastInvoiceAt then truncated + periodDuration else truncated
    let periodsToInvoice := billingCyclesElapsed * periodCount
    ⟨billingCyclesElapsed, periodStart, periodStart + periodDuration * periodsToInvoice⟩

def cycleLength (periodDuration periodCount : Int) : Int :=
  periodDuration * if periodCount ≤ 0 then 1 else periodCount

/-- The first period boundary that is not before `t`. Boundaries are counted from the zero
time. -/
def nextBoundary (periodDuration t : Int) : Int := t + (-t) % periodDuration

variable {period : GoString} {d p : Int}

theorem parsePaymentPeriod_eq_ok
    (h : parsePaymentPeriod period = .ok d) : minute ≤ d ∧ minute ∣ d := by
  unfold parsePaymentPeriod at h
  split at h
  · cases h; exact ⟨Int.le_refl _, Int.dvd_refl _⟩
  split at h
  · cases h; decide
  split at h
  · cases h; decide
  split at h
  · cases h; decide
  split at h
  · cases h; decide
  · cases h

theorem parsePaymentPeriod_pos (h : parsePaymentPeriod period = .ok d) : 0 < d := by
  have hle := (parsePaymentPeriod_eq_ok h).1
  have hpos : 0 < minute := by decide
  omega

section Boundaries

variable {p t : Int}

theorem le_nextBoundary (hp : 0 < p) : t ≤ nextBoundary p t := by
  have h := Int.emod_nonneg (-t) (by omega : p ≠ 0)
  unfold nextBoundary
  omega

theorem dvd_nextBoundary (p t : Int) : p ∣ nextBoundary p t := by
  have h := Int.mul_ediv_add_emod (-t) p
  refine ⟨-((-t) / p), ?_⟩
  rw [nextBoundary, Int.mul_neg]
  omega

theorem nextBoundary_eq_self_iff : nextBoundary p t = t ↔ p ∣ t := by
  constructor
  · intro h
    rw [← h]
    exact dvd_nextBoundary p t
  intro h
  have hzero : (-t) % p = 0 := Int.emod_eq_zero_of_dvd (Int.dvd_neg.mpr h)
  unfold nextBoundary
  omega

theorem truncate_add_eq_nextBoundary (hp : 0 < p) :
    (if GoTime.truncate t p < t then GoTime.truncate t p + p else GoTime.truncate t p) =
      nextBoundary p t := by
  have hdiv := Int.mul_ediv_add_emod t p
  have hnonneg := Int.emod_nonneg t (by omega : p ≠ 0)
  have hlt := Int.emod_lt_of_pos t hp
  have htruncate : GoTime.truncate t p = t - t % p := by
    rw [GoTime.truncate, if_neg (by omega)]
  rw [htruncate]
  unfold GoTime
  split
  · next h =>
    have hmod : (-t) % p = p - t % p := by
      rw [show -t = p - t % p + p * (-(t / p) - 1) by rw [Int.mul_sub, Int.mul_neg]; omega,
        Int.add_mul_emod_self_left]
      exact Int.emod_eq_of_lt (by omega) (by omega)
    unfold nextBoundary
    omega
  have hzero : t % p = 0 := by omega
  rw [nextBoundary_eq_self_iff.mpr (Int.dvd_of_emod_eq_zero hzero)]
  omega

end Boundaries

theorem cycleLength_pos (hp : 0 < p) (count : Int) : 0 < cycleLength p count := by
  unfold cycleLength
  split
  · omega
  · exact Int.mul_pos hp (by omega)

theorem minute_le_cycleLength
    (h : parsePaymentPeriod period = .ok p) (count : Int) : minute ≤ cycleLength p count := by
  have hle := (parsePaymentPeriod_eq_ok h).1
  have hpos := parsePaymentPeriod_pos h
  unfold cycleLength
  split
  · omega
  calc minute ≤ p := hle
    _ = p * 1 := (Int.mul_one p).symm
    _ ≤ p * count := Int.mul_le_mul_of_nonneg_left (by omega) (by omega)

theorem tdiv_nonpos {e : Int} (he : e ≤ 0) (hd : 0 ≤ d) : e.tdiv d ≤ 0 := by
  have h := Int.tdiv_nonneg (by omega : 0 ≤ -e) hd
  rw [Int.neg_tdiv] at h
  omega

theorem calculateElapsedPeriods_eq (hp : 0 < p) (last now count : Int) :
    calculateElapsedPeriods last now p count = let c := cycleLength p count
      let cycles := GoTime.sub now last / c
      if c ≤ GoTime.sub now last then
        ⟨cycles, nextBoundary p last, nextBoundary p last + c * cycles⟩
      else ⟨0, 0, 0⟩ := by
  have hcpos := cycleLength_pos hp count
  unfold calculateElapsedPeriods
  simp only [truncate_add_eq_nextBoundary hp]
  unfold cycleLength at hcpos ⊢
  generalize hn : (if count ≤ 0 then 1 else count) = n at hcpos ⊢
  have hnpos : 0 < n := by
    rw [← hn]
    split <;> omega
  generalize GoTime.sub now last = e
  by_cases he : 0 ≤ e
  · have hcycles : (e.tdiv p).tdiv n = e / (p * n) := by
      rw [Int.tdiv_eq_ediv_of_nonneg he,
        Int.tdiv_eq_ediv_of_nonneg (Int.ediv_nonneg he (Int.le_of_lt hp)),
        Int.ediv_ediv_of_nonneg (Int.le_of_lt hp)]
    rw [hcycles]
    have hle : e / (p * n) < 1 ↔ ¬ p * n ≤ e := by
      rw [Int.ediv_lt_iff_lt_mul hcpos]
      omega
    split
    · next h => rw [if_neg (hle.mp h)]
    · next h =>
      rw [if_pos (by simpa [hle] using h), Int.mul_comm (e / (p * n)) n, ← Int.mul_assoc]
  have hneg : (e.tdiv p).tdiv n < 1 := by
    have hperiods : e.tdiv p ≤ 0 := tdiv_nonpos (by omega) (Int.le_of_lt hp)
    have hcycles := tdiv_nonpos hperiods (Int.le_of_lt hnpos)
    omega
  rw [if_pos hneg, if_neg (by omega)]

end DMS.Tokenomics
