import DMS.Core.Reach
import DMS.Core.Windows
import DMS.Tokenomics.Invoices
import Mathlib.Data.List.Dedup

/-! # Counting the starts of allocations and deployments

The window of each invoice is closed at both ends and begins at the whole second of the last run,
so that an event between that second and the run is in two windows.
-/

namespace DMS.Tokenomics

open Windows GoTime List

inductive Counted
  | allocations
  | deployments
deriving DecidableEq, Repr

namespace Counted

def model : Counted → PaymentModel
  | allocations => .payPerAllocation
  | deployments => .payPerDeployment

def eventType : Counted → EventType
  | allocations => .startAllocation
  | deployments => .deploymentStart

def id : Counted → EventData → GoString
  | allocations => EventData.allocationID
  | deployments => EventData.deploymentID

def usage : Counted → Int → UsageData
  | allocations => .payPerAllocation
  | deployments => .payPerDeployment

theorem not_rounds (k : Counted) : ¬ k.model.roundsToPeriods := by
  cases k <;> decide

end Counted

namespace ContractActor

def startEvents (k : Counted) (a : ContractActor) : List Usage := a.store.events.filter
    (eventFilters a.contract.contractDID (headContractDID a.contract) [k.eventType] 0 0).admits

/-- A contract that counts starts, before its first invoice. Its start events have identifiers
of their own and were stored after the start date. -/
structure NewCounting (k : Counted) (a : ContractActor) : Prop where
  model : a.contract.paymentDetails.paymentModel = k.model
  new : a.invoices = []
  unset : a.lastInvoiceAt = GoTime.unixTime 0 0
  named : ∀ u ∈ a.startEvents k, ∃ data, u.data = some data ∧ k.id data ≠ []
  distinct : ((a.startEvents k).map fun u => u.data.map k.id).Nodup
  after : ∀ u ∈ a.startEvents k, a.contract.duration.startDate < u.timestamp

def usagesInvoiced (a : ContractActor) : Int := (a.invoices.map Invoice.usages).sum

/-- The invoices count the events up to the last run that produced one. -/
def CountedExactly (k : Counted) (a : ContractActor) : Prop :=
  a.usagesInvoiced = Windows.countUpTo Usage.timestamp (a.startEvents k) a.lastRun

instance (k : Counted) (a : ContractActor) : Decidable (a.CountedExactly k) :=
  inferInstanceAs (Decidable (_ = _))

/-- No event was stored between the stored time of the last invoice and the run that sent it,
when the contract is invoiced again. -/
def NoRecount (P : Platform) (k : Counted) (a : ContractActor) (t : BillingTurn) : Prop :=
  a.Bills P t → ∀ u ∈ a.startEvents k, ¬ (a.lastInvoiceAt ≤ u.timestamp ∧ u.timestamp ≤ a.lastRun)

instance (P : Platform) (k : Counted) (a : ContractActor) (t : BillingTurn) :
    Decidable (a.NoRecount P k t) :=
  inferInstanceAs (Decidable (_ → ∀ u ∈ _, ¬ (_ ∧ _)))

end ContractActor

theorem filterMap_map_some {α β : Type} {f : α → Option β} {l : List α}
    (h : ∀ x ∈ l, (f x).isSome) : (l.filterMap f).map some = l.map f := by
  induction l with
  | nil => rfl
  | cons x l ih =>
    obtain ⟨y, hy⟩ := Option.isSome_iff_exists.mp (h x (.head _))
    rw [filterMap_cons_some hy, map_cons, map_cons, hy, ih fun x hx => h x (.tail _ hx)]

theorem countUnique_eq_length {id : EventData → GoString} {l : List Usage}
    (hnamed : ∀ u ∈ l, ∃ data, u.data = some data ∧ id data ≠ [])
    (hdistinct : (l.map fun u => u.data.map id).Nodup) : countUnique id l = l.length := by
  have hsome : (l.filterMap fun u => u.data.map id).map some = l.map fun u => u.data.map id := by
    apply filterMap_map_some
    intro u hu
    obtain ⟨data, hdata, -⟩ := hnamed u hu
    simp [hdata]
  have hnodup : (l.filterMap fun u => u.data.map id).Nodup := by
    rw [← hsome] at hdistinct
    exact hdistinct.of_map _
  have hfilter : (l.filterMap fun u => u.data.map id).filter (· ≠ []) =
      l.filterMap fun u => u.data.map id := by
    apply filter_eq_self.mpr
    intro name hname
    obtain ⟨u, hu, hname⟩ := mem_filterMap.mp hname
    obtain ⟨data, hdata, hne⟩ := hnamed u hu
    rw [hdata, Option.map_some, Option.some.injEq] at hname
    simpa [← hname] using hne
  have hlength := congrArg length hsome
  rw [length_map, length_map] at hlength
  rw [countUnique, hfilter, List.Nodup.dedup hnodup, hlength]

section Counting

variable {P : Platform} {k : Counted}

theorem countStarts_eq_ok {s : UsageStore} {q did head last now n byContract failure}
    (hby : byContract = countUnique k.id (s.queryEvents ⟨did, [], [k.eventType], last, now⟩))
    (h : countStarts s q k.id k.eventType byContract failure last now head = .ok n) :
    n = countUnique k.id (s.queryEvents (eventFilters did head [k.eventType] last now)) := by
  unfold countStarts at h
  unfold eventFilters
  split at h
  · next hhead =>
    obtain ⟨-, h⟩ := Outcome.ite_error_eq_ok.mp h
    cases h
    rw [if_pos hhead]
  rename_i hhead
  obtain ⟨-, h⟩ := Outcome.ite_error_eq_ok.mp h
  cases h
  rw [if_neg hhead, hby]

theorem count_of_source {s q c last now usage} (h : Source P s q c last now usage)
    (hmodel : c.paymentDetails.paymentModel = k.model) :
    minute ≤ GoTime.sub now last ∧ usage = k.usage (countUnique k.id
      (s.queryEvents (eventFilters c.contractDID (headContractDID c) [k.eventType] last now))) := by
  cases h with
  | checked h =>
    have hcollected : ∃ n, usage = k.usage n ∧
        (∃ el, elapsedPeriods c last now = .ok el) ∧ n = countUnique k.id (s.queryEvents
          (eventFilters c.contractDID (headContractDID c) [k.eventType] last now)) := by
      unfold processorCheck at h
      rw [hmodel] at h
      cases k with
      | allocations | deployments =>
        obtain ⟨n, hn, rfl⟩ := Outcome.map_eq_ok.mp h
        obtain ⟨helapsed, hn⟩ := collectWhenElapsed_eq_ok hn
        exact ⟨n, rfl, helapsed, countStarts_eq_ok rfl hn⟩
    obtain ⟨n, rfl, ⟨el, helapsed⟩, rfl⟩ := hcollected
    obtain ⟨p, hp, hle, -⟩ := elapsedPeriods_eq_ok helapsed
    exact ⟨Int.le_trans (minute_le_cycleLength hp _) hle, rfl⟩
  | proRatedRental h | proRatedPeriodic h => cases k <;> cases hmodel.symm.trans h

end Counting

namespace ContractActor

section Turn

variable {P : Platform} {k : Counted} {a : ContractActor} {t : BillingTurn}

section Counting

variable (hmodel : ¬ a.contract.paymentDetails.paymentModel.roundsToPeriods)

include hmodel

theorem scheduledAction_running (h : a.scheduledAction P t ≠ .nothing) :
    a.contract.currentState ≠ .terminated ∧
      a.scheduledAction P t = a.runningInvoice P (.regular t.order t.time) := by
  unfold scheduledAction billingAction at h ⊢
  split_ifs at h ⊢ with hended _ _ _ hterminated
  any_goals exact absurd rfl h
  · exact absurd ⟨.inl hterminated, hmodel⟩ hended
  · exact ⟨hterminated, rfl⟩

theorem send_of_counting {since now usage} (h : a.scheduledAction P t = .send since usage now) :
    a.contract.billableUntil t.time = t.time ∧ a.lastInvoiceAt ≠ GoTime.unixTime 0 0 := by
  obtain ⟨hrunning, heq⟩ := scheduledAction_running hmodel (by rw [h]; nofun)
  refine ⟨if_neg hrunning, ?_⟩
  intro hunset
  rw [heq, runningInvoice, ite_nothing_eq_send] at h
  simp [hunset] at h

theorem save_of_counting {x} (h : a.scheduledAction P t = .save x) :
    x = a.contract.duration.startDate := by
  obtain ⟨-, heq⟩ := scheduledAction_running hmodel (by rw [h]; nofun)
  rw [heq] at h
  unfold runningInvoice at h
  dsimp only at h
  rw [if_neg fun hperiodic => hmodel (.inr hperiodic)] at h
  split at h
  · cases h
  split at h
  · cases h
    rfl
  · split at h <;> cases h

end Counting

@[simp] theorem startEvents_turn : (a.turn P t).startEvents k = a.startEvents k := by
  simp [startEvents]

/-- What is invoiced beyond the events up to the last run. -/
def excess (k : Counted) (a : ContractActor) : Int :=
  a.usagesInvoiced - Windows.countUpTo Usage.timestamp (a.startEvents k) a.lastRun

structure Tracks (a : ContractActor) : Prop where
  started : a.contract.duration.startDate ≤ a.lastRun
  first : a.invoices = [] → a.lastInvoiceAt = GoTime.unixTime 0 0 ∨
    a.lastInvoiceAt = GoTime.wholeSeconds a.contract.duration.startDate
  stored : a.lastInvoiceAt = GoTime.unixTime 0 0 ∨
    GoTime.HasUnixNano a.lastInvoiceAt ∧ a.lastInvoiceAt ≤ a.lastRun

/-- The part of a counting contract that does not change. -/
structure Counts (k : Counted) (a : ContractActor) : Prop where
  model : a.contract.paymentDetails.paymentModel = k.model
  named : ∀ u ∈ a.startEvents k, ∃ data, u.data = some data ∧ k.id data ≠ []
  distinct : ((a.startEvents k).map fun u => u.data.map k.id).Nodup
  startDate : GoTime.HasUnixNano (GoTime.wholeSeconds a.contract.duration.startDate)

/-- A run after the last one at an instant that queries can express. -/
structure Follows (a : ContractActor) (t : BillingTurn) : Prop where
  later : a.invoices = [] ∨ a.lastRun < t.time
  time : GoTime.HasUnixNano t.time
  saved : GoTime.HasUnixNano (GoTime.wholeSeconds t.time)

theorem countUnique_between (h : a.Counts k) {lo hi} (hlo : GoTime.HasUnixNano lo)
    (hhi : GoTime.HasUnixNano hi) :
    countUnique k.id (a.store.queryEvents (eventFilters a.contract.contractDID
      (headContractDID a.contract) [k.eventType] lo hi)) =
      Windows.countIn Usage.timestamp (a.startEvents k) lo hi := by
  have hquery : a.store.queryEvents (eventFilters a.contract.contractDID
      (headContractDID a.contract) [k.eventType] lo hi) =
      (a.startEvents k).filter fun u => lo ≤ u.timestamp ∧ u.timestamp ≤ hi := by
    rw [startEvents, filter_filter]
    apply filter_congr
    intro u _
    rw [admits_between hlo hhi, Bool.and_comm]
  rw [hquery, countUnique_eq_length]
  · rw [countIn, countP_eq_length_filter]
  · intro u hu
    exact h.named u (mem_of_mem_filter hu)
  · exact h.distinct.sublist (filter_sublist.map _)

theorem requests_usage (i : CheckInputs) (since now : GoTime) (n : Int) :
    a.requests i since (k.usage n) now = [⟨a.contract, n, k.usage n, since, now, i.now⟩] := by
  cases k <;> rfl

structure Invoiced (P : Platform) (k : Counted) (a : ContractActor) (t : BillingTurn) : Prop where
  since : a.lastInvoiceAt ≤ a.lastRun
  upTo : a.lastRun ≤ t.time
  last : (a.turn P t).lastRun = t.time
  saved : (a.turn P t).lastInvoiceAt = GoTime.wholeSeconds t.time
  some : (a.turn P t).invoices ≠ []
  usages : (a.turn P t).usagesInvoiced = a.usagesInvoiced +
    Windows.countIn Usage.timestamp (a.startEvents k) a.lastInvoiceAt t.time

theorem invoiced_of_bills (h : a.Counts k) (htracks : a.Tracks) (hfollows : a.Follows t)
    (hbills : a.Bills P t) : a.Invoiced P k t := by
  obtain ⟨since, usage, now, hsend⟩ := hbills
  have hmodel : ¬ a.contract.paymentDetails.paymentModel.roundsToPeriods := by
    rw [h.model]
    exact k.not_rounds
  obtain ⟨huntil, hset⟩ := send_of_counting hmodel hsend
  obtain ⟨rfl, rfl, hsource⟩ := source_of_scheduled hsend
  obtain ⟨helapsed, rfl⟩ := count_of_source hsource h.model
  obtain ⟨hstored, hsince⟩ := htracks.stored.resolve_left hset
  rw [huntil] at hsend helapsed
  rw [countUnique_between h hstored hfollows.time] at hsend
  have hupTo : a.lastRun ≤ t.time := by
    rcases hfollows.later with hnew | hlater
    · -- a cycle has passed since the second of the start date
      have hstart : a.lastRun = a.contract.duration.startDate := by simp [lastRun, hnew]
      have hfirst := (htracks.first hnew).resolve_left hset
      have hlt := lt_wholeSeconds_add a.contract.duration.startDate
      have hpassed := le_of_le_sub (by decide) helapsed
      unfold minute at hpassed
      unfold GoTime at *
      omega
    · exact Int.le_of_lt hlater
  have hturn := turn_of_send hsend
  rw [requests_usage] at hturn
  refine ⟨hsince, hupTo, lastRun_of_bills ⟨_, _, _, hsend⟩, ?_, ?_, ?_⟩
  · simp [hturn, lastInvoiceAt]
  · simp [hturn]
  · simp [hturn, usagesInvoiced]

theorem tracks_turn (h : a.Counts k) (htracks : a.Tracks) (hfollows : a.Follows t) :
    (a.turn P t).Tracks := by
  by_cases hbills : a.Bills P t
  · have hinvoiced := invoiced_of_bills h htracks hfollows hbills
    refine ⟨?_, fun hnew => absurd hnew hinvoiced.some, .inr ?_⟩
    · rw [contract_turn, hinvoiced.last]
      exact Int.le_trans htracks.started hinvoiced.upTo
    · rw [hinvoiced.saved, hinvoiced.last]
      exact ⟨hfollows.saved, wholeSeconds_le _⟩
  have hrun := lastRun_of_not_bills hbills
  cases haction : a.scheduledAction P t with
  | nothing => rwa [turn_of_nothing haction]
  | save x =>
    have hmodel : ¬ a.contract.paymentDetails.paymentModel.roundsToPeriods := by
      rw [h.model]
      exact k.not_rounds
    obtain rfl := save_of_counting hmodel haction
    have hlast : (a.turn P t).lastInvoiceAt = wholeSeconds a.contract.duration.startDate := by
      simp [turn_of_save haction, lastInvoiceAt]
    refine ⟨?_, fun _ => .inr ?_, .inr ⟨?_, ?_⟩⟩
    · rw [contract_turn, hrun]
      exact htracks.started
    · rw [hlast, contract_turn]
    · rw [hlast]
      exact h.startDate
    · rw [hlast, hrun]
      exact Int.le_trans (wholeSeconds_le _) htracks.started
  | send since usage now => exact absurd ⟨since, usage, now, haction⟩ hbills

theorem excess_turn (h : a.Counts k) (htracks : a.Tracks) (hfollows : a.Follows t) :
    (a.turn P t).excess k = a.excess k + if a.Bills P t then
        (Windows.countIn Usage.timestamp (a.startEvents k) a.lastInvoiceAt a.lastRun : Int)
      else 0 := by
  unfold excess
  rw [startEvents_turn]
  split
  · next hbills =>
    have hinvoiced := invoiced_of_bills h htracks hfollows hbills
    have hcount := countUpTo_add_countIn Usage.timestamp (a.startEvents k)
      hinvoiced.since hinvoiced.upTo
    rw [hinvoiced.usages, hinvoiced.last]
    omega
  rename_i hbills
  rw [lastRun_of_not_bills hbills, usagesInvoiced, invoices_of_not_bills hbills, usagesInvoiced]
  omega

theorem counts_turn (h : a.Counts k) : (a.turn P t).Counts k :=
  ⟨by simpa using h.model, by simpa using h.named, by simpa using h.distinct,
    by simpa using h.startDate⟩

theorem follows_turn (h : a.Counts k) (htracks : a.Tracks) (hfollows : a.Follows t)
    {t' : BillingTurn} (hlt : t.time < t'.time) (hnext : a.Follows t') :
    (a.turn P t).Follows t' := by
  refine ⟨?_, hnext.time, hnext.saved⟩
  by_cases hbills : a.Bills P t
  · rw [(invoiced_of_bills h htracks hfollows hbills).last]
    exact .inr hlt
  · rw [invoices_of_not_bills hbills, lastRun_of_not_bills hbills]
    exact hnext.later

theorem noRecount_iff : a.NoRecount P k t ↔ (a.Bills P t →
      Windows.countIn Usage.timestamp (a.startEvents k) a.lastInvoiceAt a.lastRun = 0) := by
  simp [NoRecount, countIn, countP_eq_zero]

end Turn

theorem excess_run {P k} (turns : List BillingTurn) (a : ContractActor)
    (h : a.Counts k) (htracks : a.Tracks) (hsorted : turns.Pairwise fun t t' => t.time < t'.time)
    (hfollows : ∀ t ∈ turns, a.Follows t) (hnonneg : 0 ≤ a.excess k) :
    (turns.foldl (turn P) a).excess k = 0 ↔
      a.excess k = 0 ∧ Reach.Passes (NoRecount P k) (turn P) a turns := by
  induction turns generalizing a with
  | nil => simp [Reach.Passes]
  | cons t turns ih =>
    obtain ⟨hlater, hsorted⟩ := pairwise_cons.mp hsorted
    have hfirst := hfollows t (.head _)
    have hturn := excess_turn (P := P) h htracks hfirst
    have hrest : ∀ t' ∈ turns, (a.turn P t).Follows t' := fun t' ht' =>
      follows_turn h htracks hfirst (hlater t' ht') (hfollows t' (.tail _ ht'))
    have hstep : (a.turn P t).excess k = 0 ↔ a.excess k = 0 ∧ a.NoRecount P k t := by
      rw [hturn, noRecount_iff]
      split
      · next hbills => simp only [hbills, true_imp_iff]; omega
      · next hbills => simp [hbills]
    have hnonneg' : 0 ≤ (a.turn P t).excess k := by
      rw [hturn]
      split <;> omega
    rw [foldl_cons, ih _ (counts_turn h) (tracks_turn h htracks hfirst) hsorted hrest
      hnonneg', hstep, Reach.Passes, and_assoc]

/-- The usages on all invoices are the start events up to the last run that invoiced if and
only if no run that invoices counts an event again. -/
theorem starts_counted_iff (P : Platform) (k : Counted) (a : ContractActor)
    (h : a.NewCounting k) (turns : List BillingTurn)
    (hsorted : turns.Pairwise fun t t' => t.time < t'.time)
    (hstart : GoTime.HasUnixNano (GoTime.wholeSeconds a.contract.duration.startDate))
    (htimes : ∀ t ∈ turns,
      GoTime.HasUnixNano t.time ∧ GoTime.HasUnixNano (GoTime.wholeSeconds t.time)) :
    (turns.foldl (turn P) a).CountedExactly k ↔ Reach.Passes (NoRecount P k) (turn P) a turns := by
  have hrun : a.lastRun = a.contract.duration.startDate := by simp [lastRun, h.new]
  have hexcess : a.excess k = 0 := by
    have hnone : countUpTo Usage.timestamp (a.startEvents k) a.lastRun = 0 := by
      rw [countUpTo, countP_eq_zero, hrun]
      intro u hu
      have hafter := h.after u hu
      simpa using hafter
    simp [excess, usagesInvoiced, h.new, hnone]
  have htracks : a.Tracks := ⟨Int.le_of_eq hrun.symm, fun _ => .inl h.unset, .inl h.unset⟩
  have hiff := excess_run (P := P) turns a ⟨h.model, h.named, h.distinct, hstart⟩ htracks hsorted
    (fun t ht => ⟨.inl h.new, (htimes t ht).1, (htimes t ht).2⟩) (by omega)
  rw [← and_iff_right (b := Reach.Passes _ _ _ _) hexcess, ← hiff]
  unfold CountedExactly excess
  omega

def sampleCountingHost (after : Int64) : ContractActor := registered (ascii "contract")
    (sampleRequest ⟨.payPerAllocation, [], [], [], ascii "minute", 1, []⟩ 0)
    [sampleEvent .startAllocation after]

theorem starts_counted_sample : let a := sampleCountingHost 30000000000
    let turns := [sampleTurn 1704067231, sampleTurn 1704067320, sampleTurn 1704067390]
    a.NewCounting .allocations ∧ (turns.foldl (turn samplePlatform) a).invoices.length = 2 ∧
      (turns.foldl (turn samplePlatform) a).CountedExactly .allocations := by
  have hnew : (sampleCountingHost 30000000000).NewCounting .allocations :=
    ⟨rfl, rfl, by decide +kernel, by decide +kernel, by decide +kernel, by decide +kernel⟩
  refine ⟨hnew, by decide +kernel, ?_⟩
  exact (starts_counted_iff _ _ _ hnew _ (by decide +kernel) (by decide +kernel)
    (by decide +kernel)).mpr (by decide +kernel)

/-- An event in the second of a run, and before the run, is on two invoices. -/
theorem starts_not_counted : let a := sampleCountingHost 90200000000
    let turns := [sampleTurn 1704067231, ⟨.stored, GoTime.unixTime 1704067320 500000000⟩,
      sampleTurn 1704067390]
    a.NewCounting .allocations ∧ (turns.foldl (turn samplePlatform) a).usagesInvoiced = 2 ∧
      ¬ (turns.foldl (turn samplePlatform) a).CountedExactly .allocations := by
  refine ⟨⟨rfl, rfl, ?_, ?_, ?_, ?_⟩, ?_, ?_⟩
  all_goals decide +kernel

end ContractActor

end DMS.Tokenomics
