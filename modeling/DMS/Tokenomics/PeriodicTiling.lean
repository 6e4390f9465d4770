import DMS.Core.MapTotal
import DMS.Core.Reach
import DMS.Core.Windows
import DMS.Tokenomics.Invoices

/-! # The time that a periodic contract bills for a deployment

The invoiced period begins at the stored time of the last invoice, rounded up to a period boundary,
so that the invoices of a deployment tile the time only if every run ends on a boundary.
-/

namespace DMS.Tokenomics

open PeriodicProcessor List

/-- A start or stop event of one deployment that the queries for a contract are about. -/
def Usage.ofDeployment (contractDID headContractDID deploymentID : GoString) (u : Usage) : Bool :=
  (eventFilters contractDID headContractDID [.deploymentStart, .deploymentStop] 0 0).admits u &&
    u.data.map EventData.deploymentID = some deploymentID

theorem ofDeployment_iff {did headContractDID id} {u : Usage} :
    u.ofDeployment did headContractDID id = true ↔
      (eventFilters did headContractDID [] 0 0).admits u = true ∧
        (u.eventType = .deploymentStart ∨ u.eventType = .deploymentStop) ∧
          u.data.map EventData.deploymentID = some id := by
  rw [Usage.ofDeployment, Bool.and_eq_true, admits_types (by simp), and_assoc]
  simp

def UsageData.deploymentTimes : UsageData → List DeploymentTime
  | .periodic billed => billed.deployments
  | _ => []

namespace ContractActor

/-- A periodic contract that has not been invoiced, and a deployment that has been running since
before the start date: its only event is the start. -/
structure NewPeriodic (deploymentID : GoString) (start : Usage) (a : ContractActor) : Prop where
  model : a.contract.paymentDetails.paymentModel = .periodic
  new : a.invoices = []
  only : a.store.events.filter (Usage.ofDeployment a.contract.contractDID
    (headContractDID a.contract) deploymentID) = [start]
  started : start.eventType = .deploymentStart
  before : start.timestamp ≤ a.contract.duration.startDate

def billedFor (deploymentID : GoString) (a : ContractActor) : List DeploymentTime :=
  a.invoices.flatMap fun inv =>
    inv.usage.deploymentTimes.filter (·.deploymentID = deploymentID)

def BilledThrough (deploymentID : GoString) (a : ContractActor) : Prop :=
  Windows.Tiles ((a.billedFor deploymentID).map fun d => (d.effectiveStart, d.effectiveEnd))
      a.contract.duration.startDate a.lastRun ∧
    ((a.billedFor deploymentID).map DeploymentTime.totalUtilization).sum =
      a.lastRun - a.contract.duration.startDate

def interval (a : ContractActor) (t : BillingTurn) : Int × Int :=
  match parsePaymentPeriod a.contract.paymentDetails.paymentPeriod with
  | .ok p => a.contract.billedInterval p a.lastInvoiceAt (a.contract.billableUntil t.time)
  | .error _ => (a.lastInvoiceAt, a.contract.billableUntil t.time)

/-- The query for the invoiced interval finds the start event. It looks back for a year. -/
def Finds (P : Platform) (start : Usage) (a : ContractActor) (t : BillingTurn) : Prop :=
  (eventFilters a.contract.contractDID (headContractDID a.contract) [.deploymentStart]
    (P.yearBefore (a.interval t).1) (a.interval t).2).admits start = true

instance (P : Platform) (start : Usage) (a : ContractActor) (t : BillingTurn) :
    Decidable (a.Finds P start t) :=
  inferInstanceAs (Decidable (_ = true))

def Contiguous (P : Platform) (start : Usage) (a : ContractActor) (t : BillingTurn) : Prop :=
  a.Bills P t → a.Finds P start t ∧ max start.timestamp (a.interval t).1 = a.lastRun ∧
    a.contract.billableUntil t.time = t.time ∧ a.lastRun < t.time ∧ t.time - a.lastRun < 2 ^ 63

instance (P : Platform) (start : Usage) (a : ContractActor) (t : BillingTurn) :
    Decidable (a.Contiguous P start t) :=
  inferInstanceAs (Decidable (_ → _ ∧ _))

end ContractActor

namespace PeriodicProcessor

def openedFor (deploymentID : GoString) (u : Usage) : Option DeploymentWindow :=
  if u.eventType ≠ .deploymentStart ∨ u.timestamp.isZero then none
  else
    match u.data with
    | none => none
    | some data =>
      if data.deploymentID = deploymentID then some ⟨deploymentID, u.timestamp, 0, false⟩
      else none

section Windows

variable {id : GoString}

theorem of_openedFor {u} (h : openedFor id u ≠ none) :
    u.eventType = .deploymentStart ∧ u.data.map EventData.deploymentID = some id := by
  unfold openedFor at h
  split at h
  · exact absurd rfl h
  next hstart =>
  split at h
  · exact absurd rfl h
  next data hdata =>
  split at h
  · next hid => exact ⟨by simpa using (not_or.mp hstart).1, by rw [hdata, Option.map_some, hid]⟩
  · exact absurd rfl h

theorem lookup_openWindows (l : List Usage) (m : GoMap GoString DeploymentWindow) :
    (l.foldl openWindow m).lookup id = (m.lookup id).or (l.filterMap (openedFor id)).head? := by
  induction l generalizing m with
  | nil => simp
  | cons u l ih =>
    have hstep : (openWindow m u).lookup id =
        (m.lookup id).or (openedFor id u) := by
      unfold openWindow openedFor
      split
      · simp
      cases u.data with
      | none => simp
      | some data =>
        by_cases hid : data.deploymentID = id
        · subst hid
          by_cases hmem : data.deploymentID ∈ m
          · obtain ⟨w, hw⟩ := Option.isSome_iff_exists.mp (AList.lookup_isSome.mpr hmem)
            simp [hmem, hw]
          · simp [hmem, AList.lookup_eq_none.mpr hmem]
        dsimp only
        rw [if_neg hid, Option.or_none]
        split
        · rfl
        · rw [AList.lookup_insert_ne (Ne.symm hid)]
    rw [foldl_cons, ih, hstep, Option.or_assoc]
    congr 1
    cases h : openedFor id u with
    | none => rw [filterMap_cons_none h, Option.none_or]
    | some w => rw [filterMap_cons_some h, head?_cons, Option.some_or]

theorem lookup_closeWindows {l : List Usage}
    (h : ∀ u ∈ l, u.data.map EventData.deploymentID ≠ some id)
    (m : GoMap GoString DeploymentWindow) : (l.foldl closeWindow m).lookup id = m.lookup id := by
  induction l generalizing m with
  | nil => rfl
  | cons u l ih =>
    have hstep : (closeWindow m u).lookup id = m.lookup id := by
      have hu := h u (.head _)
      unfold closeWindow
      split
      · rfl
      cases hdata : u.data with
      | none => rfl
      | some data =>
        have hid : id ≠ data.deploymentID := by
          intro hid
          rw [hdata, hid] at hu
          exact hu rfl
        cases hw : m.lookup data.deploymentID with
        | none => simp [hw]
        | some w => simp [hw, AList.lookup_insert_ne hid]
    rw [foldl_cons, ih (fun v hv => h v (.tail _ hv)), hstep]

def Keyed (m : GoMap GoString DeploymentWindow) : Prop :=
  ∀ k w, m.lookup k = some w → w.deploymentID = k

variable {m : GoMap GoString DeploymentWindow}

theorem Keyed.insert (h : Keyed m) {k}
    {w : DeploymentWindow} (hw : w.deploymentID = k) : Keyed (m.insert k w) :=
  GoMap.forall_lookup_insert h hw

theorem Keyed.openWindow (h : Keyed m) (u : Usage) : Keyed (openWindow m u) := by
  unfold PeriodicProcessor.openWindow
  split
  · exact h
  split
  · exact h
  split
  · exact h
  · exact h.insert rfl

theorem Keyed.closeWindow (h : Keyed m) (u : Usage) : Keyed (closeWindow m u) := by
  unfold PeriodicProcessor.closeWindow
  split
  · exact h
  split
  · exact h
  split
  · exact h
  rename_i win hlookup
  have hkey := h _ win hlookup
  exact h.insert hkey

theorem keyed_buildDeploymentWindows (startEvents stopEvents : List Usage) :
    Keyed (buildDeploymentWindows startEvents stopEvents) := by
  refine List.foldlRecOn _ _ ?_ fun m h u _ => h.closeWindow u
  refine List.foldlRecOn _ _ ?_ fun m h u _ => h.openWindow u
  intro k w hw
  simp at hw

theorem filter_calculateDeploymentTimeUtilization
    (h : Keyed m) (order : RangeOrder) (lo hi now : GoTime) :
    (calculateDeploymentTimeUtilization order m lo hi now).filter
        (·.deploymentID = id) = ((m.lookup id).bind (deploymentTime lo hi now)).toList := by
  have hkey : ∀ k w x, m.lookup k = some w → deploymentTime lo hi now w = some x →
      x.deploymentID = k := by
    intro k w x hlookup hx
    rw [← h k w hlookup]
    unfold deploymentTime at hx
    dsimp only at hx
    split at hx
    · cases hx
    split at hx
    · cases hx
    · cases hx
      rfl
  have hperm := (((order.perm m.entries).filterMap fun e =>
    deploymentTime lo hi now e.2).filter _).trans
      (GoMap.filter_filterMap_entries hkey id)
  cases hbilled : (m.lookup id).bind (deploymentTime lo hi now) with
  | none =>
    rw [hbilled] at hperm
    exact hperm.eq_nil
  | some x =>
    rw [hbilled] at hperm
    exact hperm.eq_singleton

section Running

variable {s : UsageStore} {did head : GoString} {start : Usage}

theorem not_stopped
    (honly : s.events.filter (Usage.ofDeployment did head id) = [start])
    (hstart : start.eventType = .deploymentStart) {lo hi} :
    ∀ u ∈ s.queryEvents (eventFilters did head [.deploymentStop] lo hi),
      u.data.map EventData.deploymentID ≠ some id := by
  intro u hu hdata
  obtain ⟨hu, hadmits⟩ := mem_filter.mp hu
  obtain ⟨hcontract, htype⟩ := (admits_types (by simp) u).mp (admits_unbounded hadmits)
  have htype := mem_singleton.mp htype
  have hof := mem_filter.mpr ⟨hu, ofDeployment_iff.mpr ⟨hcontract, .inr htype, hdata⟩⟩
  rw [honly] at hof
  rw [mem_singleton.mp hof, hstart] at htype
  cases htype

theorem filterMap_openedFor_query {lo hi} :
    (s.queryEvents (eventFilters did head [.deploymentStart] lo hi)).filterMap
        (openedFor id) = ((s.events.filter (Usage.ofDeployment did head id)).filter
        (eventFilters did head [.deploymentStart] lo hi).admits).filterMap
          (openedFor id) := by
  rw [UsageStore.queryEvents, filter_filter, filterMap_filter, filterMap_filter]
  congr 1
  funext u
  by_cases hu : openedFor id u = none
  · simp [hu]
  obtain ⟨htype, hdata⟩ := of_openedFor hu
  by_cases hadmits : (eventFilters did head [.deploymentStart] lo hi).admits u = true
  · have hcontract := ((admits_types (by simp) u).mp (admits_unbounded hadmits)).1
    simp [hadmits, ofDeployment_iff.mpr ⟨hcontract, .inl htype, hdata⟩]
  · simp [hadmits]

theorem lookup_running
    (honly : s.events.filter (Usage.ofDeployment did head id) = [start])
    (hstart : start.eventType = .deploymentStart) (yearBefore : GoTime → GoTime) (lo hi : GoTime) :
    let events := s.queryDeploymentEvents yearBefore did lo hi head
    (buildDeploymentWindows events.1 events.2).lookup id =
      if (eventFilters did head [.deploymentStart] (yearBefore lo) hi).admits start then
        some ⟨id, start.timestamp, 0, false⟩
      else none := by
  dsimp only [UsageStore.queryDeploymentEvents]
  unfold buildDeploymentWindows
  rw [lookup_closeWindows (not_stopped honly hstart), lookup_openWindows,
    filterMap_openedFor_query, honly]
  split
  · next hadmits =>
    have hof : start ∈ s.events.filter (Usage.ofDeployment did head id) := by
      rw [honly]
      exact mem_singleton_self _
    obtain ⟨data, hdata, hid⟩ := Option.map_eq_some_iff.mp
      (ofDeployment_iff.mp (mem_filter.mp hof).2).2.2
    simp [hadmits, openedFor, hstart, timestamp_isZero, hdata, hid]
  · next hadmits => simp [hadmits]

end Running

theorem deploymentTime_running (start lo hi now : Int) :
    deploymentTime lo hi now ⟨id, start, 0, false⟩ = if max start lo < now then
        some ⟨id, max start lo, now, GoTime.sub now (max start lo)⟩
      else none := by
  unfold deploymentTime
  dsimp only
  rw [calculateEffectiveTime_eq]
  simp only [Bool.false_eq_true, if_false]
  by_cases hlt : max start lo < now
  · have hpos := GoTime.sub_pos_iff.mpr hlt
    rw [if_pos hlt]
    dsimp only
    rw [if_neg (by omega), if_pos hlt]
  · rw [if_neg hlt, if_neg hlt]

end Windows

end PeriodicProcessor

theorem deployments_of_source {P : Platform} {s : UsageStore} {q : QueryInputs} {c : Contract}
    {last now : Int} {usage : UsageData} (h : Source P s q c last now usage)
    (hmodel : c.paymentDetails.paymentModel = .periodic) :
    ∃ p billed, parsePaymentPeriod c.paymentDetails.paymentPeriod = .ok p ∧
      usage = .periodic billed ∧ billed.deployments = let interval := c.billedInterval p last now
        let events := s.queryDeploymentEvents P.yearBefore c.contractDID interval.1 interval.2
          (headContractDID c)
        PeriodicProcessor.calculateDeploymentTimeUtilization q.order
          (PeriodicProcessor.buildDeploymentWindows events.1 events.2) interval.1 interval.2
            now := by
  obtain ⟨p, hdue⟩ := h.due
  refine ⟨p, ?_⟩
  rw [← hdue.covers]
  cases h with
  | checked h =>
    unfold processorCheck at h
    rw [hmodel] at h
    obtain ⟨billed, hbilled, rfl⟩ := Outcome.map_eq_ok.mp h
    unfold checkAndGenerateInvoice at hbilled
    split at hbilled
    · cases hbilled
    refine ⟨billed, hdue.parses, rfl, ?_⟩
    obtain ⟨hstart, hend, -⟩ := collect_eq_ok hbilled
    simp only [UsageData.covers, hstart, hend]
    exact deployments_of_collect hbilled
  | proRatedRental hrental => cases hmodel.symm.trans hrental
  | proRatedPeriodic _ _ h =>
    refine ⟨_, hdue.parses, rfl, ?_⟩
    obtain ⟨hstart, hend, -⟩ := collect_eq_ok h
    simp only [UsageData.covers, hstart, hend]
    exact deployments_of_collect h

namespace ContractActor

section Turn

variable {P : Platform} {id : GoString} {start : Usage} {a : ContractActor}
  {t : BillingTurn}

theorem flatMap_filter_singleton {α : Type} (p : α → Bool) (l : List α) :
    l.flatMap (fun x => [x].filter p) = l.filter p := by
  induction l with
  | nil => rfl
  | cons x l ih => rw [flatMap_cons, ih, ← filter_append, singleton_append]

theorem billedFor_turn (hmodel : a.contract.paymentDetails.paymentModel = .periodic)
    (honly : a.store.events.filter (Usage.ofDeployment a.contract.contractDID
      (headContractDID a.contract) id) = [start])
    (hstart : start.eventType = .deploymentStart) (h : a.Bills P t) :
    let now := a.contract.billableUntil t.time
    let since := max start.timestamp (a.interval t).1
    (a.turn P t).billedFor id = a.billedFor id ++
      if a.Finds P start t ∧ since < now then [⟨id, since, now, GoTime.sub now since⟩] else [] := by
  obtain ⟨last, usage, now, hsend⟩ := h
  obtain ⟨rfl, rfl, hsource⟩ := source_of_scheduled hsend
  obtain ⟨p', hdue⟩ := hsource.due
  obtain ⟨p, billed, hp, rfl, hdeployments⟩ := deployments_of_source hsource hmodel
  have hinterval : a.contract.billedInterval p a.lastInvoiceAt
      (a.contract.billableUntil t.time) = a.interval t := by
    rw [interval, hp]
  rw [hinterval] at hdeployments
  have hfilter : billed.deployments.filter (·.deploymentID = id) =
      if a.Finds P start t ∧ max start.timestamp (a.interval t).1 <
          a.contract.billableUntil t.time then
        [⟨id, max start.timestamp (a.interval t).1, a.contract.billableUntil t.time,
          GoTime.sub (a.contract.billableUntil t.time) (max start.timestamp (a.interval t).1)⟩]
      else [] := by
    rw [hdeployments]
    rw [filter_calculateDeploymentTimeUtilization (keyed_buildDeploymentWindows _ _)]
    have hwindow := lookup_running honly hstart P.yearBefore (a.interval t).1 (a.interval t).2
    rw [hwindow]
    unfold Finds
    split
    · next hfinds =>
      rw [Option.bind_some, deploymentTime_running]
      simp only [hfinds, true_and]
      split <;> rfl
    rename_i hfinds
    rw [if_neg fun h => hfinds h.1]
    rfl
  dsimp only
  rw [← hfilter, turn_of_send hsend]
  rw [billedFor, flatMap_append]
  congr 1
  have hunit := hdue.sendable.2.2
  simp only [requests, hunit, if_true, flatMap_map, UsageData.deploymentTimes]
  exact flatMap_filter_singleton _ _

structure Runs (deploymentID : GoString) (start : Usage) (a : ContractActor) : Prop where
  model : a.contract.paymentDetails.paymentModel = .periodic
  only : a.store.events.filter (Usage.ofDeployment a.contract.contractDID
    (headContractDID a.contract) deploymentID) = [start]
  started : start.eventType = .deploymentStart

theorem runs_turn (h : a.Runs id start) : (a.turn P t).Runs id start :=
  ⟨by simpa using h.model, by simpa using h.only, h.started⟩

theorem billedThrough_turn_iff (h : a.Runs id start)
    (hbilled : a.BilledThrough id) (hbills : a.Bills P t)
    (hstart : a.contract.duration.startDate ≤ a.lastRun) (hlt : a.lastRun < t.time) :
    (a.turn P t).BilledThrough id ↔ a.Contiguous P start t := by
  have hturn := billedFor_turn h.model h.only h.started hbills
  obtain ⟨htiles, htotal⟩ := hbilled
  rw [BilledThrough, Contiguous, hturn, lastRun_of_bills hbills, contract_turn]
  simp only [hbills, hlt, true_imp_iff, true_and]
  split
  · next hfound =>
    rw [map_append, map_append, sum_append, map_singleton, map_singleton, sum_singleton,
      Windows.tiles_concat_iff htiles hstart hlt hfound.2, Prod.mk.injEq]
    simp only [hfound.1, true_and, and_assoc]
    refine and_congr_right fun hsince => and_congr_right fun hnow => ?_
    unfold GoTime.sub GoTime at *
    omega
  rename_i hmissing
  rw [append_nil]
  constructor
  · exact fun hlonger => absurd hlonger.1 (Windows.not_tiles_longer htiles hstart hlt)
  · rintro ⟨hfinds, hsince, hnow, -⟩
    exact absurd ⟨hfinds, by rw [hsince, hnow]; exact hlt⟩ hmissing

end Turn

def BilledThroughout (P : Platform) (deploymentID : GoString) (a : ContractActor)
    (turns : List BillingTurn) : Prop :=
  ∀ before, before <+: turns → (before.foldl (turn P) a).BilledThrough deploymentID

theorem billedThroughout_cons {P id} {a : ContractActor} {t turns} :
    a.BilledThroughout P id (t :: turns) ↔
      a.BilledThrough id ∧ (a.turn P t).BilledThroughout P id turns :=
  Reach.forall_prefix_cons

section Runs

variable {P : Platform} {id : GoString} {start : Usage}

theorem startDate_le_lastRun_turn {a : ContractActor} {t}
    (h : a.contract.duration.startDate ≤ a.lastRun) (hlt : a.Bills P t → a.lastRun < t.time) :
    (a.turn P t).contract.duration.startDate ≤ (a.turn P t).lastRun := by
  rw [contract_turn]
  by_cases hbills : a.Bills P t
  · rw [lastRun_of_bills hbills]
    exact Int.le_trans h (Int.le_of_lt (hlt hbills))
  · rwa [lastRun_of_not_bills hbills]

theorem billedThroughout_of_contiguous (turns : List BillingTurn) (a : ContractActor)
    (h : a.Runs id start) (hbilled : a.BilledThrough id)
    (hstart : a.contract.duration.startDate ≤ a.lastRun)
    (hpasses : Reach.Passes (Contiguous P start) (turn P) a turns) :
    a.BilledThroughout P id turns := by
  induction turns generalizing a with
  | nil =>
    intro pre hpre
    rw [prefix_nil.mp hpre]
    exact hbilled
  | cons t turns ih =>
    obtain ⟨hcontiguous, hpasses⟩ := hpasses
    have hlt : a.Bills P t → a.lastRun < t.time := fun hbills => (hcontiguous hbills).2.2.2.1
    have hnext : (a.turn P t).BilledThrough id := by
      by_cases hbills : a.Bills P t
      · exact (billedThrough_turn_iff h hbilled hbills hstart (hlt hbills)).mpr hcontiguous
      · unfold BilledThrough billedFor
        rwa [invoices_of_not_bills hbills, lastRun_of_not_bills hbills, contract_turn]
    exact billedThroughout_cons.mpr ⟨hbilled, ih _ (runs_turn h) hnext
      (startDate_le_lastRun_turn hstart hlt) hpasses⟩

theorem contiguous_of_billedThroughout (turns : List BillingTurn) (a : ContractActor)
    (h : a.Runs id start) (hstart : a.contract.duration.startDate ≤ a.lastRun)
    (hsorted : turns.Pairwise fun t t' => t.time < t'.time)
    (hlater : ∀ t ∈ turns, a.lastRun < t.time) (hbilled : a.BilledThroughout P id turns) :
    Reach.Passes (Contiguous P start) (turn P) a turns := by
  induction turns generalizing a with
  | nil => trivial
  | cons t turns ih =>
    obtain ⟨hfirst, hsorted⟩ := pairwise_cons.mp hsorted
    obtain ⟨hbilled, hrest⟩ := billedThroughout_cons.mp hbilled
    have hlt := hlater t (.head _)
    refine ⟨?_, ih _ (runs_turn h) (startDate_le_lastRun_turn hstart fun _ => hlt) hsorted ?_ hrest⟩
    · by_cases hbills : a.Bills P t
      · exact (billedThrough_turn_iff h hbilled hbills hstart hlt).mp (hrest [] nil_prefix)
      · exact fun hb => absurd hb hbills
    intro t' ht'
    by_cases hbills : a.Bills P t
    · rw [lastRun_of_bills hbills]
      exact hfirst t' ht'
    · rw [lastRun_of_not_bills hbills]
      exact hlater t' (.tail _ ht')

end Runs

/-- A running deployment is billed from the start date to the last run that invoiced, in every
sequence of contiguous runs. For runs after the start date one after the other this is also
necessary. -/
theorem deployment_billed_through (P : Platform) (deploymentID : GoString) (start : Usage)
    (a : ContractActor) (h : a.NewPeriodic deploymentID start) (turns : List BillingTurn) :
    (Reach.Passes (Contiguous P start) (turn P) a turns → a.BilledThroughout P deploymentID turns) ∧
    (turns.Pairwise (fun t t' => t.time < t'.time) →
      (∀ t ∈ turns, a.contract.duration.startDate < t.time) →
        a.BilledThroughout P deploymentID turns →
          Reach.Passes (Contiguous P start) (turn P) a turns) := by
  have hruns : a.Runs deploymentID start := ⟨h.model, h.only, h.started⟩
  have hrun : a.lastRun = a.contract.duration.startDate := by simp [lastRun, h.new]
  have hbilled : a.BilledThrough deploymentID := by
    rw [BilledThrough, billedFor, hrun, h.new]
    exact ⟨Windows.tiles_nil _, (Int.sub_self _).symm⟩
  refine ⟨billedThroughout_of_contiguous turns a hruns hbilled (Int.le_of_eq hrun.symm), ?_⟩
  intro hsorted hafter
  exact contiguous_of_billedThroughout turns a hruns (Int.le_of_eq hrun.symm) hsorted
    (by rwa [hrun])

/-- A periodic contract that is billed by the minute, some nanoseconds after half a minute past
midnight, and a deployment that was started then. -/
def samplePeriodicHost (nsec : Int) : ContractActor := registered (ascii "contract")
    (sampleRequest ⟨.periodic, ascii "1", ascii "minute", [], ascii "minute", 1, []⟩ nsec)
    [sampleEvent .deploymentStart 0]

theorem deployment_billed_through_sample :
    (samplePeriodicHost 30000000000).NewPeriodic (ascii "deployment")
        (sampleEvent .deploymentStart 0) ∧
      (samplePeriodicHost 30000000000).BilledThroughout samplePlatform (ascii "deployment")
        [sampleTurn 1704067261, sampleTurn 1704067320, sampleTurn 1704067400] := by
  have hnew : (samplePeriodicHost 30000000000).NewPeriodic (ascii "deployment")
      (sampleEvent .deploymentStart 0) :=
    ⟨rfl, rfl, by decide +kernel, rfl, by decide +kernel⟩
  exact ⟨hnew, (deployment_billed_through _ _ _ _ hnew _).1 (by decide +kernel)⟩

/-- The half minute from the start date to the first period boundary is not billed; and when a run
comes half a second after another one, this half second is billed twice. -/
theorem deployment_not_billed_through :
    let late := [sampleTurn 1704067261, ⟨.stored, GoTime.unixTime 1704067320 500000000⟩,
      sampleTurn 1704067400]
    (samplePeriodicHost 0).NewPeriodic (ascii "deployment") (sampleEvent .deploymentStart 0) ∧
      ¬ (samplePeriodicHost 0).BilledThroughout samplePlatform (ascii "deployment")
        [sampleTurn 1704067231, sampleTurn 1704067320] ∧
      (samplePeriodicHost 30000000000).NewPeriodic (ascii "deployment")
        (sampleEvent .deploymentStart 0) ∧
      ¬ (samplePeriodicHost 30000000000).BilledThroughout samplePlatform (ascii "deployment")
        late := by
  refine ⟨⟨rfl, rfl, by decide +kernel, rfl, by decide +kernel⟩, ?_,
    ⟨rfl, rfl, by decide +kernel, rfl, by decide +kernel⟩, ?_⟩
  · intro h
    exact absurd (h _ prefix_rfl).2 (by decide +kernel)
  · intro h
    exact absurd (h _ prefix_rfl).2 (by decide +kernel)

end ContractActor

end DMS.Tokenomics
