import DMS.Tokenomics.ContractHost

/-! # What a billing check sends

Every invoice comes from the processor of the payment model, which was asked for the time
since the last invoice, or it is the pro-rated invoice of a terminated contract. From this
follow the interval an invoice covers, the periods on it and what the check leaves behind.
-/

namespace DMS.Tokenomics

open PeriodicProcessor Outcome Contract

def UsageData.covers (usage : UsageData) (since upTo : GoTime) : GoTime × GoTime :=
  match usage with
  | .fixedRental rental => (rental.periodStart, rental.periodEnd)
  | .periodic billed => (billed.periodStart, billed.periodEnd)
  | _ => (since, upTo)

def Contract.billableUntil (c : Contract) (clock : GoTime) : GoTime :=
  if c.currentState = .terminated then c.endTime clock else clock

def PaymentModel.roundsToPeriods (model : PaymentModel) : Prop :=
  model = .fixedRental ∨ model = .periodic

instance (model : PaymentModel) : Decidable model.roundsToPeriods :=
  inferInstanceAs (Decidable (_ ∨ _))

def Contract.billedInterval (c : Contract) (p last now : Int) : Int × Int :=
  let cycle := cycleLength p c.paymentDetails.paymentPeriodCount
  let elapsed := GoTime.sub now last
  if c.paymentDetails.paymentModel.roundsToPeriods ∧ cycle ≤ elapsed then
    (nextBoundary p last, nextBoundary p last + cycle * (elapsed / cycle))
  else (last, now)

def UsageData.Sendable (P : Platform) (c : Contract) (usage : UsageData) : Prop :=
  match usage with
  | .periodic billed =>
    billed.deployments ≠ [] ∧ P.parsesFloat c.paymentDetails.feePerTimeUnit = true ∧
      (durationToUnit c.paymentDetails.timeUnit).isOk = true
  | _ => True

inductive Source (P : Platform) (s : UsageStore) (q : QueryInputs) (c : Contract)
    (last now : GoTime) : UsageData → Prop
  | checked {usage : UsageData} (h : processorCheck P s q c last now = .ok usage) :
      Source P s q c last now usage
  | proRatedRental {rental : FixedRentalUsage}
      (hmodel : c.paymentDetails.paymentModel = .fixedRental)
      (hnot : elapsedPeriods c last now = .error .periodNotElapsed)
      (h : FixedRentalProcessor.generateProRatedInvoice P c last now = .ok rental) :
      Source P s q c last now (.fixedRental rental)
  | proRatedPeriodic {billed : PeriodicUsage}
      (hmodel : c.paymentDetails.paymentModel = .periodic)
      (hnot : elapsedPeriods c last now = .error .periodNotElapsed)
      (h : PeriodicProcessor.generateProRatedInvoice P s q c last now = .ok billed) :
      Source P s q c last now (.periodic billed)

structure Due (P : Platform) (c : Contract) (p last now : Int) (usage : UsageData) : Prop where
  parses : parsePaymentPeriod c.paymentDetails.paymentPeriod = .ok p
  covers : usage.covers last now = c.billedInterval p last now
  sendable : usage.Sendable P c

section Sent

variable {P : Platform} {s : UsageStore} {q : QueryInputs} {c : Contract} {last now : GoTime}
  {usage : UsageData}

theorem elapsedPeriods_eq_ok {el} (h : elapsedPeriods c last now = .ok el) :
    ∃ p, parsePaymentPeriod c.paymentDetails.paymentPeriod = .ok p ∧
      let cycle := cycleLength p c.paymentDetails.paymentPeriodCount
      let cycles := GoTime.sub now last / cycle
      cycle ≤ GoTime.sub now last ∧
        el = ⟨cycles, nextBoundary p last, nextBoundary p last + cycle * cycles⟩ := by
  cases hp : parsePaymentPeriod c.paymentDetails.paymentPeriod with
  | error text => simp [elapsedPeriods, hp] at h
  | ok p =>
    rw [elapsedPeriods_eq hp] at h
    dsimp only at h
    split at h
    · next hle =>
      cases h
      exact ⟨p, rfl, hle, rfl⟩
    · cases h

theorem elapsedPeriods_not_elapsed (h : elapsedPeriods c last now = .error .periodNotElapsed) :
    ∃ p, parsePaymentPeriod c.paymentDetails.paymentPeriod = .ok p ∧
      ¬ cycleLength p c.paymentDetails.paymentPeriodCount ≤ GoTime.sub now last := by
  cases hp : parsePaymentPeriod c.paymentDetails.paymentPeriod with
  | error text => simp [elapsedPeriods, hp] at h
  | ok p =>
    rw [elapsedPeriods_eq hp] at h
    dsimp only at h
    split at h
    · cases h
    · next hlt => exact ⟨p, rfl, hlt⟩

theorem collectWhenElapsed_eq_ok {α : Type} {collected} {data : α}
    (h : collectWhenElapsed c last now collected = .ok data) :
    (∃ el, elapsedPeriods c last now = .ok el) ∧ collected = .ok data := by
  unfold collectWhenElapsed at h
  split at h
  · cases h
  · next el helapsed => exact ⟨⟨el, helapsed⟩, h⟩

theorem due_of_processorCheck (h : processorCheck P s q c last now = .ok usage) :
    ∃ p, Due P c p last now usage := by
  unfold processorCheck at h
  cases hmodel : c.paymentDetails.paymentModel with
  | payPerAllocation | payPerDeployment | payPerTimeUtilization | payPerResourceUtilization =>
    rw [hmodel] at h
    obtain ⟨data, hdata, rfl⟩ := map_eq_ok.mp h
    obtain ⟨⟨el, helapsed⟩, -⟩ := collectWhenElapsed_eq_ok hdata
    obtain ⟨p, hp, -, -⟩ := elapsedPeriods_eq_ok helapsed
    refine ⟨p, hp, ?_, trivial⟩
    rw [billedInterval, if_neg (by simp [hmodel, PaymentModel.roundsToPeriods])]
    rfl
  | fixedRental =>
    rw [hmodel] at h
    obtain ⟨rental, hrental, rfl⟩ := map_eq_ok.mp h
    unfold FixedRentalProcessor.checkAndGenerateInvoice at hrental
    split at hrental
    · cases hrental
    next el helapsed =>
    obtain ⟨p, hp, hle, rfl⟩ := elapsedPeriods_eq_ok helapsed
    split at hrental
    · cases hrental
    cases hrental
    refine ⟨p, hp, ?_, trivial⟩
    rw [billedInterval, if_pos ⟨.inl hmodel, hle⟩]
    rfl
  | periodic =>
    rw [hmodel] at h
    obtain ⟨billed, hbilled, rfl⟩ := map_eq_ok.mp h
    unfold checkAndGenerateInvoice at hbilled
    split at hbilled
    · cases hbilled
    next el helapsed =>
    obtain ⟨p, hp, hle, rfl⟩ := elapsedPeriods_eq_ok helapsed
    obtain ⟨hstart, hend, hsendable⟩ := collect_eq_ok hbilled
    refine ⟨p, hp, ?_, hsendable⟩
    rw [billedInterval, if_pos ⟨.inr hmodel, hle⟩]
    simp [UsageData.covers, hstart, hend]
  | other name =>
    rw [hmodel] at h
    cases h

theorem due_of_not_elapsed (h : elapsedPeriods c last now = .error .periodNotElapsed)
    (hcovers : usage.covers last now = (last, now)) (hsendable : usage.Sendable P c) :
    ∃ p, Due P c p last now usage := by
  obtain ⟨p, hp, hlt⟩ := elapsedPeriods_not_elapsed h
  refine ⟨p, hp, ?_, hsendable⟩
  rw [hcovers, billedInterval, if_neg fun h => hlt h.2]

theorem FixedRentalProcessor.proRated_eq_ok {rental}
    (h : FixedRentalProcessor.generateProRatedInvoice P c last now = .ok rental) :
    0 < GoTime.sub now last ∧ rental = ⟨0, last, now, last⟩ := by
  unfold FixedRentalProcessor.generateProRatedInvoice at h
  split at h
  · cases h
  rw [ite_error_eq_ok] at h
  obtain ⟨hpos, h⟩ := h
  split at h
  · cases h
  cases h
  exact ⟨by omega, rfl⟩

theorem Source.due (h : Source P s q c last now usage) : ∃ p, Due P c p last now usage := by
  cases h with
  | checked h => exact due_of_processorCheck h
  | proRatedRental _ hnot h =>
    obtain ⟨-, rfl⟩ := FixedRentalProcessor.proRated_eq_ok h
    exact due_of_not_elapsed hnot rfl trivial
  | proRatedPeriodic _ hnot h =>
    obtain ⟨hstart, hend, hsendable⟩ := collect_eq_ok h
    exact due_of_not_elapsed hnot (by simp [UsageData.covers, hstart, hend]) hsendable

theorem FixedRentalProcessor.check_not_elapsed
    (h : FixedRentalProcessor.checkAndGenerateInvoice P c last now = .error .periodNotElapsed) :
    elapsedPeriods c last now = .error .periodNotElapsed := by
  unfold FixedRentalProcessor.checkAndGenerateInvoice at h
  split at h
  · next e he => cases h; exact he
  · split at h <;> cases h

theorem PeriodicProcessor.check_not_elapsed
    (h : PeriodicProcessor.checkAndGenerateInvoice P s q c last now = .error .periodNotElapsed) :
    elapsedPeriods c last now = .error .periodNotElapsed := by
  unfold checkAndGenerateInvoice at h
  split at h
  · next e he => cases h; exact he
  unfold PeriodicProcessor.collect at h
  dsimp only at h
  repeat' split at h
  all_goals cases h

end Sent

namespace ContractActor

variable {P : Platform} {i : CheckInputs} {a : ContractActor}

variable {since now : GoTime} {usage : UsageData}

theorem ite_nothing_eq_send {t} [Decidable t] {action : BillingAction} :
    (if t then .nothing else action) = .send since usage now ↔
      ¬ t ∧ action = .send since usage now := by
  split <;> next h => simp [h]

theorem source_of_terminated (h : a.handleTerminatedContractInvoice P i = .send since usage now) :
    since = a.lastInvoiceAt ∧ now = a.contract.endTime i.now ∧
      Source P a.store i.queries a.contract since now usage := by
  simp only [handleTerminatedContractInvoice, ite_nothing_eq_send] at h
  obtain ⟨-, -, -, h⟩ := h
  split at h
  · next hok =>
    cases h
    exact ⟨rfl, rfl, .checked hok⟩
  · next hnot =>
    unfold processorCheck at hnot
    split at h
    · next hmodel =>
      rw [hmodel] at hnot
      split at h
      · next hok =>
        cases h
        exact ⟨rfl, rfl, .proRatedPeriodic hmodel (check_not_elapsed (map_eq_error.mp hnot)) hok⟩
      · cases h
    · next hmodel =>
      rw [hmodel] at hnot
      split at h
      · next hok =>
        cases h
        exact ⟨rfl, rfl, .proRatedRental hmodel
          (FixedRentalProcessor.check_not_elapsed (map_eq_error.mp hnot)) hok⟩
      · cases h
    · cases h
  · cases h

theorem source_of_running (h : a.runningInvoice P i = .send since usage now) :
    since = a.lastInvoiceAt ∧ now = i.now ∧
      Source P a.store i.queries a.contract since now usage := by
  simp only [runningInvoice, ite_nothing_eq_send] at h
  obtain ⟨-, h⟩ := h
  split at h
  · cases h
  split at h
  · next hok =>
    cases h
    exact ⟨rfl, rfl, .checked hok⟩
  · split at h
    · split at h <;> cases h
    · cases h
  · cases h

theorem source_of_send (h : a.billingAction P i = .send since usage now) :
    since = a.lastInvoiceAt ∧ now = a.contract.billableUntil i.now ∧
      Source P a.store i.queries a.contract since now usage := by
  simp only [billingAction, ite_nothing_eq_send] at h
  obtain ⟨-, -, -, h⟩ := h
  unfold billableUntil
  split at h
  · next hterminated =>
    rw [if_pos hterminated]
    exact source_of_terminated h
  rename_i hrunning
  rw [if_neg hrunning]
  exact source_of_running (ite_nothing_eq_send.mp h).2

theorem requests_ne_nil (h : usage.Sendable P a.contract) (i : CheckInputs)
    (since now : GoTime) : a.requests i since usage now ≠ [] := by
  cases usage with
  | periodic billed =>
    obtain ⟨hdeployments, -, hunit⟩ := h
    simp [requests, hunit, hdeployments]
  | _ => simp [requests]

@[simp] theorem invoices_save (a : ContractActor) (i : CheckInputs) (t : GoTime) :
    (a.save i t).invoices = a.invoices := by
  unfold save
  split <;> rfl

theorem invoices_sendInvoice (h : usage.Sendable P a.contract) :
    (a.sendInvoice P i since usage now).invoices = a.invoices ++ a.requests i since usage now := by
  cases usage with
  | periodic billed => simp [sendInvoice, h.2.1]
  | _ =>
    unfold sendInvoice
    dsimp only
    split
    · rw [invoices_save]
    · rfl

end ContractActor

/-- A run of the scheduler for one contract at an instant, with stores that answer and
invoices that are all forwarded. -/
structure BillingTurn where
  order : RangeOrder
  time : GoTime

namespace ContractActor

variable (P : Platform) (a : ContractActor) (t : BillingTurn)

def turn : ContractActor := a.executeBilling P (.regular t.order t.time)

/-- What the scheduled check does. Terminated and completed contracts are checked only when
they are billed by whole periods. -/
def scheduledAction : BillingAction :=
  if (a.contract.currentState = .terminated ∨ a.contract.currentState = .completed) ∧
      ¬ a.contract.paymentDetails.paymentModel.roundsToPeriods then .nothing
  else a.billingAction P (.regular t.order t.time)

def Bills : Prop := ∃ since usage now, a.scheduledAction P t = .send since usage now

instance : Decidable (a.Bills P t) :=
  match h : a.scheduledAction P t with
  | .nothing => isFalse (by simp [Bills, h])
  | .save _ => isFalse (by simp [Bills, h])
  | .send since usage now => isTrue ⟨since, usage, now, h⟩

/-- The time of the last run that produced an invoice; before there is one, the start date. -/
def lastRun : Int :=
  match a.invoices.getLast? with
  | none => a.contract.duration.startDate
  | some inv => inv.clock

variable {P a t}

theorem turn_eq : a.turn P t = a.perform P (.regular t.order t.time) (a.scheduledAction P t) := by
  unfold turn executeBilling scheduledAction checkAndGenerateInvoice PaymentModel.roundsToPeriods
  rw [if_neg (by simp [CheckInputs.regular])]
  by_cases hstate : a.contract.currentState = .terminated ∨ a.contract.currentState = .completed
  · rw [if_pos hstate]
    split
    · next hmodel => rw [if_neg (fun h => h.2 hmodel)]
    · next hmodel => rw [if_pos ⟨hstate, hmodel⟩]; rfl
  · rw [if_neg hstate, if_neg (fun h => hstate h.1)]

theorem turn_of_nothing (h : a.scheduledAction P t = .nothing) : a.turn P t = a := by
  rw [turn_eq, h]
  rfl

theorem turn_of_save {x} (h : a.scheduledAction P t = .save x) :
    a.turn P t = { a with store := a.store.saveLastProcessedAt a.contract.contractDID x } := by
  rw [turn_eq, h]
  rfl

variable {since now : GoTime} {usage : UsageData}

theorem source_of_scheduled (h : a.scheduledAction P t = .send since usage now) :
    since = a.lastInvoiceAt ∧ now = a.contract.billableUntil t.time ∧
      Source P a.store ⟨true, t.order⟩ a.contract since now usage := by
  exact source_of_send (ite_nothing_eq_send.mp h).2

theorem turn_of_send (h : a.scheduledAction P t = .send since usage now) : a.turn P t = { a with
        invoices := a.invoices ++ a.requests (.regular t.order t.time) since usage now
        store := a.store.saveLastProcessedAt a.contract.contractDID now } := by
  obtain ⟨-, -, hsource⟩ := source_of_scheduled h
  obtain ⟨p, hdue⟩ := hsource.due
  have hsendable := hdue.sendable
  rw [turn_eq, h]
  cases usage with
  | periodic billed => simp [perform, sendInvoice, hsendable.2.1, save, CheckInputs.regular]
  | _ => rfl

@[simp] theorem contract_turn : (a.turn P t).contract = a.contract := by
  cases h : a.scheduledAction P t with
  | nothing => rw [turn_of_nothing h]
  | save x => rw [turn_of_save h]
  | send since usage now => rw [turn_of_send h]

@[simp] theorem events_turn : (a.turn P t).store.events = a.store.events := by
  cases h : a.scheduledAction P t with
  | nothing => rw [turn_of_nothing h]
  | save x => rw [turn_of_save h, UsageStore.events_saveLastProcessedAt]
  | send since usage now => rw [turn_of_send h, UsageStore.events_saveLastProcessedAt]

theorem invoices_of_not_bills (h : ¬ a.Bills P t) : (a.turn P t).invoices = a.invoices := by
  cases haction : a.scheduledAction P t with
  | nothing => rw [turn_of_nothing haction]
  | save x => rw [turn_of_save haction]
  | send since usage now => exact absurd ⟨since, usage, now, haction⟩ h

theorem lastRun_of_not_bills (h : ¬ a.Bills P t) : (a.turn P t).lastRun = a.lastRun := by
  unfold lastRun
  rw [invoices_of_not_bills h, contract_turn]

theorem clock_of_mem_requests {i inv} (h : inv ∈ a.requests i since usage now) :
    inv.clock = i.now := by
  cases usage with
  | periodic billed =>
    unfold requests at h
    dsimp only at h
    split at h
    · obtain ⟨deployment, -, rfl⟩ := List.mem_map.mp h
      rfl
    · cases h
  | _ =>
    obtain rfl := List.mem_singleton.mp h
    rfl

theorem lastRun_of_bills (h : a.Bills P t) : (a.turn P t).lastRun = t.time := by
  obtain ⟨since, usage, now, hsend⟩ := h
  obtain ⟨-, -, hsource⟩ := source_of_scheduled hsend
  obtain ⟨p, hdue⟩ := hsource.due
  obtain ⟨inv, hinv⟩ := Option.isSome_iff_exists.mp (List.getLast?_isSome.mpr
    (requests_ne_nil hdue.sendable (.regular t.order t.time) since now))
  rw [turn_of_send hsend]
  rw [lastRun, List.getLast?_append, hinv]
  exact clock_of_mem_requests (List.mem_of_getLast? hinv)

end ContractActor

/-- A contract for the year that begins half a minute after midnight. -/
def sampleRequest (pd : PaymentDetails) (nsec : Int) : CreateContractRequest where
  metadata := ∅
  solutionEnablerDID := ascii "enabler"
  paymentValidatorDID := ascii "validator"
  provider := ascii "provider"
  requestor := ascii "requestor"
  paymentDetails := pd
  duration := ⟨GoTime.unixTime 1704067230 nsec, GoTime.unixTime 1735689600 0⟩
  disableBilling := false

def sampleRental : PaymentDetails := ⟨.fixedRental, [], [], ascii "10", ascii "minute", 1, []⟩

def samplePlatform : Platform := ⟨fun text => text ≠ [], fun t => t - 365 * (24 * hour)⟩

def sampleTurn (sec : Int) : BillingTurn := ⟨.stored, GoTime.unixTime sec 0⟩

def sampleEvent (eventType : EventType) (after : Int64) : Usage := ⟨ascii "contract", [], eventType,
    some ⟨ascii "allocation", ascii "deployment", ⟨⟨0⟩, [], 0, 0⟩⟩, 1704067230000000000 + after⟩

end DMS.Tokenomics
