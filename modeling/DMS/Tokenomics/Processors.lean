import DMS.Tokenomics.Contract
import DMS.Tokenomics.Period
import DMS.Tokenomics.UsageStore
import Mathlib.Algebra.Ring.Int.Defs

/-! # Processors of the payment models

`tokenomics/contracts/processors`. A processor is asked whether an invoice is due and what
it is for. Amounts of money are left out: of the fees only matters whether they are numbers.
Times that the source adds up in seconds are added up in nanoseconds.
-/

namespace DMS.Tokenomics

structure Platform where
  /-- `strconv.ParseFloat` accepts the text. -/
  parsesFloat : GoString → Bool
  /-- `AddDate(-1, 0, 0)` in the time zone of the host. -/
  yearBefore : GoTime → GoTime

/-- One use of the usage store: whether the database answers, and how maps are ranged over. -/
structure QueryInputs where
  answers : Bool
  order : RangeOrder

inductive CheckError
  | periodNotElapsed
  | noDeployments
  | other (text : String)
deriving DecidableEq, Repr

structure FixedRentalUsage where
  periodsInvoiced : Int
  periodStart : GoTime
  periodEnd : GoTime
  lastInvoiceAt : GoTime
deriving DecidableEq, Repr

structure AllocationTimeUtilization where
  allocationID : GoString
  duration : Int
  startTime : GoTime
  endTime : GoTime
deriving DecidableEq, Repr

structure AllocationResourceUtilization where
  allocationID : GoString
  resources : Types.Resources Types.Hundredths
  duration : Int
  startTime : GoTime
  endTime : GoTime
deriving DecidableEq, Repr

/-- `DeploymentTimeUtilization` and `DeploymentResourceUtilization` -/
structure DeploymentUtilization (A : Type) where
  deploymentID : GoString
  allocations : List A
  totalUtilization : Int
deriving DecidableEq, Repr

/-- `DeploymentTimeUtilization` of the periodic model. The two instants between which the
time was measured are kept here besides the time itself. -/
structure DeploymentTime where
  deploymentID : GoString
  effectiveStart : GoTime
  effectiveEnd : GoTime
  totalUtilization : Int
deriving DecidableEq, Repr

structure PeriodicUsage where
  periodStart : GoTime
  periodEnd : GoTime
  lastInvoiceAt : GoTime
  deployments : List DeploymentTime
  totalTime : Int
  periodsInvoiced : Int
deriving DecidableEq, Repr

/-- `UsageData`, by payment model. -/
inductive UsageData
  | payPerAllocation (usageCount : Int)
  | payPerDeployment (usageCount : Int)
  | payPerTimeUtilization (deployments : List (DeploymentUtilization AllocationTimeUtilization))
  | payPerResourceUtilization
      (deployments : List (DeploymentUtilization AllocationResourceUtilization))
  | fixedRental (usage : FixedRentalUsage)
  | periodic (usage : PeriodicUsage)
deriving DecidableEq, Repr

/-- `StringToFloat64`, without the number. -/
def stringToFloat64 (P : Platform) (s : GoString) (fieldName : String) : Except String Unit :=
  if s = [] then .error (fieldName ++ " is required and cannot be empty")
  else if P.parsesFloat s then .ok ()
  else .error ("invalid " ++ fieldName)

/-- `DurationToUnit`, without the number. -/
def durationToUnit (unit : GoString) : Except String Unit :=
  if unit ∈ [ascii "second", ascii "minute", ascii "hour"] then .ok ()
  else .error ("unsupported time unit: " ++ printed unit)

/-- The identifier by which the events of a head contract are found. -/
def headContractDID (c : Contract) : GoString :=
  if c.metadata.lookup (ascii "contract_chain_role") = some (ascii "head") then c.contractDID
  else []

/-- How every check begins: without a whole cycle there is no invoice. -/
def elapsedPeriods (c : Contract) (lastInvoiceAt now : GoTime) : Except CheckError ElapsedPeriods :=
  match parsePaymentPeriod c.paymentDetails.paymentPeriod with
  | .error text => .error (.other ("invalid payment_period: " ++ text))
  | .ok periodDuration =>
    let elapsed := calculateElapsedPeriods lastInvoiceAt now periodDuration
      c.paymentDetails.paymentPeriodCount
    if elapsed.billingCyclesElapsed < 1 then .error .periodNotElapsed else .ok elapsed

variable {c : Contract}

theorem elapsedPeriods_eq {p}
    (hp : parsePaymentPeriod c.paymentDetails.paymentPeriod = .ok p) (last now : Int) :
    elapsedPeriods c last now = let cycle := cycleLength p c.paymentDetails.paymentPeriodCount
      let cycles := GoTime.sub now last / cycle
      if cycle ≤ GoTime.sub now last then
        .ok ⟨cycles, nextBoundary p last, nextBoundary p last + cycle * cycles⟩
      else .error .periodNotElapsed := by
  have hpos := parsePaymentPeriod_pos hp
  have hcycle := cycleLength_pos hpos c.paymentDetails.paymentPeriodCount
  simp only [elapsedPeriods, hp, calculateElapsedPeriods_eq hpos]
  split
  · next h =>
    have hone : 1 ≤ GoTime.sub now last / cycleLength p c.paymentDetails.paymentPeriodCount :=
      Int.le_ediv_of_mul_le hcycle (by omega)
    rw [if_neg (by simpa using hone)]
  · next h => rfl

def periodsToInvoice (c : Contract) (billingCyclesElapsed : Int) : Int :=
  if c.paymentDetails.paymentPeriodCount ≤ 0 then billingCyclesElapsed
  else billingCyclesElapsed * c.paymentDetails.paymentPeriodCount

namespace FixedRentalProcessor

def validate (P : Platform) (pd : PaymentDetails) : Option String :=
  if pd.fixedRentalAmount = [] then some "fixed_rental_amount is required"
  else if pd.paymentPeriod = [] then some "payment_period is required"
  else
    match stringToFloat64 P pd.fixedRentalAmount "fixed_rental_amount" with
    | .error text => some text
    | .ok () =>
      match parsePaymentPeriod pd.paymentPeriod with
      | .error text => some text
      | .ok _ =>
        if pd.paymentPeriodCount ≤ 0 then
          some ("payment_period_count must be a positive integer, got: " ++
            toString pd.paymentPeriodCount)
        else none

def checkAndGenerateInvoice (P : Platform) (c : Contract) (lastInvoiceAt now : GoTime) :
    Except CheckError FixedRentalUsage :=
  match elapsedPeriods c lastInvoiceAt now with
  | .error e => .error e
  | .ok elapsed =>
    match stringToFloat64 P c.paymentDetails.fixedRentalAmount "fixed_rental_amount" with
    | .error text => .error (.other text)
    | .ok () =>
      .ok ⟨periodsToInvoice c elapsed.billingCyclesElapsed, elapsed.periodStart,
        elapsed.periodEnd, lastInvoiceAt⟩

def generateProRatedInvoice (P : Platform) (c : Contract) (lastInvoiceAt now : GoTime) :
    Except CheckError FixedRentalUsage :=
  match parsePaymentPeriod c.paymentDetails.paymentPeriod with
  | .error text => .error (.other ("invalid payment_period: " ++ text))
  | .ok _ =>
    if now.sub lastInvoiceAt ≤ 0 then
      .error (.other "no elapsed time for pro-rated invoice")
    else
      match stringToFloat64 P c.paymentDetails.fixedRentalAmount "fixed_rental_amount" with
      | .error text => .error (.other text)
      | .ok () => .ok ⟨0, lastInvoiceAt, now, lastInvoiceAt⟩

end FixedRentalProcessor

namespace PeriodicProcessor

structure DeploymentWindow where
  deploymentID : GoString
  startTime : GoTime
  endTime : GoTime
  isComplete : Bool
deriving DecidableEq, Repr

/-- The first start event of a deployment opens its window. -/
def openWindow (windows : GoMap GoString DeploymentWindow) (evt : Usage) :
    GoMap GoString DeploymentWindow :=
  if evt.eventType ≠ .deploymentStart ∨ evt.timestamp.isZero then windows
  else
    match evt.data with
    | none => windows
    | some data =>
      if data.deploymentID ∈ windows then windows
      else windows.insert data.deploymentID ⟨data.deploymentID, evt.timestamp, 0, false⟩

/-- Every stop event closes the window anew. -/
def closeWindow (windows : GoMap GoString DeploymentWindow) (evt : Usage) :
    GoMap GoString DeploymentWindow :=
  if evt.eventType ≠ .deploymentStop ∨ evt.timestamp.isZero then windows
  else
    match evt.data with
    | none => windows
    | some data =>
      match windows.lookup data.deploymentID with
      | none => windows
      | some window =>
        windows.insert data.deploymentID
          { window with endTime := evt.timestamp, isComplete := true }

def buildDeploymentWindows (startEvents stopEvents : List Usage) :
    GoMap GoString DeploymentWindow :=
  stopEvents.foldl closeWindow (startEvents.foldl openWindow ∅)

/-- One turn of the loop of `calculateDeploymentTimeUtilization`. -/
def deploymentTime (queryStart queryEnd now : GoTime) (window : DeploymentWindow) :
    Option DeploymentTime :=
  let effectiveQueryEnd := if window.isComplete then queryEnd else now
  match calculateEffectiveTime window.startTime window.endTime window.isComplete queryStart
      effectiveQueryEnd with
  | none => none
  | some (effectiveStart, effectiveEnd) =>
    let duration := effectiveEnd.sub effectiveStart
    if duration ≤ 0 then none
    else some ⟨window.deploymentID, effectiveStart, effectiveEnd, duration⟩

def calculateDeploymentTimeUtilization (order : RangeOrder)
    (windows : GoMap GoString DeploymentWindow) (queryStart queryEnd now : GoTime) :
    List DeploymentTime :=
  (order.visit windows.entries).filterMap fun e => deploymentTime queryStart queryEnd now e.2

def collect (P : Platform) (s : UsageStore) (q : QueryInputs) (c : Contract)
    (lastInvoiceAt periodStart periodEnd now : GoTime) (periodsInvoiced : Int) :
    Except CheckError PeriodicUsage :=
  if ¬ q.answers then .error (.other "failed to query deployment events")
  else
    let (startEvents, stopEvents) := s.queryDeploymentEvents P.yearBefore c.contractDID
      periodStart periodEnd (headContractDID c)
    let windows := buildDeploymentWindows startEvents stopEvents
    let deployments := calculateDeploymentTimeUtilization q.order windows periodStart periodEnd now
    let totalTime := (deployments.map DeploymentTime.totalUtilization).sum
    if deployments = [] then .error .noDeployments
    else if totalTime ≤ 0 then .error .noDeployments
    else
      match stringToFloat64 P c.paymentDetails.feePerTimeUnit "fee_per_time_unit" with
      | .error text => .error (.other text)
      | .ok () =>
        match durationToUnit c.paymentDetails.timeUnit with
        | .error text => .error (.other ("failed to convert time: " ++ text))
        | .ok () =>
          .ok ⟨periodStart, periodEnd, lastInvoiceAt, deployments, totalTime, periodsInvoiced⟩

theorem collect_eq_ok {P s q last periodStart periodEnd now periodsInvoiced usage}
    (h : collect P s q c last periodStart periodEnd now periodsInvoiced = .ok usage) :
    usage.periodStart = periodStart ∧ usage.periodEnd = periodEnd ∧ usage.deployments ≠ [] ∧
      P.parsesFloat c.paymentDetails.feePerTimeUnit = true ∧
      (durationToUnit c.paymentDetails.timeUnit).isOk = true := by
  simp only [collect, Outcome.ite_error_eq_ok] at h
  obtain ⟨-, hdeployments, -, h⟩ := h
  split at h
  · cases h
  next hfee =>
  split at h
  · cases h
  next hunit =>
  cases h
  have hparses : P.parsesFloat c.paymentDetails.feePerTimeUnit = true := by
    unfold stringToFloat64 at hfee
    simp only [Outcome.ite_error_eq_ok] at hfee
    obtain ⟨-, hfee⟩ := hfee
    split at hfee
    · assumption
    · cases hfee
  exact ⟨rfl, rfl, hdeployments, hparses, by rw [hunit]; rfl⟩

theorem deployments_of_collect {P s q last periodStart periodEnd now periodsInvoiced usage}
    (h : collect P s q c last periodStart periodEnd now periodsInvoiced = .ok usage) :
    usage.deployments =
      let events := s.queryDeploymentEvents P.yearBefore c.contractDID periodStart periodEnd
        (headContractDID c)
      calculateDeploymentTimeUtilization q.order (buildDeploymentWindows events.1 events.2)
        periodStart periodEnd now := by
  simp only [collect, Outcome.ite_error_eq_ok] at h
  obtain ⟨-, -, -, h⟩ := h
  split at h
  · cases h
  split at h
  · cases h
  cases h
  rfl

def checkAndGenerateInvoice (P : Platform) (s : UsageStore) (q : QueryInputs) (c : Contract)
    (lastInvoiceAt now : GoTime) : Except CheckError PeriodicUsage :=
  match elapsedPeriods c lastInvoiceAt now with
  | .error e => .error e
  | .ok elapsed =>
    collect P s q c lastInvoiceAt elapsed.periodStart elapsed.periodEnd now
      (periodsToInvoice c elapsed.billingCyclesElapsed)

def generateProRatedInvoice (P : Platform) (s : UsageStore) (q : QueryInputs) (c : Contract)
    (lastInvoiceAt now : GoTime) : Except CheckError PeriodicUsage :=
  collect P s q c lastInvoiceAt lastInvoiceAt now now 0

end PeriodicProcessor

/-- `CollectUsage` of the two processors that count start events. -/
def countStarts (s : UsageStore) (q : QueryInputs) (id : EventData → GoString)
    (eventType : EventType) (byContract : Int) (failure : String)
    (lastProcessedAt now : GoTime) (headContractDID : GoString) : Except CheckError Int :=
  if headContractDID ≠ [] then
    if ¬ q.answers then .error (.other "failed to query events by head contract")
    else
      .ok (countUnique id (s.queryEvents ⟨[], headContractDID, [eventType], lastProcessedAt, now⟩))
  else if ¬ q.answers then .error (.other failure)
  else .ok byContract

namespace PayPerAllocationProcessor

def collectUsage (s : UsageStore) (q : QueryInputs) (contractDID : GoString)
    (lastProcessedAt now : GoTime) (headContractDID : GoString) : Except CheckError Int :=
  countStarts s q EventData.allocationID .startAllocation
    (s.countAllocationsByContractDID contractDID lastProcessedAt now)
    "failed to count allocations" lastProcessedAt now headContractDID

end PayPerAllocationProcessor

namespace PayPerDeploymentProcessor

def collectUsage (s : UsageStore) (q : QueryInputs) (contractDID : GoString)
    (lastProcessedAt now : GoTime) (headContractDID : GoString) : Except CheckError Int :=
  countStarts s q EventData.deploymentID .deploymentStart
    (s.countDeploymentsByContract contractDID lastProcessedAt now)
    "failed to count deployments" lastProcessedAt now headContractDID

end PayPerDeploymentProcessor

structure AllocationWindow where
  allocationID : GoString
  deploymentID : GoString
  startTime : GoTime
  endTime : GoTime
  isComplete : Bool
deriving DecidableEq, Repr

structure AllocationWindowWithResources where
  window : AllocationWindow
  resources : Types.Resources Types.Hundredths
deriving DecidableEq, Repr

def processAllocationEndEvent (evt : Usage) : Option GoString :=
  if evt.timestamp.isZero then none
  else
    match evt.eventType with
    | .completeAllocation => evt.data.map EventData.allocationID
    | .stopAllocation => evt.data.map EventData.allocationID
    | _ => none

section Windows

variable {W A : Type}

/-- A start event opens the window of its allocation, in place of one that is there. -/
def openWindow (opened : Usage → EventData → W) (windows : GoMap GoString W) (evt : Usage) :
    GoMap GoString W :=
  if evt.timestamp.isZero then windows
  else
    match evt.data with
    | none => windows
    | some data => windows.insert data.allocationID (opened evt data)

def closeWindow (closed : W → GoTime → W) (windows : GoMap GoString W) (evt : Usage) :
    GoMap GoString W :=
  match processAllocationEndEvent evt with
  | none => windows
  | some allocationID =>
    match windows.lookup allocationID with
    | none => windows
    | some window => windows.insert allocationID (closed window evt.timestamp)

def buildWindows (opened : Usage → EventData → W) (closed : W → GoTime → W)
    (startEvents endEvents : List Usage) : GoMap GoString W :=
  endEvents.foldl (closeWindow closed) (startEvents.foldl (openWindow opened) ∅)

def addUtilization (window : W → AllocationWindow) (report : W → Int → A)
    (queryStart queryEnd : GoTime) (deploymentMap : GoMap GoString (DeploymentUtilization A))
    (w : W) : GoMap GoString (DeploymentUtilization A) :=
  let deploymentID := (window w).deploymentID
  match calculateEffectiveTime (window w).startTime (window w).endTime (window w).isComplete
      queryStart queryEnd with
  | none => deploymentMap
  | some (effectiveStart, effectiveEnd) =>
    let duration := effectiveEnd.sub effectiveStart
    let deployment := (deploymentMap.lookup deploymentID).getD ⟨deploymentID, [], 0⟩
    deploymentMap.insert deploymentID
      { deployment with
        allocations := deployment.allocations ++ [report w duration]
        totalUtilization := deployment.totalUtilization + duration }

def calculateUtilization (window : W → AllocationWindow) (report : W → Int → A)
    (order : RangeOrder) (windows : GoMap GoString W) (queryStart queryEnd : GoTime) :
    List (DeploymentUtilization A) :=
  let deploymentMap := (order.visit windows.entries).foldl
    (fun deploymentMap e => addUtilization window report queryStart queryEnd deploymentMap e.2) ∅
  (order.visit deploymentMap.entries).map fun e => e.2

end Windows

/-- A window as a start event opens it. -/
def AllocationWindow.opened (evt : Usage) (data : EventData) : AllocationWindow :=
  ⟨data.allocationID, data.deploymentID, evt.timestamp, 0, false⟩

def AllocationWindow.closed (window : AllocationWindow) (t : GoTime) : AllocationWindow :=
  { window with endTime := t, isComplete := true }

def AllocationWindow.reportedEnd (window : AllocationWindow) : GoTime :=
  if window.isComplete then window.endTime else 0

namespace PayPerTimeUtilizationProcessor

def buildAllocationWindows (startEvents endEvents : List Usage) : GoMap GoString AllocationWindow :=
  buildWindows AllocationWindow.opened AllocationWindow.closed startEvents endEvents

def calculateDeploymentTimeUtilization (order : RangeOrder)
    (windows : GoMap GoString AllocationWindow) (queryStart queryEnd : GoTime) :
    List (DeploymentUtilization AllocationTimeUtilization) :=
  calculateUtilization id
    (fun w duration => ⟨w.allocationID, duration, w.startTime, w.reportedEnd⟩)
    order windows queryStart queryEnd

def collectUsage (P : Platform) (s : UsageStore) (q : QueryInputs) (contractDID : GoString)
    (lastProcessedAt now : GoTime) (headContractDID : GoString) :
    Except CheckError (List (DeploymentUtilization AllocationTimeUtilization)) :=
  if ¬ q.answers then .error (.other "failed to query allocation events")
  else
    let (startEvents, endEvents) :=
      s.queryAllocationEvents P.yearBefore contractDID lastProcessedAt now headContractDID
    .ok (calculateDeploymentTimeUtilization q.order (buildAllocationWindows startEvents endEvents)
      lastProcessedAt now)

end PayPerTimeUtilizationProcessor

namespace PayPerResourceUtilizationProcessor

/-- The resources of the create events, by allocation. -/
def createdResources (createEvents : List Usage) :
    GoMap GoString (Types.Resources Types.Hundredths) :=
  createEvents.foldl
    (fun m evt =>
      match evt.data with
      | none => m
      | some data => m.insert data.allocationID data.resources) ∅

/-- The resources of a start event, or those of the create event when it has none. -/
def startedResources (allocationResources : GoMap GoString (Types.Resources Types.Hundredths))
    (data : EventData) : Types.Resources Types.Hundredths :=
  if data.resources.cpu = ⟨0⟩ ∧ data.resources.ram = 0 then
    (allocationResources.lookup data.allocationID).getD data.resources
  else data.resources

def buildAllocationWindowsWithResources (startEvents endEvents : List Usage)
    (allocationResources : GoMap GoString (Types.Resources Types.Hundredths)) :
    GoMap GoString AllocationWindowWithResources :=
  buildWindows
    (fun evt data =>
      ⟨AllocationWindow.opened evt data, startedResources allocationResources data⟩)
    (fun w t => { w with window := w.window.closed t }) startEvents endEvents

def calculateDeploymentResourceUtilization (order : RangeOrder)
    (windows : GoMap GoString AllocationWindowWithResources) (queryStart queryEnd : GoTime) :
    List (DeploymentUtilization AllocationResourceUtilization) :=
  calculateUtilization AllocationWindowWithResources.window
    (fun w duration =>
      ⟨w.window.allocationID, w.resources, duration, w.window.startTime, w.window.reportedEnd⟩)
    order windows queryStart queryEnd

def collectUsage (P : Platform) (s : UsageStore) (q : QueryInputs) (contractDID : GoString)
    (lastProcessedAt now : GoTime) (headContractDID : GoString) :
    Except CheckError (List (DeploymentUtilization AllocationResourceUtilization)) :=
  if ¬ q.answers then .error (.other "failed to query allocation events")
  else
    let (startEvents, endEvents) :=
      s.queryAllocationEvents P.yearBefore contractDID lastProcessedAt now headContractDID
    let allocationResources := createdResources (s.queryCreateAllocationEvents contractDID)
    .ok (calculateDeploymentResourceUtilization q.order
      (buildAllocationWindowsWithResources startEvents endEvents allocationResources)
      lastProcessedAt now)

end PayPerResourceUtilizationProcessor

def collectWhenElapsed {α : Type} (c : Contract) (lastInvoiceAt now : GoTime)
    (collected : Except CheckError α) : Except CheckError α :=
  match elapsedPeriods c lastInvoiceAt now with
  | .error e => .error e
  | .ok _ => collected

/-- `CheckAndGenerateInvoice` of the processor that is registered for the payment model. -/
def processorCheck (P : Platform) (s : UsageStore) (q : QueryInputs) (c : Contract)
    (lastInvoiceAt now : GoTime) : Except CheckError UsageData :=
  let did := c.contractDID
  let head := headContractDID c
  match c.paymentDetails.paymentModel with
  | .payPerAllocation =>
    (collectWhenElapsed c lastInvoiceAt now
      (PayPerAllocationProcessor.collectUsage s q did lastInvoiceAt now head)).map
      .payPerAllocation
  | .payPerDeployment =>
    (collectWhenElapsed c lastInvoiceAt now
      (PayPerDeploymentProcessor.collectUsage s q did lastInvoiceAt now head)).map
      .payPerDeployment
  | .payPerTimeUtilization =>
    (collectWhenElapsed c lastInvoiceAt now
      (PayPerTimeUtilizationProcessor.collectUsage P s q did lastInvoiceAt now head)).map
      .payPerTimeUtilization
  | .payPerResourceUtilization =>
    (collectWhenElapsed c lastInvoiceAt now
      (PayPerResourceUtilizationProcessor.collectUsage P s q did lastInvoiceAt now head)).map
      .payPerResourceUtilization
  | .fixedRental =>
    (FixedRentalProcessor.checkAndGenerateInvoice P c lastInvoiceAt now).map .fixedRental
  | .periodic =>
    (PeriodicProcessor.checkAndGenerateInvoice P s q c lastInvoiceAt now).map .periodic
  | .other name =>
    .error (.other ("no processor registered for payment model: " ++ printed name))

end DMS.Tokenomics
