import DMS.Tokenomics.Invoices

/-! # Billing runs that overlap

Automatic checks (`tokenomics/contract_host.go`) and manual collections (`dms/node/node.go`) of one
contract. Each reads the contract, the time up to which it has been processed and the events,
forwards what it has made of them and saves a new time, without a lock.
-/

namespace DMS.Tokenomics

/-- What one check or collection hands on to the payment validator, for a periodic contract a
request for each deployment, with the two instants for which the usage was collected and the start
events that it counts. -/
structure Billing where
  contract : Contract
  usage : UsageData
  since : GoTime
  upTo : GoTime
  counted : List Usage

inductive BillingTask
  /-- A check that has read the contract. -/
  | checking (contract : Contract)
  /-- It has also read the stored times. -/
  | checkingSince (contract : Contract) (lastProcessedAt : GoMap GoString Int)
  /-- It has usage to forward. -/
  | sending (bill : Billing)
  /-- It forwards the usage of a periodic contract for one deployment after another. -/
  | dividing (bill : Billing) (periodic : PeriodicUsage) (sent rest : List DeploymentTime)
  /-- It has forwarded the usage, or has none, and a time to save. -/
  | marking (bill : Option Billing) (t : GoTime)
  /-- A collection that has read the clock and the contract. -/
  | collecting (contract : Contract) (now : GoTime)
  | collectingSince (contract : Contract) (now last : GoTime)
  /-- It has a time to save, and then the usage to forward if there is any. -/
  | reserving (bill : Option Billing) (t : GoTime)
  /-- It has saved the time. -/
  | owing (bill : Billing)

/-- The usage of a periodic contract for those deployments whose requests were forwarded. -/
def Billing.part (bill : Billing) (periodic : PeriodicUsage) (sent : List DeploymentTime) :
    Option Billing :=
  if sent = [] then none
  else some { bill with usage := .periodic { periodic with deployments := sent } }

/-- What a run has forwarded before it is done: `forwardInvoice` returned no error for it. -/
def BillingTask.sent : BillingTask → Option Billing
  | .dividing bill periodic sent _ => bill.part periodic sent
  | .marking bill _ => bill
  | _ => none

/-- The host of a contract, with the runs that are under way and what the runs that are done have
forwarded. -/
structure BillingHost where
  contract : Contract
  store : UsageStore
  tasks : List BillingTask
  done : List Billing

/-- A check or a collection begins, a run does what is next for it, or the contract or the log of
events changes. -/
inductive BillingStep
  | check
  | collect (now : GoTime)
  | act (k : Nat) (inputs : CheckInputs)
  | change (contract : Contract)
  | record (events : List Usage)

/-- The start events that the processor of the payment model counts. -/
def countedEvents (s : UsageStore) (c : Contract) (last now : GoTime) : List Usage :=
  match c.paymentDetails.paymentModel with
  | .payPerAllocation =>
    s.queryEvents (eventFilters c.contractDID (headContractDID c) [.startAllocation] last now)
  | .payPerDeployment =>
    s.queryEvents (eventFilters c.contractDID (headContractDID c) [.deploymentStart] last now)
  | _ => []

/-- The answer to a collection for a model without manual billing. -/
def automaticOnly (model : PaymentModel) : String :=
  printed model.string ++ " payment model uses automatic periodic billing and cannot be " ++
    "manually triggered. Invoices are generated automatically by the contract actor."

def collectUsages (P : Platform) (s : UsageStore) (q : QueryInputs) (c : Contract)
    (lastProcessedAt now : GoTime) : Except CheckError UsageData :=
  let did := c.contractDID
  let head := headContractDID c
  if c.disableBilling then .error (.other "billing is disabled for this contract")
  else
    match c.paymentDetails.paymentModel with
    | .payPerAllocation =>
      (PayPerAllocationProcessor.collectUsage s q did lastProcessedAt now head).map
        .payPerAllocation
    | .payPerDeployment =>
      (PayPerDeploymentProcessor.collectUsage s q did lastProcessedAt now head).map
        .payPerDeployment
    | .payPerTimeUtilization =>
      (PayPerTimeUtilizationProcessor.collectUsage P s q did lastProcessedAt now head).map
        .payPerTimeUtilization
    | .payPerResourceUtilization =>
      (PayPerResourceUtilizationProcessor.collectUsage P s q did lastProcessedAt now head).map
        .payPerResourceUtilization
    | .fixedRental => .error (.other (automaticOnly .fixedRental))
    | .periodic => .error (.other (automaticOnly .periodic))
    | .other name =>
      .error (.other ("unsupported payment model: no processor registered for payment model: " ++
        printed name))

/-- A collection forwards a count unless it is zero. -/
def UsageData.hasUsages : UsageData → Bool
  | .payPerAllocation usageCount => 0 < usageCount
  | .payPerDeployment usageCount => 0 < usageCount
  | _ => true

namespace BillingHost

def mark (s : BillingHost) : GoTime := s.store.getLastProcessedAt s.contract.contractDID

def save (t : GoTime) (s : BillingHost) : BillingHost :=
  { s with store := s.store.saveLastProcessedAt s.contract.contractDID t }

/-- All that has been forwarded, without an error of `forwardInvoice`. -/
def forwarded (s : BillingHost) : List Billing := s.done ++ s.tasks.filterMap BillingTask.sent

def keep (bill : Option Billing) (s : BillingHost) : BillingHost :=
  { s with done := s.done ++ bill.toList }

def proceed (k : Nat) (task : BillingTask) (s : BillingHost) : BillingHost :=
  { s with tasks := s.tasks.set k task }

def finish (k : Nat) (s : BillingHost) : BillingHost := { s with tasks := s.tasks.eraseIdx k }

/-- The check decides with the contract and the stored times that it has read, and with the events
as they are now. -/
def decision (P : Platform) (i : CheckInputs) (contract : Contract)
    (lastProcessedAt : GoMap GoString Int) (s : BillingHost) : BillingAction :=
  ContractActor.billingAction P { i with contractFound := true, readAnswers := true }
    ⟨contract, ⟨s.store.events, lastProcessedAt⟩, []⟩

def act (P : Platform) (k : Nat) (i : CheckInputs) (s : BillingHost) : BillingTask → BillingHost
  | .checking contract =>
    if i.readAnswers then s.proceed k (.checkingSince contract s.store.lastProcessedAt)
    else s.finish k
  | .checkingSince contract lastProcessedAt =>
    match s.decision P i contract lastProcessedAt with
    | .nothing => s.finish k
    | .save t => s.proceed k (.marking none t)
    | .send since usage now =>
      s.proceed k (.sending ⟨contract, usage, since, now, countedEvents s.store contract since now⟩)
  | .sending bill =>
    match bill.usage with
    | .periodic periodic =>
      let pd := bill.contract.paymentDetails
      if P.parsesFloat pd.feePerTimeUnit then
        -- Without a unit of time every deployment is skipped.
        let deployments := if (durationToUnit pd.timeUnit).isOk then periodic.deployments else []
        s.proceed k (.dividing bill periodic [] deployments)
      else s.finish k
    | _ =>
      if i.forwards [] then s.proceed k (.marking (some bill) bill.upTo) else s.finish k
  | .dividing bill periodic sent [] =>
    -- The time is saved whatever became of the requests.
    s.proceed k (.marking (bill.part periodic sent) bill.upTo)
  | .dividing bill periodic sent (deployment :: rest) =>
    let passed := i.forwards deployment.deploymentID
    s.proceed k (.dividing bill periodic (if passed then sent ++ [deployment] else sent) rest)
  | .marking bill t => ((if i.saves then s.save t else s).keep bill).finish k
  | .collecting contract now =>
    -- An error of the store is ignored, and the time is then the zero one.
    s.proceed k (.collectingSince contract now (if i.readAnswers then s.mark else 0))
  | .collectingSince contract now last =>
    match collectUsages P s.store i.queries contract last now with
    | .error _ => s.finish k
    | .ok usage =>
      let bill : Billing := ⟨contract, usage, last, now, countedEvents s.store contract last now⟩
      s.proceed k (.reserving (if usage.hasUsages then some bill else none) now)
  | .reserving bill t =>
    if i.saves then
      match bill with
      | some bill => (s.save t).proceed k (.owing bill)
      | none => (s.save t).finish k
    else s.finish k
  | .owing bill => (s.keep (if i.forwards [] then some bill else none)).finish k

def step (P : Platform) (s : BillingHost) : BillingStep → BillingHost
  | .check => { s with tasks := s.tasks ++ [.checking s.contract] }
  | .collect now => { s with tasks := s.tasks ++ [.collecting s.contract now] }
  | .act k i =>
    match s.tasks[k]? with
    | none => s
    | some task => s.act P k i task
  | .change contract =>
    { s with contract := { contract with contractDID := s.contract.contractDID } }
  | .record events => { s with store := { s.store with events := events } }

def start (contract : Contract) (store : UsageStore) : BillingHost := ⟨contract, store, [], []⟩

end BillingHost

end DMS.Tokenomics
