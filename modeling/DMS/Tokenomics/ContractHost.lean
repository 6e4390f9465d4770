import DMS.Tokenomics.Processors

/-! # Automatic billing of a contract

`tokenomics/contract_host.go`, with `executeBillingForContract` of `dms/node/node.go`. A check
reads the contract and the time up to which it has been processed, asks the processor of its
payment model, and sends the invoice that this gives.
-/

namespace DMS.Tokenomics

/-- `ContractUsageRequest`: what is handed on to the payment validator. Kept with it are the
two instants for which the processor was asked and the reading of the clock at the check. -/
structure Invoice where
  contract : Contract
  usages : Int
  usage : UsageData
  since : GoTime
  upTo : GoTime
  clock : GoTime

/-- `ContractActor` with its contract, the usage store, and the invoices it has passed to
`forwardInvoice`. -/
structure ContractActor where
  contract : Contract
  store : UsageStore
  invoices : List Invoice

/-- What a check meets outside: whether the stores answer, the readings of the clock, and which
invoices can be forwarded, by the deployment or the empty identifier. -/
structure CheckInputs where
  contractFound : Bool
  readAnswers : Bool
  saves : Bool
  queries : QueryInputs
  forwards : GoString → Bool
  expiryClock : GoTime
  now : GoTime

def CheckInputs.regular (order : RangeOrder) (t : GoTime) : CheckInputs :=
  ⟨true, true, true, ⟨true, order⟩, fun _ => true, t, t⟩

/-- What a check ends with: the timestamp that it saves, or the invoice that it sends. -/
inductive BillingAction
  | nothing
  | save (t : GoTime)
  | send (since : GoTime) (usage : UsageData) (now : GoTime)

/-- `GetPaymentModelProcessor` finds a processor. All of them support automatic billing. -/
def PaymentModel.hasProcessor : PaymentModel → Bool
  | .other _ => false
  | _ => true

def Contract.terminationTime (c : Contract) : GoTime :=
  match c.transitions.reverse.find? (fun transition => transition.toState = .terminated) with
  | none => 0
  | some transition => transition.timestamp

/-- `endTime` of the final invoice. -/
def Contract.endTime (c : Contract) (clock : GoTime) : GoTime :=
  if c.terminationTime.isZero then clock else c.terminationTime

namespace ContractActor

variable (P : Platform) (i : CheckInputs)

def lastInvoiceAt (a : ContractActor) : GoTime := a.store.getLastProcessedAt a.contract.contractDID

def handleTerminatedContractInvoice (a : ContractActor) : BillingAction :=
  if ¬ i.readAnswers then .nothing
  else
    let last := a.lastInvoiceAt
    let endTime := a.contract.endTime i.now
    if last.isZero then .nothing
    else if endTime.sub last ≤ 0 then .nothing
    else
      match processorCheck P a.store i.queries a.contract last endTime with
      | .ok usage => .send last usage endTime
      | .error .periodNotElapsed =>
        match a.contract.paymentDetails.paymentModel with
        | .periodic =>
          match PeriodicProcessor.generateProRatedInvoice P a.store i.queries a.contract last
              endTime with
          | .ok usage => .send last (.periodic usage) endTime
          | .error _ => .nothing
        | .fixedRental =>
          match FixedRentalProcessor.generateProRatedInvoice P a.contract last endTime with
          | .ok usage => .send last (.fixedRental usage) endTime
          | .error _ => .nothing
        | _ => .nothing
      | .error _ => .nothing

/-- The part of `checkAndGenerateInvoice` for a contract that is neither terminated nor over. -/
def runningInvoice (a : ContractActor) : BillingAction :=
  if ¬ i.readAnswers then .nothing
  else
    let last := a.lastInvoiceAt
    if last.isZero ∨ last = GoTime.unixTime 0 0 then .save a.contract.duration.startDate
    else
      match processorCheck P a.store i.queries a.contract last i.now with
      | .ok usage => .send last usage i.now
      | .error .noDeployments =>
        if a.contract.paymentDetails.paymentModel = .periodic then
          match parsePaymentPeriod a.contract.paymentDetails.paymentPeriod with
          | .ok periodDuration =>
            .save (last + cycleLength periodDuration a.contract.paymentDetails.paymentPeriodCount)
          | .error _ => .nothing
        else .nothing
      | .error _ => .nothing

/-- `checkAndGenerateInvoice`, up to what it does in the end. -/
def billingAction (a : ContractActor) : BillingAction :=
  if ¬ i.contractFound then .nothing
  else if a.contract.disableBilling then .nothing
  else if ¬ a.contract.paymentDetails.paymentModel.hasProcessor then .nothing
  else if a.contract.currentState = .terminated then a.handleTerminatedContractInvoice P i
  else if a.contract.currentState = .completed ∨ a.contract.duration.endDate < i.expiryClock then
    .nothing
  else a.runningInvoice P i

/-- `SaveLastProcessedAt` for the contract. -/
def save (a : ContractActor) (t : GoTime) : ContractActor :=
  if i.saves then { a with store := a.store.saveLastProcessedAt a.contract.contractDID t } else a

/-- The requests that `sendInvoice` makes of the usage: one for each deployment of a periodic
contract, one for any other. -/
def requests (a : ContractActor) (since : GoTime) (usage : UsageData) (now : GoTime) :
    List Invoice :=
  match usage with
  | .payPerAllocation usageCount => [⟨a.contract, usageCount, usage, since, now, i.now⟩]
  | .payPerDeployment usageCount => [⟨a.contract, usageCount, usage, since, now, i.now⟩]
  | .payPerTimeUtilization deployments =>
    [⟨a.contract, deployments.length, usage, since, now, i.now⟩]
  | .payPerResourceUtilization deployments =>
    [⟨a.contract, deployments.length, usage, since, now, i.now⟩]
  | .fixedRental rental => [⟨a.contract, rental.periodsInvoiced, usage, since, now, i.now⟩]
  | .periodic periodic =>
    if (durationToUnit a.contract.paymentDetails.timeUnit).isOk then
      periodic.deployments.map fun deployment =>
        ⟨a.contract, 0, .periodic { periodic with
            deployments := [deployment], totalTime := deployment.totalUtilization },
          since, now, i.now⟩
    else []

/-- `sendInvoice`. The requests of a periodic contract count as sent whether or not they can
be forwarded; any other invoice has to be forwarded before the timestamp is saved. -/
def sendInvoice (a : ContractActor) (since : GoTime) (usage : UsageData) (now : GoTime) :
    ContractActor :=
  match usage with
  | .periodic _ =>
    if P.parsesFloat a.contract.paymentDetails.feePerTimeUnit then
      { a with invoices := a.invoices ++ a.requests i since usage now }.save i now
    else a
  | _ =>
    let sent := { a with invoices := a.invoices ++ a.requests i since usage now }
    if i.forwards [] then sent.save i now else sent

def perform (a : ContractActor) : BillingAction → ContractActor
  | .nothing => a
  | .save t => a.save i t
  | .send since usage now => a.sendInvoice P i since usage now

def checkAndGenerateInvoice (a : ContractActor) : ContractActor :=
  a.perform P i (a.billingAction P i)

/-- `executeBillingForContract`: a run of the billing scheduler. -/
def executeBilling (a : ContractActor) : ContractActor :=
  if ¬ i.contractFound then a
  else if a.contract.currentState = .terminated ∨ a.contract.currentState = .completed then
    if a.contract.paymentDetails.paymentModel = .fixedRental ∨
        a.contract.paymentDetails.paymentModel = .periodic then
      a.checkAndGenerateInvoice P i
    else a
  else a.checkAndGenerateInvoice P i

end ContractActor

/-- The second signature of `handleContractSignByParticipants`. -/
def Contract.accept (c : Contract) (clock : GoTime) : Contract :=
  { c with currentState := .accepted, transitions := [⟨.accepted, clock⟩] }

def Contract.enter (c : Contract) (state : ContractState) (clock : GoTime) : Contract :=
  { c with currentState := state, transitions := c.transitions ++ [⟨state, clock⟩] }

def Contract.expire (c : Contract) : Contract := { c with currentState := .completed }

/-- What happens to a contract and its events between and in the billing checks. -/
inductive HostOp
  | check (inputs : CheckInputs)
  | record (events : List Usage)
  | accept (clock : GoTime)
  | terminate (clock : GoTime)
  | complete (clock : GoTime)
  | settle (clock : GoTime)
  | expire

namespace ContractActor

def step (P : Platform) (a : ContractActor) : HostOp → ContractActor
  | .check inputs => a.checkAndGenerateInvoice P inputs
  | .record events => { a with store := { a.store with events := events } }
  | .accept clock => { a with contract := a.contract.accept clock }
  | .terminate clock => { a with contract := a.contract.enter .terminated clock }
  | .complete clock => { a with contract := a.contract.enter .completed clock }
  | .settle clock => { a with contract := a.contract.enter .settled clock }
  | .expire => { a with contract := a.contract.expire }

def registered (contractDID : GoString) (req : CreateContractRequest) (events : List Usage) :
    ContractActor :=
  ⟨newContract contractDID req,
    UsageStore.saveLastProcessedAt ⟨events, ∅⟩ contractDID (GoTime.unixTime 0 0), []⟩

end ContractActor

end DMS.Tokenomics
