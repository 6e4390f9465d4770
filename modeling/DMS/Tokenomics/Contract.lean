import DMS.Core.GoMap
import DMS.Core.GoTime

/-! # Contracts

`tokenomics/contracts/contract.go` and `payments.go`: what a contract says about
payment, how long it runs and what has become of it, with the checks that a request to
create one has to pass.
-/

namespace DMS.Tokenomics

/-- `PaymentModel`, with the texts that name none of the models. -/
inductive PaymentModel
  | payPerAllocation
  | payPerDeployment
  | payPerTimeUtilization
  | payPerResourceUtilization
  | fixedRental
  | periodic
  | other (name : GoString)
deriving DecidableEq, Repr

def PaymentModel.string : PaymentModel → GoString
  | .payPerAllocation => ascii "pay_per_allocation"
  | .payPerDeployment => ascii "pay_per_deployment"
  | .payPerTimeUtilization => ascii "pay_per_time_utilization"
  | .payPerResourceUtilization => ascii "pay_per_resource_utilization"
  | .fixedRental => ascii "fixed_rental"
  | .periodic => ascii "periodic"
  | .other name => name

structure PaymentAddressInfo where
  blockchain : GoString
  currency : GoString
  requesterAddr : GoString
  providerAddr : GoString
deriving DecidableEq, Repr

structure PaymentDetails where
  paymentModel : PaymentModel
  feePerTimeUnit : GoString
  timeUnit : GoString
  fixedRentalAmount : GoString
  paymentPeriod : GoString
  paymentPeriodCount : Int
  addresses : List PaymentAddressInfo
deriving DecidableEq, Repr

inductive ContractState
  | draft
  | proposed
  | accepted
  | active
  | paused
  | updated
  | terminated
  | completed
  | settled
deriving DecidableEq, Repr

structure StateTransition where
  toState : ContractState
  timestamp : GoTime
deriving DecidableEq, Repr

structure DurationDetails where
  startDate : GoTime
  endDate : GoTime
deriving DecidableEq, Repr

structure Contract where
  contractDID : GoString
  duration : DurationDetails
  paymentDetails : PaymentDetails
  currentState : ContractState
  transitions : List StateTransition
  disableBilling : Bool
  metadata : GoMap GoString GoString

structure CreateContractRequest where
  metadata : GoMap GoString GoString
  solutionEnablerDID : GoString
  paymentValidatorDID : GoString
  provider : GoString
  requestor : GoString
  paymentDetails : PaymentDetails
  duration : DurationDetails
  disableBilling : Bool

/-- The texts that `PaymentPeriod` may have. -/
def validPeriods : List GoString :=
  [ascii "minute", ascii "hour", ascii "day", ascii "week", ascii "month"]

/-- `CreateContractRequest.Validate`: the first thing that is wrong. -/
def CreateContractRequest.validate (req : CreateContractRequest) : Option String :=
  if req.solutionEnablerDID = [] then some "solution_enabler_did is required"
  else if req.paymentValidatorDID = [] then some "payment_validator_did is required"
  else if req.provider = [] then some "contract_participants.provider is required"
  else if req.requestor = [] then some "contract_participants.requestor is required"
  else if req.paymentDetails.paymentModel = .other [] then
    some "payment_details.payment_model is required"
  else if req.duration.startDate.isZero then some "duration.start_date is required"
  else if req.duration.endDate.isZero then some "duration.end_date is required"
  else if ¬ req.duration.startDate < req.duration.endDate then
    some "duration.end_date must be after duration.start_date"
  else if req.paymentDetails.paymentModel = .fixedRental ∨
      req.paymentDetails.paymentModel = .periodic then
    if req.paymentDetails.paymentPeriod = [] then
      some ("payment_details.payment_period is required for payment model " ++
        printed req.paymentDetails.paymentModel.string)
    else if req.paymentDetails.paymentPeriod ∉ validPeriods then
      some ("payment_details.payment_period must be one of: " ++
        "minute, hour, day, week, month, got: " ++ printed req.paymentDetails.paymentPeriod)
    else if req.paymentDetails.paymentPeriodCount ≤ 0 then
      some ("payment_details.payment_period_count must be a positive integer for payment model " ++
        printed req.paymentDetails.paymentModel.string ++ ", got: " ++
        toString req.paymentDetails.paymentPeriodCount)
    else none
  else none

def setPeriodicityDefaults (pd : PaymentDetails) : PaymentDetails := { pd with
    paymentPeriod := if pd.paymentPeriod = [] then ascii "hour" else pd.paymentPeriod
    paymentPeriodCount := if pd.paymentPeriodCount ≤ 0 then 1 else pd.paymentPeriodCount }

def newContract (contractDID : GoString) (req : CreateContractRequest) : Contract where
  contractDID
  duration := req.duration
  paymentDetails := setPeriodicityDefaults req.paymentDetails
  currentState := .draft
  transitions := []
  disableBilling := req.disableBilling
  metadata := req.metadata

end DMS.Tokenomics
