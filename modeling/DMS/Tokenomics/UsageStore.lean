import DMS.Core.GoTime
import DMS.Types.Hardware

/-! # The usage store

`tokenomics/store/usage/usage.go`: the events of the contracts, each stamped with the
nanosecond at which it was stored, and the whole second up to which each contract has been
processed. The database gives the events of a query in the order in which it keeps them.
-/

namespace DMS.Tokenomics

open GoTime

inductive EventType
  | createAllocation
  | startAllocation
  | stopAllocation
  | completeAllocation
  | deploymentStart
  | deploymentStop
  | other (name : GoString)
deriving DecidableEq, Repr

/-- What the processors read in the JSON of an event. -/
structure EventData where
  allocationID : GoString
  deploymentID : GoString
  resources : Types.Resources Types.Hundredths
deriving DecidableEq, Repr

/-- `usage.Usage`. There is no `data` when the bytes cannot be unmarshalled. -/
structure Usage where
  contractDID : GoString
  headContractDID : GoString
  eventType : EventType
  data : Option EventData
  createdAt : Int64
deriving DecidableEq, Repr

/-- `Timestamp` as a query fills it in. -/
def Usage.timestamp (u : Usage) : GoTime := GoTime.unixTime 0 u.createdAt.toInt

structure UsageStore where
  events : List Usage
  lastProcessedAt : GoMap GoString Int

structure EventFilters where
  contractDID : GoString
  headContractDID : GoString
  eventTypes : List EventType
  startTime : GoTime
  endTime : GoTime

/-- The combined condition of a query. A filter that is not set adds nothing to it. -/
def EventFilters.admits (filters : EventFilters) (u : Usage) : Bool :=
  (filters.contractDID = [] || u.contractDID = filters.contractDID) &&
  (filters.headContractDID = [] || u.headContractDID = filters.headContractDID) &&
  (filters.eventTypes = [] || u.eventType ∈ filters.eventTypes) &&
  (filters.startTime.isZero || filters.startTime.unixNano ≤ u.createdAt.toInt) &&
  (filters.endTime.isZero || u.createdAt.toInt ≤ filters.endTime.unixNano)

/-- Events of one contract, or of one head contract when that is given. -/
def eventFilters (contractDID headContractDID : GoString) (eventTypes : List EventType)
    (startTime endTime : GoTime) : EventFilters :=
  if headContractDID ≠ [] then ⟨[], headContractDID, eventTypes, startTime, endTime⟩
  else ⟨contractDID, [], eventTypes, startTime, endTime⟩

theorem timestamp_eq (u : Usage) : u.timestamp = GoTime.unixEpoch + u.createdAt.toInt := by
  exact congrArg (· + u.createdAt.toInt) (Int.add_zero _)

attribute [local simp] isZero EventFilters.admits

theorem timestamp_isZero (u : Usage) : u.timestamp.isZero = false := by
  have hlow := u.createdAt.le_toInt
  have hne : u.timestamp ≠ 0 := by
    rw [timestamp_eq]
    unfold unixEpoch second GoTime
    omega
  simpa using hne

variable {did head : GoString} {eventTypes : List EventType}

theorem admits_between
    {lo hi} (hlo : GoTime.HasUnixNano lo) (hhi : GoTime.HasUnixNano hi) (u : Usage) :
    (eventFilters did head eventTypes lo hi).admits u =
      ((eventFilters did head eventTypes 0 0).admits u &&
        decide (lo ≤ u.timestamp ∧ u.timestamp ≤ hi)) := by
  have hstart : (unixNano lo ≤ u.createdAt.toInt) = (lo ≤ u.timestamp) := by
    rw [hlo.unixNano_eq, timestamp_eq]
    exact propext (by omega)
  have hend : (u.createdAt.toInt ≤ unixNano hi) = (u.timestamp ≤ hi) := by
    rw [hhi.unixNano_eq, timestamp_eq]
    exact propext (by unfold GoTime; omega)
  unfold eventFilters
  split
  · simp [hlo.ne_zero, hhi.ne_zero, hstart, hend, Bool.and_assoc]
  · simp [hlo.ne_zero, hhi.ne_zero, hstart, hend, Bool.and_assoc]

theorem admits_types (htypes : eventTypes ≠ []) (u : Usage) :
    (eventFilters did head eventTypes 0 0).admits u = true ↔
      (eventFilters did head [] 0 0).admits u = true ∧
        u.eventType ∈ eventTypes := by
  unfold eventFilters
  split <;> simp [htypes]

theorem admits_unbounded {startTime endTime u}
    (h : (eventFilters did head eventTypes startTime endTime).admits u = true) :
    (eventFilters did head eventTypes 0 0).admits u = true := by
  unfold eventFilters at h ⊢
  split
  · next hhead =>
    rw [if_pos hhead] at h
    simp only [EventFilters.admits, Bool.and_eq_true] at h ⊢
    exact ⟨⟨h.1.1, rfl⟩, rfl⟩
  rename_i hhead
  rw [if_neg hhead] at h
  simp only [EventFilters.admits, Bool.and_eq_true] at h ⊢
  exact ⟨⟨h.1.1, rfl⟩, rfl⟩

def countUnique (id : EventData → GoString) (events : List Usage) : Int :=
  ((events.filterMap fun u => u.data.map id).filter (· ≠ [])).dedup.length

def calculateEffectiveTime (windowStart windowEnd : GoTime) (isComplete : Bool)
    (queryStart queryEnd : GoTime) : Option (GoTime × GoTime) :=
  let effectiveStart := if windowStart < queryStart then queryStart else windowStart
  if isComplete ∧ ¬ queryStart < windowEnd then none
  else
    let effectiveEnd := if isComplete then windowEnd else queryEnd
    if effectiveStart < effectiveEnd then some (effectiveStart, effectiveEnd) else none

theorem calculateEffectiveTime_eq (windowStart windowEnd : Int) (isComplete : Bool) (lo hi : Int) :
    calculateEffectiveTime windowStart windowEnd isComplete lo hi =
      let start : Int := max windowStart lo
      let stop : Int := if isComplete then windowEnd else hi
      if start < stop then some (start, stop) else none := by
  have hmax : (if windowStart < lo then lo else windowStart) =
      max windowStart lo := by
    split <;> omega
  unfold calculateEffectiveTime
  simp only [GoTime, hmax]
  split
  · next hpast =>
    have hle : ¬ max windowStart lo < (if isComplete then windowEnd else hi) := by
      rw [if_pos hpast.1]
      omega
    rw [if_neg hle]
  · rfl

namespace UsageStore

def queryEvents (s : UsageStore) (filters : EventFilters) : List Usage :=
  s.events.filter filters.admits

/-- `QueryAllocationEvents`. `yearBefore` is `AddDate(-1, 0, 0)` where the host is. -/
def queryAllocationEvents (s : UsageStore) (yearBefore : GoTime → GoTime)
    (contractDID : GoString) (queryStart queryEnd : GoTime) (headContractDID : GoString) :
    List Usage × List Usage :=
  (s.queryEvents (eventFilters contractDID headContractDID [.startAllocation]
      (yearBefore queryStart) queryEnd),
    s.queryEvents (eventFilters contractDID headContractDID [.completeAllocation, .stopAllocation]
      (yearBefore queryStart) queryEnd))

def queryDeploymentEvents (s : UsageStore) (yearBefore : GoTime → GoTime)
    (contractDID : GoString) (queryStart queryEnd : GoTime) (headContractDID : GoString) :
    List Usage × List Usage :=
  (s.queryEvents (eventFilters contractDID headContractDID [.deploymentStart]
      (yearBefore queryStart) queryEnd),
    s.queryEvents (eventFilters contractDID headContractDID [.deploymentStop]
      (yearBefore queryStart) queryEnd))

def queryCreateAllocationEvents (s : UsageStore) (contractDID : GoString) : List Usage :=
  s.queryEvents ⟨contractDID, [], [.createAllocation], 0, 0⟩

def countAllocationsByContractDID (s : UsageStore) (contractDID : GoString)
    (startTime endTime : GoTime) : Int :=
  countUnique EventData.allocationID
    (s.queryEvents ⟨contractDID, [], [.startAllocation], startTime, endTime⟩)

def countDeploymentsByContract (s : UsageStore) (contractDID : GoString)
    (startTime endTime : GoTime) : Int :=
  countUnique EventData.deploymentID
    (s.queryEvents ⟨contractDID, [], [.deploymentStart], startTime, endTime⟩)

/-- `SaveLastProcessedAt`: a Unix time in seconds is stored. -/
def saveLastProcessedAt (s : UsageStore) (contractDID : GoString) (t : GoTime) : UsageStore :=
  { s with lastProcessedAt := s.lastProcessedAt.insert contractDID t.unix }

def getLastProcessedAt (s : UsageStore) (contractDID : GoString) : GoTime :=
  match s.lastProcessedAt.lookup contractDID with
  | none => GoTime.unixTime 0 0
  | some ts => GoTime.unixTime ts 0

@[simp] theorem events_saveLastProcessedAt (s : UsageStore) (did : GoString) (t : GoTime) :
    (s.saveLastProcessedAt did t).events = s.events := rfl

@[simp] theorem getLastProcessedAt_save (s : UsageStore) (did : GoString) (t : GoTime) :
    (s.saveLastProcessedAt did t).getLastProcessedAt did = GoTime.wholeSeconds t := by
  rw [← unixTime_unix]
  simp [getLastProcessedAt, saveLastProcessedAt]

end UsageStore

end DMS.Tokenomics
