import DMS.Core.MapTotal
import DMS.Types.Hardware

/-! # The resource manager

`DefaultManager` of `dms/resources/resource_manager.go` over the maps of `store.go`.
Resources are first committed to an allocation and later moved to the allocated ones.
The database answers every request as it likes, and the answers of one call are given
to the call.
-/

namespace DMS.Resources

open DMS.Types

variable {κ : Type}

structure CommittedResources (κ : Type) where
  resources : Resources κ
  allocationID : GoString
deriving DecidableEq, Repr

structure ResourceAllocation (κ : Type) where
  allocationID : GoString
  resources : Resources κ
deriving DecidableEq, Repr

structure Store (κ : Type) where
  onboardedResources : Option (Resources κ)
  committedResources : GoMap GoString (CommittedResources κ)
  allocations : GoMap GoString (ResourceAllocation κ)

/-- The answers of the repositories, and the order in which maps are ranged over. -/
structure Call (κ : Type) where
  get : Except String (Resources κ)
  create : Except String Unit
  find : Except String Unit
  delete : Except String Unit
  order : RangeOrder

inductive ManagerCause (κ : Type)
  | allocationIDRequired
  | alreadyCommitted (allocationID : GoString)
  | notCommitted (allocationID : GoString)
  | alreadyAllocated (allocationID : GoString)
  | notAllocated (allocationID : GoString)
  | noFreeResources
  | underflow (u : Underflow κ)
  | repository (text : String)
deriving DecidableEq, Repr

abbrev ManagerResult (κ α : Type) := Except (GoError (ManagerCause κ)) α

namespace Store

/-- `NewResourceManager` -/
def new : Store κ := ⟨none, ∅, ∅⟩

def getOnboardedResources (get : Except String (Resources κ)) (s : Store κ) :
    Store κ × ManagerResult κ (Resources κ) :=
  match s.onboardedResources with
  | some onboarded => (s, .ok onboarded)
  | none =>
    match get with
    | .error text =>
      (s, .error ((GoError.new (.repository text)).wrap "failed to get onboarded resources"))
    | .ok onboarded => ({ s with onboardedResources := some onboarded }, .ok onboarded)

/-! The four updates of the maps, each made under the lock of its map. -/

def commit (commitment : CommittedResources κ) (s : Store κ) : Store κ := { s with
    committedResources := s.committedResources.insert commitment.allocationID commitment }

def clear (allocationID : GoString) (s : Store κ) : Store κ :=
  { s with committedResources := s.committedResources.erase allocationID }

def allocate (allocation : ResourceAllocation κ) (s : Store κ) : Store κ :=
  { s with allocations := s.allocations.insert allocation.allocationID allocation }

def drop (allocationID : GoString) (s : Store κ) : Store κ :=
  { s with allocations := s.allocations.erase allocationID }

def shareGPUs (gpus : List GPU) (s : Store κ) : Store κ :=
  { s with onboardedResources := s.onboardedResources.map fun r => { r with gpus := gpus } }

variable [Cores κ]

def getTotalAllocation (order : RangeOrder) (s : Store κ) : Resources κ :=
  (order.visit s.allocations.entries).foldl (fun total e => total.add e.2.resources) .zero

/-- The loop of `GetFreeResources` over the committed resources. -/
def getTotalCommitted (order : RangeOrder) (s : Store κ) : Resources κ :=
  (order.visit s.committedResources.entries).foldl (fun total e => total.add e.2.resources) .zero

end Store

section Capacity

variable [Cores κ]

/-- What `GetFreeResources` computes from the three amounts it has read. -/
def freeOf (onboarded totalAllocation committed : Resources κ) :
    Resources κ × ManagerResult κ Unit :=
  match onboarded.subtract totalAllocation with
  | (free, .error e) =>
    (free, .error ((e.lift .underflow).wrap "subtracting total allocation"))
  | (free, .ok _) =>
    match free.subtract committed with
    | (free, .error e) =>
      (free, .error ((e.lift .underflow).wrap "subtracting committed resources"))
    | (free, .ok _) => (free, .ok ())

/-- What `checkCapacity` computes from them. -/
def assess (onboarded totalAllocation committed resources : Resources κ) :
    Resources κ × ManagerResult κ Unit :=
  match freeOf onboarded totalAllocation committed with
  | (free, .error e) => (free, .error (e.wrap "getting free resources"))
  | (free, .ok _) =>
    match free.subtract resources with
    | (free, .error _) => (free, .error (.new .noFreeResources))
    | (free, .ok _) => (free, .ok ())

section Rule

variable {o total com resources : Resources κ} {P : Resources κ → Prop}
  (hinit : P o) (hallocation : ∀ r, P r → P (r.subtract total).1)
  (hcommitted : ∀ r, P r → P (r.subtract com).1)

include hinit hallocation hcommitted

theorem freeOf_invariant : P (freeOf o total com).1 := by
  have hfirst := hallocation o hinit
  unfold freeOf
  split
  · next free e hfree => rwa [hfree] at hfirst
  rename_i free u hfree
  rw [hfree] at hfirst
  have hsecond := hcommitted free hfirst
  split <;> next hfree' => rwa [hfree'] at hsecond

theorem assess_invariant (hresources : ∀ r, P r → P (r.subtract resources).1) :
    P (assess o total com resources).1 := by
  have hfree := freeOf_invariant hinit hallocation hcommitted
  unfold assess
  split
  · next heq => rwa [heq] at hfree
  rename_i free u heq
  rw [heq] at hfree
  have hleft := hresources free hfree
  split <;> next heq' => rwa [heq'] at hleft

end Rule

end Capacity

namespace Store

variable [Cores κ]

def getFreeResources (call : Call κ) (s : Store κ) : Store κ × ManagerResult κ (Resources κ) :=
  match s.getOnboardedResources call.get with
  | (s, .error e) => (s, .error (e.wrap "getting onboarded resources"))
  | (s, .ok onboarded) =>
    let (free, result) :=
      freeOf onboarded (s.getTotalAllocation call.order) (s.getTotalCommitted call.order)
    (s.shareGPUs free.gpus, result.map fun _ => free)

def checkCapacity (call : Call κ) (resources : Resources κ) (s : Store κ) :
    Store κ × ManagerResult κ Unit :=
  match s.getFreeResources call with
  | (s, .error e) => (s, .error (e.wrap "getting free resources"))
  | (s, .ok free) =>
    match free.subtract resources with
    | (free, .error _) => (s.shareGPUs free.gpus, .error (.new .noFreeResources))
    | (free, .ok _) => (s.shareGPUs free.gpus, .ok ())

def commitResources (call : Call κ) (commitment : CommittedResources κ) (s : Store κ) :
    Store κ × ManagerResult κ Unit :=
  if commitment.allocationID = [] then
    (s, .error ((GoError.new .allocationIDRequired).wrap "validating commitment"))
  else if commitment.allocationID ∈ s.committedResources then
    (s, .error (.new (.alreadyCommitted commitment.allocationID)))
  else
    match s.checkCapacity call commitment.resources with
    | (s, .error e) => (s, .error (e.wrap "checking capacity"))
    | (s, .ok _) => (s.commit commitment, .ok ())

def uncommitResources (allocationID : GoString) (s : Store κ) : Store κ × ManagerResult κ Unit :=
  if allocationID ∉ s.committedResources then (s, .error (.new (.notCommitted allocationID)))
  else (s.clear allocationID, .ok ())

def allocateResources (call : Call κ) (allocationID : GoString) (s : Store κ) :
    Store κ × ManagerResult κ Unit :=
  match s.committedResources.lookup allocationID with
  | none => (s, .error (.new (.notCommitted allocationID)))
  | some allocation =>
    if allocation.allocationID ∈ s.allocations then
      (s, .error (.new (.alreadyAllocated allocation.allocationID)))
    else
      match call.create with
      | .error text =>
        -- Both `storeAllocation` and its caller put the same text in front.
        (s, .error (((GoError.new (.repository text)).wrap "storing allocations in db").wrap
          "storing allocations in db"))
      | .ok _ =>
        ((s.allocate ⟨allocationID, allocation.resources⟩).clear allocationID, .ok ())

def deleteAllocation (call : Call κ) (allocationID : GoString) (s : Store κ) :
    Store κ × ManagerResult κ Unit :=
  match call.find with
  | .error text => (s, .error ((GoError.new (.repository text)).wrap "finding allocations in db"))
  | .ok _ =>
    match call.delete with
    | .error text =>
      (s, .error ((GoError.new (.repository text)).wrap "deleting allocations from db"))
    | .ok _ => (s.drop allocationID, .ok ())

def deallocateResources (call : Call κ) (allocationID : GoString) (s : Store κ) :
    Store κ × ManagerResult κ Unit :=
  if allocationID ∉ s.allocations then (s, .error (.new (.notAllocated allocationID)))
  else
    let (s, result) := s.deleteAllocation call allocationID
    (s, result.mapError (·.wrap "deleting allocations from db"))

end Store

inductive Request (κ : Type)
  | commit (commitment : CommittedResources κ)
  | uncommit (allocationID : GoString)
  | allocate (allocationID : GoString)
  | deallocate (allocationID : GoString)
deriving DecidableEq, Repr

namespace Store

variable [Cores κ]

def exec (call : Call κ) (s : Store κ) : Request κ → Store κ × ManagerResult κ Unit
  | .commit commitment => s.commitResources call commitment
  | .uncommit allocationID => s.uncommitResources allocationID
  | .allocate allocationID => s.allocateResources call allocationID
  | .deallocate allocationID => s.deallocateResources call allocationID

end Store

section Effects

variable [Cores κ] {s : Store κ} {call : Call κ}

/-- The onboarded resources that a call finds, in the store or else in the database. -/
def Store.Onboards (s : Store κ) (get : Except String (Resources κ)) (o : Resources κ) : Prop :=
  s.onboardedResources = some o ∨ s.onboardedResources = none ∧ get = .ok o

/-- The store after onboarded resources `o` were read and the GPUs were written to. -/
def Store.reading (o : Resources κ) (gpus : List GPU) (s : Store κ) : Store κ :=
  { s with onboardedResources := some { o with gpus := gpus } }

def notOnboarded (text : String) : GoError (ManagerCause κ) :=
  ((GoError.new (.repository text)).wrap "failed to get onboarded resources").wrap
    "getting onboarded resources"

omit [Cores κ] in
theorem onboards_or_error (s : Store κ) (get : Except String (Resources κ)) :
    (∃ o, s.Onboards get o) ∨ ∃ text, s.onboardedResources = none ∧ get = .error text := by
  cases hs : s.onboardedResources with
  | some o => exact .inl ⟨o, .inl hs⟩
  | none =>
    cases get with
    | error text => exact .inr ⟨text, rfl, rfl⟩
    | ok o => exact .inl ⟨o, .inr ⟨hs, rfl⟩⟩

theorem getFreeResources_of_onboards {o} (ho : s.Onboards call.get o) :
    let out := freeOf o (s.getTotalAllocation call.order) (s.getTotalCommitted call.order)
    s.getFreeResources call = (s.reading o out.1.gpus, out.2.map fun _ => out.1) := by
  unfold Store.getFreeResources Store.getOnboardedResources
  rcases ho with hstored | ⟨hnone, hget⟩
  · simp [hstored, Store.shareGPUs, Store.reading]
  · simp only [hnone, hget]
    rfl

theorem getFreeResources_of_error {text} (hnone : s.onboardedResources = none)
    (hget : call.get = .error text) : s.getFreeResources call = (s, .error (notOnboarded text)) :=
    by
  unfold Store.getFreeResources Store.getOnboardedResources
  simp only [hnone, hget]
  rfl

theorem checkCapacity_of_onboards {o} (ho : s.Onboards call.get o) (resources : Resources κ) :
    let out := assess o (s.getTotalAllocation call.order) (s.getTotalCommitted call.order) resources
    s.checkCapacity call resources = (s.reading o out.1.gpus, out.2) := by
  rw [Store.checkCapacity, assess, getFreeResources_of_onboards ho]
  generalize freeOf o _ _ = out
  obtain ⟨free, r⟩ := out
  cases r with
  | error e => rfl
  | ok u =>
    simp only [Except.map]
    generalize free.subtract resources = out
    obtain ⟨left, r⟩ := out
    cases r with
    | error e | ok u => rfl

theorem checkCapacity_of_error {text} (hnone : s.onboardedResources = none)
    (hget : call.get = .error text) (resources : Resources κ) : s.checkCapacity call resources =
      (s, .error ((notOnboarded text).wrap "getting free resources")) := by
  rw [Store.checkCapacity, getFreeResources_of_error hnone hget]

theorem getFreeResources_cases (s : Store κ) (call : Call κ) :
    (∃ e, s.getFreeResources call = (s, .error e)) ∨ ∃ o, s.Onboards call.get o ∧
        let out := freeOf o (s.getTotalAllocation call.order) (s.getTotalCommitted call.order)
        s.getFreeResources call = (s.reading o out.1.gpus, out.2.map fun _ => out.1) := by
  rcases onboards_or_error s call.get with ⟨o, ho⟩ | ⟨text, hnone, hget⟩
  · exact .inr ⟨o, ho, getFreeResources_of_onboards ho⟩
  · exact .inl ⟨_, getFreeResources_of_error hnone hget⟩

theorem checkCapacity_cases (s : Store κ) (call : Call κ) (resources : Resources κ) :
    (∃ e, s.checkCapacity call resources = (s, .error e)) ∨ ∃ o, s.Onboards call.get o ∧
        let out := assess o (s.getTotalAllocation call.order) (s.getTotalCommitted call.order)
          resources
        s.checkCapacity call resources = (s.reading o out.1.gpus, out.2) := by
  rcases onboards_or_error s call.get with ⟨o, ho⟩ | ⟨text, hnone, hget⟩
  · exact .inr ⟨o, ho, checkCapacity_of_onboards ho resources⟩
  · exact .inl ⟨_, checkCapacity_of_error hnone hget resources⟩

inductive Store.Effect (s : Store κ) (call : Call κ) : Request κ → Store κ → Prop
  | refused (request : Request κ) : Effect s call request s
  | checked (c : CommittedResources κ) :
      Effect s call (.commit c) (s.checkCapacity call c.resources).1
  | committed (c : CommittedResources κ) (hfresh : c.allocationID ∉ s.committedResources)
      (hfits : (s.checkCapacity call c.resources).2 = .ok ()) :
      Effect s call (.commit c) ((s.checkCapacity call c.resources).1.commit c)
  | uncommitted (id : GoString) : Effect s call (.uncommit id) (s.clear id)
  | allocated (id : GoString) (c : CommittedResources κ)
      (hc : s.committedResources.lookup id = some c) (hfresh : c.allocationID ∉ s.allocations) :
      Effect s call (.allocate id) ((s.allocate ⟨id, c.resources⟩).clear id)
  | deallocated (id : GoString) : Effect s call (.deallocate id) (s.drop id)

theorem exec_effect (s : Store κ) (call : Call κ) (req : Request κ) :
    s.Effect call req (s.exec call req).1 := by
  cases req with
  | commit c =>
    simp only [Store.exec, Store.commitResources]
    split
    · exact .refused _
    split
    · exact .refused _
    rename_i hfresh
    split
    · next s' e heq =>
      have hs : (s.checkCapacity call c.resources).1 = s' := by rw [heq]
      subst hs
      exact .checked c
    rename_i s' u heq
    have hs : (s.checkCapacity call c.resources).1 = s' := by rw [heq]
    have hfits : (s.checkCapacity call c.resources).2 = .ok () := by rw [heq]
    subst hs
    exact .committed c hfresh hfits
  | uncommit id =>
    simp only [Store.exec, Store.uncommitResources]
    split
    · exact .refused _
    · exact .uncommitted id
  | allocate id =>
    simp only [Store.exec, Store.allocateResources]
    split
    · exact .refused _
    rename_i c hc
    split
    · exact .refused _
    rename_i hfresh
    split
    · exact .refused _
    · exact .allocated id c hc hfresh
  | deallocate id =>
    simp only [Store.exec, Store.deallocateResources, Store.deleteAllocation]
    split
    · exact .refused _
    split
    · exact .refused _
    split
    · exact .refused _
    · exact .deallocated id

end Effects

end DMS.Resources
