import DMS.Resources.Capacity

/-! # The sections of the calls of the resource manager

`CommitResources` and `UncommitResources` run under `committedLock`, the other two calls under
`allocationLock`, and each access to a map is a section under the lock of that map. A call that is
alone with the store does what the sequential model says.
-/

namespace DMS.Resources

open DMS.Types Store

variable {κ ι : Type}

/-- Under `committedLock`. The allocated resources that were `counted` are kept with
their sum. -/
inductive CommitSection (κ : Type)
  | readOnboarded (c : CommittedResources κ)
  | fetchOnboarded (c : CommittedResources κ)
  | readAllocations (c : CommittedResources κ) (onboarded : Resources κ)
  | readCommitted (c : CommittedResources κ) (onboarded : Resources κ)
      (counted : GoMap GoString (ResourceAllocation κ)) (totalAllocation : Resources κ)
  | insert (c : CommittedResources κ)
  | findCommitted (allocationID : GoString)
  | erase (allocationID : GoString)
  | leave (result : ManagerResult κ Unit)

/-- Under `allocationLock`. -/
inductive AllocSection (κ : Type)
  | lookUp (allocationID : GoString)
  | findAllocated (allocationID : GoString) (allocation : CommittedResources κ)
  | store (allocationID : GoString) (allocation : CommittedResources κ)
  | clear (allocationID : GoString)
  | findAllocation (allocationID : GoString)
  | remove (allocationID : GoString)
  | leave (result : ManagerResult κ Unit)

section Advance

variable [Cores κ]

def CommitSection.advance (call : Call κ) (s : Store κ) :
    CommitSection κ → CommitSection κ × Store κ
  | .readOnboarded c =>
    match s.onboardedResources with
    | some onboarded => (.readAllocations c onboarded, s)
    | none => (.fetchOnboarded c, s)
  | .fetchOnboarded c =>
    match call.get with
    | .error text =>
      (.leave (.error (((notOnboarded text).wrap "getting free resources").wrap
        "checking capacity")), s)
    | .ok onboarded =>
      (.readAllocations c onboarded, { s with onboardedResources := some onboarded })
  | .readAllocations c onboarded =>
    (.readCommitted c onboarded s.allocations (s.getTotalAllocation call.order), s)
  | .readCommitted c onboarded _ totalAllocation =>
    match assess onboarded totalAllocation (s.getTotalCommitted call.order) c.resources with
    | (free, .error e) => (.leave (.error (e.wrap "checking capacity")), s.shareGPUs free.gpus)
    | (free, .ok _) => (.insert c, s.shareGPUs free.gpus)
  | .insert c => (.leave (.ok ()), s.commit c)
  | .findCommitted allocationID =>
    if allocationID ∉ s.committedResources then
      (.leave (.error (.new (.notCommitted allocationID))), s)
    else (.erase allocationID, s)
  | .erase allocationID => (.leave (.ok ()), s.clear allocationID)
  | .leave result => (.leave result, s)

omit [Cores κ] in
def AllocSection.advance (call : Call κ) (s : Store κ) : AllocSection κ → AllocSection κ × Store κ
  | .lookUp allocationID =>
    match s.committedResources.lookup allocationID with
    | none => (.leave (.error (.new (.notCommitted allocationID))), s)
    | some allocation => (.findAllocated allocationID allocation, s)
  | .findAllocated allocationID allocation =>
    if allocation.allocationID ∈ s.allocations then
      (.leave (.error (.new (.alreadyAllocated allocation.allocationID))), s)
    else (.store allocationID allocation, s)
  | .store allocationID allocation =>
    match call.create with
    | .error text =>
      (.leave (.error (((GoError.new (.repository text)).wrap "storing allocations in db").wrap
        "storing allocations in db")), s)
    | .ok _ => (.clear allocationID, s.allocate ⟨allocationID, allocation.resources⟩)
  | .clear allocationID => (.leave (.ok ()), s.clear allocationID)
  | .findAllocation allocationID =>
    if allocationID ∉ s.allocations then
      (.leave (.error (.new (.notAllocated allocationID))), s)
    else (.remove allocationID, s)
  | .remove allocationID =>
    let (s, result) := s.deleteAllocation call allocationID
    (.leave (result.mapError (·.wrap "deleting allocations from db")), s)
  | .leave result => (.leave result, s)

end Advance

inductive Status (κ : Type)
  | ready (request : Request κ)
  | waiting (request : Request κ)
  | inside
  | returned (result : ManagerResult κ Unit)

/-- A mutex holds the call that has locked it, with its position. -/
structure Pool (ι κ : Type) where
  store : Store κ
  committedLock : Option (ι × CommitSection κ)
  allocationLock : Option (ι × AllocSection κ)
  status : ι → Status κ

/-- Whose turn it is: a call outside of its critical section, or the call that holds
one of the mutexes. -/
inductive Turn (ι κ : Type)
  | outside (i : ι)
  | committed (call : Call κ)
  | allocation (call : Call κ)

namespace Pool

variable [DecidableEq ι]

def launch (requests : ι → Request κ) (s : Store κ) : Pool ι κ :=
  ⟨s, none, none, fun i => .ready (requests i)⟩

def setStatus (d : Pool ι κ) (i : ι) (status : Status κ) : Pool ι κ :=
  { d with status := Function.update d.status i status }

/-- What `CommitResources` does before it locks the mutex; the other calls start with
that. -/
def begin (d : Pool ι κ) (i : ι) : Request κ → Pool ι κ
  | .commit c =>
    if c.allocationID = [] then
      d.setStatus i (.returned
        (.error ((GoError.new .allocationIDRequired).wrap "validating commitment")))
    else if c.allocationID ∈ d.store.committedResources then
      d.setStatus i (.returned (.error (.new (.alreadyCommitted c.allocationID))))
    else d.setStatus i (.waiting (.commit c))
  | request => d.setStatus i (.waiting request)

def lockCommitted (d : Pool ι κ) (i : ι) (entry : CommitSection κ) : Pool ι κ :=
  match d.committedLock with
  | some _ => d
  | none => { d.setStatus i .inside with committedLock := some (i, entry) }

def lockAllocation (d : Pool ι κ) (i : ι) (entry : AllocSection κ) : Pool ι κ :=
  match d.allocationLock with
  | some _ => d
  | none => { d.setStatus i .inside with allocationLock := some (i, entry) }

def enter (d : Pool ι κ) (i : ι) : Request κ → Pool ι κ
  | .commit c => d.lockCommitted i (.readOnboarded c)
  | .uncommit allocationID => d.lockCommitted i (.findCommitted allocationID)
  | .allocate allocationID => d.lockAllocation i (.lookUp allocationID)
  | .deallocate allocationID => d.lockAllocation i (.findAllocation allocationID)

variable [Cores κ]

def step (d : Pool ι κ) : Turn ι κ → Pool ι κ
  | .outside i =>
    match d.status i with
    | .ready request => d.begin i request
    | .waiting request => d.enter i request
    | .inside | .returned _ => d
  | .committed call =>
    match d.committedLock with
    | none => d
    | some (i, .leave result) => { d.setStatus i (.returned result) with committedLock := none }
    | some (i, sec) =>
      let (sec, s) := sec.advance call d.store
      { d with committedLock := some (i, sec), store := s }
  | .allocation call =>
    match d.allocationLock with
    | none => d
    | some (i, .leave result) => { d.setStatus i (.returned result) with allocationLock := none }
    | some (i, sec) =>
      let (sec, s) := sec.advance call d.store
      { d with allocationLock := some (i, sec), store := s }

end Pool

section Alone

variable [Cores κ] {call : Call κ}

/-- One turn of a call under `committedLock`. -/
def CommitSection.turn (call : Call κ) (x : CommitSection κ × Store κ) :
    CommitSection κ × Store κ :=
  x.1.advance call x.2

omit [Cores κ] in
/-- One turn of a call under `allocationLock`. -/
def AllocSection.turn (call : Call κ) (x : AllocSection κ × Store κ) : AllocSection κ × Store κ :=
  x.1.advance call x.2

attribute [local simp] CommitSection.turn CommitSection.advance AllocSection.turn
  AllocSection.advance

theorem leads_readCommitted (c : CommittedResources κ) (ob : Resources κ) (s : Store κ) :
    let out := assess ob (s.getTotalAllocation call.order) (s.getTotalCommitted call.order)
      c.resources
    Leads (CommitSection.turn call)
      (.readCommitted c ob s.allocations (s.getTotalAllocation call.order), s)
      (.leave (out.2.mapError (·.wrap "checking capacity")),
        if out.2.isOk then (s.shareGPUs out.1.gpus).commit c else s.shareGPUs out.1.gpus) := by
  refine .head rfl ?_
  dsimp only [CommitSection.turn, CommitSection.advance]
  generalize assess ob _ _ _ = out
  obtain ⟨free, r⟩ := out
  cases r with
  | error e => exact .refl
  | ok u => exact .head rfl .refl

theorem leads_commit (c : CommittedResources κ) (s : Store κ) :
    Leads (CommitSection.turn call) (.readOnboarded c, s)
      (.leave ((s.checkCapacity call c.resources).2.mapError (·.wrap "checking capacity")),
        if (s.checkCapacity call c.resources).2.isOk then
          (s.checkCapacity call c.resources).1.commit c
        else (s.checkCapacity call c.resources).1) := by
  cases hs : s.onboardedResources with
  | some o =>
    have hread : ∀ gpus, s.reading o gpus = s.shareGPUs gpus := by
      intro gpus
      simp [reading, shareGPUs, hs]
    rw [checkCapacity_of_onboards (.inl hs), hread]
    refine .head (y := (.readAllocations c o, s)) (by simp [hs]) ?_
    exact .head rfl (leads_readCommitted c o s)
  | none =>
    refine .head (y := (.fetchOnboarded c, s)) (by simp [hs]) ?_
    cases hget : call.get with
    | error text =>
      rw [checkCapacity_of_error hs hget]
      exact .head (by simp only [CommitSection.turn, CommitSection.advance, hget]; rfl) .refl
    | ok o =>
      rw [checkCapacity_of_onboards (.inr ⟨hs, hget⟩)]
      refine .head (by simp [hget]; rfl) ?_
      exact .head rfl (leads_readCommitted c o { s with onboardedResources := some o })

theorem leads_uncommit (id : GoString) (s : Store κ) :
    Leads (CommitSection.turn call) (.findCommitted id, s)
      (.leave (s.uncommitResources id).2, (s.uncommitResources id).1) := by
  unfold uncommitResources
  by_cases h : id ∉ s.committedResources
  · exact .head (by simp [h]) .refl
  rw [if_neg h]
  refine .head (y := (.erase id, s)) (by simp [h]) ?_
  exact .head rfl .refl

omit [Cores κ] in
theorem leads_allocate (id : GoString) (s : Store κ) :
    Leads (AllocSection.turn call) (.lookUp id, s)
      (.leave (s.allocateResources call id).2, (s.allocateResources call id).1) := by
  unfold allocateResources
  cases hc : s.committedResources.lookup id with
  | none => exact .head (by simp [hc]) .refl
  | some c =>
    refine .head (y := (.findAllocated id c, s)) (by simp [hc]) ?_
    dsimp only
    by_cases h : c.allocationID ∈ s.allocations
    · rw [if_pos h]
      exact .head (by simp [h]) .refl
    rw [if_neg h]
    refine .head (y := (.store id c, s)) (by simp [h]) ?_
    cases hcreate : call.create with
    | error text =>
      exact .head (by simp [hcreate]) .refl
    | ok u =>
      refine .head (by simp [hcreate]; rfl) ?_
      exact .head rfl .refl

omit [Cores κ] in
theorem leads_deallocate (id : GoString) (s : Store κ) :
    Leads (AllocSection.turn call) (.findAllocation id, s)
      (.leave (s.deallocateResources call id).2, (s.deallocateResources call id).1) := by
  unfold deallocateResources
  by_cases h : id ∉ s.allocations
  · rw [if_pos h]
    exact .head (by simp [h]) .refl
  rw [if_neg h]
  refine .head (y := (.remove id, s)) (by simp [h]) ?_
  exact .head rfl .refl

namespace Pool

variable [DecidableEq ι] {i : ι}

def turnOf (call : Call κ) (i : ι) (d : Pool ι κ) : Turn ι κ :=
  match d.status i with
  | .inside =>
    match d.committedLock with
    | some (j, _) => if j = i then .committed call else .allocation call
    | none => .allocation call
  | _ => .outside i

def Alone (call : Call κ) (i : ι) : Pool ι κ → Pool ι κ → Prop :=
  Leads fun d => d.step (d.turnOf call i)

def atCommitted (d : Pool ι κ) (i : ι) (x : CommitSection κ × Store κ) : Pool ι κ :=
  { d.setStatus i .inside with committedLock := some (i, x.1), store := x.2 }

def atAllocation (d : Pool ι κ) (i : ι) (x : AllocSection κ × Store κ) : Pool ι κ :=
  { d.setStatus i .inside with allocationLock := some (i, x.1), store := x.2 }

def returning (d : Pool ι κ) (i : ι) (out : Store κ × ManagerResult κ Unit) : Pool ι κ :=
  { d.setStatus i (.returned out.2) with store := out.1 }

attribute [local simp] turnOf atCommitted atAllocation setStatus step begin enter lockCommitted
  lockAllocation returning

theorem alone_committed {d : Pool ι κ} (hfree : d.committedLock = none) {sec s out}
    (h : Leads (CommitSection.turn call) (sec, s) (.leave out.2, out.1)) :
    Alone call i (d.atCommitted i (sec, s)) (d.returning i out) := by
  have hlift := h.lift (g := fun d => d.step (d.turnOf call i)) (d.atCommitted i) ?_
  · refine hlift.tail ?_
    simp [hfree]
  rintro ⟨sec, s⟩
  cases sec with
  | leave r => exact .inl rfl
  | _ => exact .inr (by simp [-CommitSection.advance])

theorem alone_allocation {d : Pool ι κ} (hfree : d.committedLock = none)
    (hfree' : d.allocationLock = none) {sec s out}
    (h : Leads (AllocSection.turn call) (sec, s) (.leave out.2, out.1)) :
    Alone call i (d.atAllocation i (sec, s)) (d.returning i out) := by
  have hlift := h.lift (g := fun d => d.step (d.turnOf call i)) (d.atAllocation i) ?_
  · refine hlift.tail ?_
    simp [hfree, hfree']
  rintro ⟨sec, s⟩
  cases sec with
  | leave r => exact .inl rfl
  | _ => exact .inr (by simp [hfree])

/-- A call that runs alone returns what the sequential model says, with the store it says. -/
theorem alone_exec {d : Pool ι κ} (hfree : d.committedLock = none)
    (hfree' : d.allocationLock = none) {req} (hi : d.status i = .ready req) :
    Alone call i d (d.returning i (d.store.exec call req)) := by
  cases req with
  | commit c =>
    simp only [exec, commitResources]
    by_cases hnil : c.allocationID = []
    · exact .head (by simp [hi, hnil]) .refl
    rw [if_neg hnil]
    by_cases hmem : c.allocationID ∈ d.store.committedResources
    · exact .head (by simp [hi, hnil, hmem]) .refl
    rw [if_neg hmem]
    refine .head (y := d.setStatus i (.waiting (.commit c))) ?_ ?_
    · simp [hi, hnil, hmem]
    refine .head (y := d.atCommitted i (.readOnboarded c, d.store)) ?_ ?_
    · simp [hfree]
    have hleads : Leads (CommitSection.turn call) _ _ := leads_commit c d.store
    generalize d.store.checkCapacity call c.resources = out at hleads ⊢
    obtain ⟨s, r⟩ := out
    cases r with
    | error e | ok u => exact alone_committed hfree hleads
  | uncommit id =>
    refine .head (y := d.setStatus i (.waiting (.uncommit id))) ?_ ?_
    · simp [hi]
    refine .head ?_ (alone_committed hfree (leads_uncommit id d.store))
    simp [hfree]
  | allocate id =>
    refine .head (y := d.setStatus i (.waiting (.allocate id))) ?_ ?_
    · simp [hi]
    refine .head ?_ (alone_allocation hfree hfree' (leads_allocate id d.store))
    simp [hfree']
  | deallocate id =>
    refine .head (y := d.setStatus i (.waiting (.deallocate id))) ?_ ?_
    · simp [hi]
    refine .head ?_ (alone_allocation hfree hfree' (leads_deallocate id d.store))
    simp [hfree']

theorem alone_exec_commit :
    let d : Pool Bool Hundredths := launch (fun _ => sampleCommit "a" 10 []) .new
    Alone sampleCall true d (d.returning true (d.store.exec sampleCall (sampleCommit "a" 10 []))) :=
  alone_exec rfl rfl rfl

end Pool

end Alone

end DMS.Resources
