import DMS.Node.Recovery
import DMS.Node.Reversal

/-! # One allocation in a recovery

Each step of `restoreAllocations` is about one allocation: it is committed, created, and released
and uncommitted in a rollback. What the books have of it is followed through these steps.
-/

namespace DMS.Node

open DMS.Types Resources Sweep Allocator Store RestoreEnv AList

variable {κ : Type}

/-- `Terminate` succeeds, and so does the database. -/
def ReleaseEnv.releases (env : ReleaseEnv κ) : Bool :=
  env.terminate.isOk && env.call.find.isOk && env.call.delete.isOk

structure Slot (κ : Type) where
  committed : Option (CommittedResources κ)
  allocated : Option (ResourceAllocation κ)
  commit : Option Int
  commitPorts : Option (GoMap Int Int)
  commitDynamicPorts : Option Int
  entered : Option Allocation
  executor : Option ExecutorType

namespace Slot

def empty : Slot κ := ⟨none, none, none, none, none, none, none⟩

structure Committed (id : GoString) (resources : Resources κ) (v : Slot κ) : Prop where
  committed : v.committed = some ⟨resources, id⟩
  allocated : v.allocated = none
  commit : v.commit.isSome = true
  entered : v.entered = none

structure Uncommitted (v : Slot κ) : Prop where
  committed : v.committed = none
  commit : v.commit = none
  commitPorts : v.commitPorts = none
  commitDynamicPorts : v.commitDynamicPorts = none

structure Free (v : Slot κ) : Prop extends v.Uncommitted where
  allocated : v.allocated = none

theorem empty_free : (empty : Slot κ).Free := ⟨⟨rfl, rfl, rfl, rfl⟩, rfl⟩

/-- The resources are moved from the commitment to the allocation. -/
def move (id : GoString) (v : Slot κ) : Slot κ := { v with
    committed := none
    allocated := v.committed.map fun c => ⟨id, c.resources⟩ }

def enter (id : GoString) (executor : Option ExecutorType) (v : Slot κ) : Slot κ := { v.move id with
    commit := none
    commitPorts := none
    commitDynamicPorts := none
    entered := some ⟨v.commitPorts.getD ∅, v.commitDynamicPorts.getD 0⟩
    executor := executor }

/-- The allocation is terminated and the database lets go of its resources. -/
def release (env : ReleaseEnv κ) (v : Slot κ) : Slot κ :=
  if v.entered.isSome ∧ v.allocated.isSome ∧ env.releases then
    { v with allocated := none, entered := if env.unmount.isOk then none else v.entered }
  else v

def uncommit (v : Slot κ) : Slot κ :=
  if v.commit.isSome ∧ v.committed.isSome then
    { v with committed := none, commit := none, commitPorts := none, commitDynamicPorts := none }
  else v

def rollBack (env : ReleaseEnv κ) (v : Slot κ) : Slot κ := (v.release env).uncommit

end Slot

namespace Books

def slot (b : Books κ) (id : GoString) : Slot κ :=
  ⟨b.allocator.resources.committedResources.lookup id, b.allocator.resources.allocations.lookup id,
    b.allocator.commits.lookup id, b.allocator.commitPorts.lookup id,
    b.allocator.commitDynamicPorts.lookup id, b.allocator.allocations.lookup id,
    b.executors.lookup id⟩

theorem ite_eq_slot (b : Books κ) (id id' : GoString) :
    (if id' = id then b.slot id else b.slot id') = b.slot id' :=
  ite_eq_right_iff.mpr fun h => h ▸ rfl

variable [Cores κ]

theorem restoreAllocCommit_cases (hardware : Except String Bool) (call : Call κ) (now : Int)
    (id : GoString) (r : Resources κ) (ports : GoMap Int Int) (n : Int) (a : Allocator κ) :
    ∃ ob, (∃ e, a.restoreAllocCommit hardware call now id r ports n =
        ({ a with resources := { a.resources with onboardedResources := ob } }, .error e)) ∨
      a.restoreAllocCommit hardware call now id r ports n = ({ a with
          resources := { a.resources with onboardedResources := ob }.commit ⟨r, id⟩
          commits := a.commits.insert id (now + defaultCommitTimeout)
          commitPorts := a.commitPorts.insert id ports
          commitDynamicPorts := a.commitDynamicPorts.insert id n }, .ok ()) := by
  unfold restoreAllocCommit
  cases hardwareCheck hardware with
  | error e => exact ⟨a.resources.onboardedResources, .inl ⟨e, rfl⟩⟩
  | ok u =>
    obtain ⟨ob, ⟨e, heq⟩ | ⟨_, heq⟩⟩ :=
      commitResources_cases a.resources call ⟨r, id⟩
    · exact ⟨ob, .inl ⟨_, by rw [heq]⟩⟩
    · exact ⟨ob, .inr (by rw [heq])⟩

theorem commitOne_cases (env : RestoreEnv κ) (ap : PersistedEnsemble κ) (id : GoString)
    (b : Books κ) {st} (hst : ap.allocations.lookup id = some st) :
    ∃ ob, ((b.commitOne env ap id).2.isOk = false ∧ (b.commitOne env ap id).1 = { b with
          allocator.resources.onboardedResources := ob }) ∨
      (b.commitOne env ap id).1 = { b with
          allocator.resources :=
            { b.allocator.resources with onboardedResources := ob }.commit
              ⟨st.content.resources, id⟩
          allocator.commits := b.allocator.commits.insert id (env.now + defaultCommitTimeout)
          allocator.commitPorts := b.allocator.commitPorts.insert id st.content.ports
          allocator.commitDynamicPorts :=
            b.allocator.commitDynamicPorts.insert id st.content.dynamicPortsNum } := by
  rw [commitOne, hst]
  dsimp only
  obtain ⟨ob, ⟨e, heq⟩ | heq⟩ := restoreAllocCommit_cases (env.hardware id) (env.call id)
    env.now id st.content.resources st.content.ports st.content.dynamicPortsNum b.allocator
  · rw [heq]
    exact ⟨ob, .inl ⟨rfl, rfl⟩⟩
  rw [heq]
  refine ⟨ob, .inr ?_⟩
  cases answered ("decode private key for allocation " ++ printed id)
      (env.decodeKey id) with
  | error e | ok u => rfl

theorem commitOne_local (env : RestoreEnv κ) (ap : PersistedEnsemble κ) (id id' : GoString)
    (b : Books κ) (h : id' ≠ id) : (b.commitOne env ap id).1.slot id' = b.slot id' := by
  cases hst : ap.allocations.lookup id with
  | none =>
    rw [commitOne, hst]
  | some st =>
    obtain ⟨ob, ⟨_, heq⟩ | heq⟩ := b.commitOne_cases env ap id hst
    · rw [heq]
      rfl
    · rw [heq]
      simp [slot, Store.commit, h]

theorem commitOne_slot (env : RestoreEnv κ) (ap : PersistedEnsemble κ) {id}
    {b : Books κ} {st} (hst : ap.allocations.lookup id = some st) (hempty : b.slot id = .empty) :
    ((b.commitOne env ap id).2.isOk = false ∧ (b.commitOne env ap id).1.slot id = .empty) ∨
      ((b.commitOne env ap id).1.slot id).Committed id st.content.resources := by
  obtain ⟨ob, ⟨hfailed, heq⟩ | heq⟩ := b.commitOne_cases env ap id hst
  · rw [heq]
    exact .inl ⟨hfailed, hempty⟩
  have hallocated : b.allocator.resources.allocations.lookup id = none :=
    congrArg Slot.allocated hempty
  have hentered : b.allocator.allocations.lookup id = none := congrArg Slot.entered hempty
  rw [heq]
  refine .inr ⟨?_, hallocated, ?_, hentered⟩
  · exact lookup_insert _
  show Option.isSome (lookup id (b.allocator.commits.insert id _)) = true
  rw [lookup_insert]
  rfl

end Books

def granted : Except String Bool → Bool
  | .ok capacity => capacity
  | .error _ => false

/-- `Allocate` of a committed allocation moves the resources. -/
def AllocateEnv.moves (env : AllocateEnv κ) : Bool :=
  granted env.hardware && env.mount.isOk && env.call.create.isOk

def AllocateEnv.enters (env : AllocateEnv κ) : Bool :=
  env.moves && env.newAllocation.isOk && env.start.isOk

namespace Allocator

variable {a : Allocator κ} {id : GoString} {c : CommittedResources κ}

def moved (a : Allocator κ) (id : GoString) (c : CommittedResources κ) : Store κ :=
  (a.resources.allocate ⟨id, c.resources⟩).clear id

theorem hardwareCheck_isOk (ans : Except String Bool) :
    (hardwareCheck (κ := κ) ans).isOk = granted ans := by
  match ans with
  | .error text | .ok true | .ok false => rfl

variable {env : AllocateEnv κ} (hcommit : id ∈ a.commits)
  (hc : a.resources.committedResources.lookup id = some c)
  (hfresh : c.allocationID ∉ a.resources.allocations)

include hcommit hc hfresh

theorem allocate_of_not_moves (h : env.moves = false) : ∃ e, a.allocate env id = (a, .error e) := by
  rw [AllocateEnv.moves, ← hardwareCheck_isOk] at h
  rw [allocate, allocateResources, if_neg (not_not.mpr hcommit), hc]
  dsimp only
  rw [if_neg hfresh]
  revert h
  rcases hardwareCheck env.hardware with e | _
  · exact fun _ => ⟨e, rfl⟩
  rcases env.mount with _ | _
  · exact fun _ => ⟨_, rfl⟩
  rcases env.call.create with _ | _ <;> intro h
  · exact ⟨_, rfl⟩
  · cases h

theorem allocate_of_moves (h : env.moves = true) : if env.enters then
      a.allocate env id = ({ a with
          resources := a.moved id c
          commits := a.commits.erase id
          commitPorts := a.commitPorts.erase id
          commitDynamicPorts := a.commitDynamicPorts.erase id
          allocations := a.allocations.insert id
            ⟨(a.commitPorts.lookup id).getD ∅, (a.commitDynamicPorts.lookup id).getD 0⟩ },
          .ok ⟨(a.commitPorts.lookup id).getD ∅, (a.commitDynamicPorts.lookup id).getD 0⟩)
    else ∃ e, a.allocate env id = ({ a with resources := a.moved id c }, .error e) := by
  rw [AllocateEnv.enters, h]
  rw [AllocateEnv.moves, ← hardwareCheck_isOk] at h
  rw [allocate, allocateResources, if_neg (not_not.mpr hcommit), hc]
  dsimp only
  rw [if_neg hfresh]
  revert h
  rcases hardwareCheck env.hardware with _ | _ <;> rcases env.mount with _ | _ <;>
    rcases env.call.create with _ | _ <;> intro h <;> try cases h
  rcases env.newAllocation with _ | _
  · exact ⟨_, rfl⟩
  rcases env.start with _ | _
  · exact ⟨_, rfl⟩
  · rfl

end Allocator

/-- The type of the executor that `createExecutor` makes for a persisted allocation. -/
def executorOf (ap : PersistedEnsemble κ) (id : GoString) : Option ExecutorType :=
  (ap.allocations.lookup id).bind fun st => executorType st.content.executionType

namespace RestoreEnv

variable (env : RestoreEnv κ) (ap : PersistedEnsemble κ) (id : GoString)

/-- `createAllocation` gets to `Allocate`. -/
def prepares : Bool :=
  (executorOf ap id).isSome && (env.newExecutor id).isOk && (env.createChild id).isOk

def moves : Bool :=
  env.prepares ap id && (env.allocate id).moves

def enters : Bool :=
  env.prepares ap id && (env.allocate id).enters

/-- Nothing fails in `createAllocations` for an allocation that is committed. -/
def creates : Bool :=
  env.enters ap id && (env.allocationDID id).isOk && (env.grantAllocation id).isOk &&
    (env.grantEnsemble id).isOk

/-- What `createAllocations` makes of a committed allocation. -/
def created (v : Slot κ) : Slot κ :=
  if env.enters ap id then v.enter id (executorOf ap id)
  else if env.moves ap id then v.move id
  else v

end RestoreEnv

namespace Books

variable {b : Books κ} {id : GoString} {c : CommittedResources κ}

theorem grantCaps_isOk (env : RestoreEnv κ) (id : GoString) :
    (grantCaps env id).isOk = ((env.allocationDID id).isOk && (env.grantAllocation id).isOk &&
      (env.grantEnsemble id).isOk) := by
  unfold grantCaps
  match env.allocationDID id, env.grantAllocation id, env.grantEnsemble id with
  | .error _, _, _ | .ok _, .error _, _ | .ok _, .ok _, .error _ | .ok _, .ok _, .ok _ => rfl

variable {ap : PersistedEnsemble κ} {env : RestoreEnv κ}

theorem createAllocation_of_not_prepares {st} (hst : ap.allocations.lookup id = some st)
    (h : env.prepares ap id = false) :
    ∃ e, b.createAllocation env st.content.executionType id = (b, .error e) := by
  rw [prepares, executorOf, hst, Option.bind_some] at h
  unfold createAllocation
  match executorType st.content.executionType, env.newExecutor id, env.createChild id, h with
  | none, _, _, _ | some _, .error _, _, _ | some _, .ok _, .error _, _ => exact ⟨_, rfl⟩
  | some _, .ok _, .ok _, h => cases h

theorem createAllocation_of_prepares {st} (hst : ap.allocations.lookup id = some st)
    (h : env.prepares ap id = true) : ∃ executor, executorOf ap id = some executor ∧
      b.createAllocation env st.content.executionType id =
        match b.allocator.allocate (env.allocate id) id with
        | (a, .error e) => ({ b with allocator := a }, .error (e.wrap "allocate"))
        | (a, .ok _) => (⟨a, b.executors.insert id executor⟩, .ok ()) := by
  rw [prepares, executorOf, hst, Option.bind_some] at h
  rw [executorOf, createAllocation, hst, Option.bind_some]
  match executorType st.content.executionType, env.newExecutor id, env.createChild id, h with
  | none, _, _, h | some _, .error _, _, h | some _, .ok _, .error _, h => cases h
  | some executor, .ok _, .ok _, _ => exact ⟨executor, rfl, rfl⟩

/-- The allocation is persisted, and committed with the resources it was persisted with. -/
def Pledged (ap : PersistedEnsemble κ) (id : GoString) (v : Slot κ) : Prop :=
  ∃ st, ap.allocations.lookup id = some st ∧ v.Committed id st.content.resources

attribute [local simp] Store.allocate

theorem createOne_of_pledged (env : RestoreEnv κ) (h : Pledged ap id (b.slot id)) :
    (b.createOne env ap id).2.isOk = env.creates ap id ∧ ∀ id', (b.createOne env ap id).1.slot id' =
        if id' = id then env.created ap id (b.slot id) else b.slot id' := by
  obtain ⟨st, hst, hv⟩ := h
  have hcommit : id ∈ b.allocator.commits := lookup_isSome.mp hv.commit
  have hfresh : id ∉ b.allocator.resources.allocations := lookup_eq_none.mp hv.allocated
  have hc : b.allocator.resources.committedResources.lookup id = _ := hv.committed
  have hunchanged (id' : GoString) := (ite_eq_slot b id id').symm
  rw [createOne, creates, created, enters, moves, hst]
  dsimp only
  cases hprepares : env.prepares ap id with
  | false =>
    obtain ⟨e, heq⟩ := createAllocation_of_not_prepares hst hprepares
    rw [heq]
    exact ⟨rfl, hunchanged⟩
  | true =>
    obtain ⟨executor, hexecutor, heq⟩ := createAllocation_of_prepares (b := b) hst hprepares
    simp only [heq, Bool.true_and]
    cases hmoves : (env.allocate id).moves with
    | false =>
      obtain ⟨e, hallocate⟩ := allocate_of_not_moves hcommit hv.committed hfresh hmoves
      rw [hallocate, AllocateEnv.enters, hmoves]
      exact ⟨rfl, hunchanged⟩
    | true =>
      have hallocate := allocate_of_moves hcommit hv.committed hfresh hmoves
      cases henters : (env.allocate id).enters with
      | false =>
        rw [henters] at hallocate
        obtain ⟨e, hallocate⟩ := hallocate
        rw [hallocate]
        refine ⟨rfl, fun id' => ?_⟩
        by_cases hid : id' = id
        · subst hid
          simp [slot, Slot.move, moved, clear, hc]
        · simp [slot, moved, clear, hid]
      | true =>
        rw [henters] at hallocate
        rw [hallocate, hexecutor]
        refine ⟨grantCaps_isOk env id, fun id' => ?_⟩
        by_cases hid : id' = id
        · subst hid
          simp [slot, Slot.enter, Slot.move, moved, clear, hc]
        · simp [slot, moved, clear, hid]

end Books

namespace Allocator

variable {a : Allocator κ} {id : GoString}

theorem deallocateResources_of_releases {s : Store κ} {call : Call κ} (hmem : id ∈ s.allocations)
    (hfind : call.find.isOk = true) (hdelete : call.delete.isOk = true) :
    s.deallocateResources call id = (s.drop id, .ok ()) := by
  obtain ⟨_, hfind⟩ := Outcome.isOk_iff.mp hfind
  obtain ⟨_, hdelete⟩ := Outcome.isOk_iff.mp hdelete
  rw [deallocateResources, if_neg (not_not.mpr hmem), deleteAllocation, hfind, hdelete]
  rfl

theorem deallocateResources_of_not_releases {s : Store κ} {call : Call κ}
    (h : id ∉ s.allocations ∨ (call.find.isOk && call.delete.isOk) = false) :
    ∃ e, s.deallocateResources call id = (s, .error e) := by
  unfold deallocateResources deleteAllocation
  by_cases hmem : id ∈ s.allocations
  · rw [if_neg (not_not.mpr hmem)]
    match call.find, call.delete, h.resolve_left (not_not.mpr hmem) with
    | .error _, _, _ | .ok _, .error _, _ => exact ⟨_, rfl⟩
    | .ok _, .ok _, h => cases h
  · exact ⟨_, if_pos hmem⟩

theorem release_of_releases {env : ReleaseEnv κ} (hmem : id ∈ a.allocations)
    (hallocated : id ∈ a.resources.allocations) (h : env.releases = true) :
    (a.release env id).1 = { a with
        ports := a.ports.release id
        resources := a.resources.drop id
        allocations := if env.unmount.isOk then a.allocations.erase id else a.allocations } := by
  simp only [ReleaseEnv.releases, Bool.and_eq_true] at h
  unfold release
  simp only [hmem, not_true_eq_false, if_false,
    deallocateResources_of_releases hallocated h.1.2 h.2]
  match env.terminate, env.unmount, h.1.1 with
  | .error _, _, h => cases h
  | .ok _, .error _, _ | .ok _, .ok _, _ => rfl

theorem release_of_not_releases {env : ReleaseEnv κ}
    (h : ¬ (id ∈ a.allocations ∧ id ∈ a.resources.allocations ∧ env.releases = true)) :
    (a.release env id).1 = { a with ports := a.ports.release id } := by
  unfold release
  by_cases hmem : id ∈ a.allocations
  · simp only [hmem, not_true_eq_false, if_false]
    cases ht : env.terminate with
    | error text => rfl
    | ok u =>
      have hkeeps : id ∉ a.resources.allocations ∨
          (env.call.find.isOk && env.call.delete.isOk) = false := by
        simpa [hmem, ReleaseEnv.releases, ht, Except.toBool, Classical.or_iff_not_imp_left] using h
      obtain ⟨e, heq⟩ := deallocateResources_of_not_releases hkeeps
      simp [heq]
  · simp [hmem]

end Allocator

namespace Books

theorem release_slot (env : ReleaseEnv κ) (b : Books κ) (id id' : GoString) :
    { b with allocator := (b.allocator.release env id).1 }.slot id' =
      if id' = id then (b.slot id).release env else b.slot id' := by
  by_cases hall : id ∈ b.allocator.allocations ∧ id ∈ b.allocator.resources.allocations ∧
      env.releases = true
  · have hslot : (b.slot id).entered.isSome ∧ (b.slot id).allocated.isSome ∧ env.releases = true :=
      ⟨lookup_isSome.mpr hall.1, lookup_isSome.mpr hall.2.1, hall.2.2⟩
    rw [release_of_releases hall.1 hall.2.1 hall.2.2, Slot.release, if_pos hslot]
    by_cases h : id' = id
    · subst h
      cases env.unmount.isOk <;> simp [slot, drop]
    · cases env.unmount.isOk <;> simp [slot, drop, h]
  have hslot : ¬ ((b.slot id).entered.isSome ∧ (b.slot id).allocated.isSome ∧
      env.releases = true) :=
    fun h => hall ⟨lookup_isSome.mp h.1, lookup_isSome.mp h.2.1, h.2.2⟩
  rw [release_of_not_releases hall, Slot.release, if_neg hslot]
  exact (ite_eq_slot b id id').symm

theorem uncommit_slot (b : Books κ) (id id' : GoString) :
    { b with allocator := (b.allocator.uncommit id).1 }.slot id' =
      if id' = id then (b.slot id).uncommit else b.slot id' := by
  by_cases hboth : id ∈ b.allocator.commits ∧ id ∈ b.allocator.resources.committedResources
  · have hslot : (b.slot id).commit.isSome ∧ (b.slot id).committed.isSome :=
      ⟨lookup_isSome.mpr hboth.1, lookup_isSome.mpr hboth.2⟩
    rw [uncommit_of_mem hboth.1 hboth.2, Slot.uncommit, if_pos hslot]
    by_cases h : id' = id
    · subst h
      simp [slot, clear]
    · simp [slot, clear, h]
  have hslot : ¬ ((b.slot id).commit.isSome ∧ (b.slot id).committed.isSome) :=
    fun h => hboth ⟨lookup_isSome.mp h.1, lookup_isSome.mp h.2⟩
  have hkeeps : (b.allocator.uncommit id).1 =
      { b.allocator with ports := b.allocator.ports.release id } := by
    by_cases hcommitted : id ∈ b.allocator.resources.committedResources
    · have hcommits : id ∉ b.allocator.commits := fun h => hboth ⟨h, hcommitted⟩
      simp [uncommit, hcommits]
    · exact uncommit_of_not_mem hcommitted
  rw [hkeeps, Slot.uncommit, if_neg hslot]
  exact (ite_eq_slot b id id').symm

theorem rollbackOne_slot (env : RestoreEnv κ) (b : Books κ) (id id' : GoString) :
    (b.rollbackOne env id).slot id' =
      if id' = id then (b.slot id).rollBack (env.release id) else b.slot id' := by
  have hrelease := release_slot (env.release id) b id
  have huncommit :=
    uncommit_slot { b with allocator := (b.allocator.release (env.release id) id).1 } id id'
  rw [rollbackOne, huncommit, hrelease, hrelease, if_pos rfl]
  split <;> rfl

theorem rollbackRestoredAlloc_slot (env : RestoreEnv κ) {ap : PersistedEnsemble κ} (b : Books κ)
    {id} (h : id ∈ ap.allocations) :
    (b.rollbackRestoredAlloc env ap).slot id = (b.slot id).rollBack (env.release id) := by
  have hvisited : id ∈ env.rollbackOrder.visit ap.allocations.keys :=
    env.rollbackOrder.mem_visit.mpr (mem_keys.mp h)
  have hloop := foldl_view (fun id (v : Slot κ) => v.rollBack (env.release id))
    (rollbackOne_slot env) (env.rollbackOrder.nodup_visit ap.allocations.keys_nodup) b id
  rwa [if_pos hvisited] at hloop

end Books

namespace Slot

variable {env : ReleaseEnv κ} {v : Slot κ} {id : GoString} {r : Resources κ}

theorem release_of_not_entered (h : v.entered = none) (env : ReleaseEnv κ) : v.release env = v := by
  rw [release, if_neg (by simp [h])]

theorem Committed.rolledBack (h : v.Committed id r) (env : ReleaseEnv κ) :
    (v.rollBack env).Free := by
  rw [rollBack, release_of_not_entered h.entered, uncommit,
    if_pos ⟨h.commit, by simp [h.committed]⟩]
  exact ⟨⟨rfl, rfl, rfl, rfl⟩, h.allocated⟩

theorem Committed.moved_not_rolledBack (h : v.Committed id r) (env : ReleaseEnv κ) :
    ¬ ((v.move id).rollBack env).Free := by
  have huncommit : (v.move id).uncommit = v.move id := by
    rw [uncommit, if_neg (by simp [move])]
  rw [rollBack, release_of_not_entered (show (v.move id).entered = none from h.entered), huncommit]
  intro hfree
  have hallocated := hfree.allocated
  simp [move, h.committed] at hallocated

theorem Committed.entered_rolledBack_iff (h : v.Committed id r)
    (executor : Option ExecutorType) (env : ReleaseEnv κ) :
    ((v.enter id executor).rollBack env).Free ↔ env.releases = true := by
  have huncommit : ((v.enter id executor).release env).uncommit =
      (v.enter id executor).release env := by
    rw [uncommit, if_neg]
    unfold release
    split <;> simp [enter]
  rw [rollBack, huncommit, release]
  cases hreleases : env.releases with
  | true =>
    rw [if_pos (by simp [enter, move, h.committed])]
    exact iff_of_true ⟨⟨rfl, rfl, rfl, rfl⟩, rfl⟩ rfl
  | false =>
    refine iff_of_false (fun hfree => ?_) Bool.false_ne_true
    have hallocated := hfree.allocated
    simp [enter, move, h.committed] at hallocated

theorem Committed.created_rolledBack_iff (h : v.Committed id r) (env : RestoreEnv κ)
    (ap : PersistedEnsemble κ) : ((env.created ap id v).rollBack (env.release id)).Free ↔
      (env.moves ap id = true → env.enters ap id = true) ∧
        (env.enters ap id = true → (env.release id).releases = true) := by
  unfold created
  cases henters : env.enters ap id with
  | true =>
    rw [if_pos rfl, h.entered_rolledBack_iff]
    simp
  | false =>
    cases hmoves : env.moves ap id with
    | true =>
      simp [h.moved_not_rolledBack]
    | false =>
      simp [h.rolledBack]

end Slot

end DMS.Node
