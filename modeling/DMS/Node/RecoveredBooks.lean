import DMS.Node.RecoverySlots

/-! # The books after a recovery

A recovery that succeeds is meant to leave the node with the resources, ports and executors that
it had before the restart, and one that fails with nothing of them. The loops of
`restoreAllocations` take the allocations one by one; nothing of it reserves ports.
-/

namespace DMS.Node

open DMS.Types Resources Sweep RestoreEnv PortAllocator AList

variable {κ : Type}

namespace RestoreEnv

theorem created_of_creates {env : RestoreEnv κ} {ap id}
    (h : env.creates ap id = true) (v : Slot κ) :
    env.created ap id v = v.enter id (executorOf ap id) := by
  simp only [creates, Bool.and_eq_true] at h
  exact if_pos h.1.1.1

/-- The allocations that the loop of `createAllocations` gets to. -/
def attempts (env : RestoreEnv κ) (ap : PersistedEnsemble κ) : List GoString :=
  attempted (env.creates ap) (env.createOrder.visit ap.allocations.keys)

/-- Nothing fails after the allocations have been created. -/
def operates (env : RestoreEnv κ) (ap : PersistedEnsemble κ) : Bool :=
  (sweep (Books.connect (κ := κ) env ap) (env.networkOrder.visit ap.allocations.keys) []).2.isOk &&
    env.addBehaviors.isOk &&
    (env.runOrder.visit ap.allocations.keys).all fun id => (env.run id).isOk

/-- Nothing fails once the allocations are committed. -/
def goesThrough (env : RestoreEnv κ) (ap : PersistedEnsemble κ) : Bool :=
  (env.createOrder.visit ap.allocations.keys).all (env.creates ap) && env.operates ap

end RestoreEnv

namespace Books

variable {env : RestoreEnv κ} {ap : PersistedEnsemble κ} {b : Books κ}

theorem runOne_of_entered {id} (h : (b.slot id).entered.isSome = true) : b.runOne env id =
      (b, answered ("run allocation " ++ printed id ++ " after restore") (env.run id)) :=
  if_neg (not_not.mpr (lookup_isSome.mp h))

variable (env ap b) in
theorem operate_fst : (b.operate env ap).1 = b := by
  unfold operate
  split
  · rfl
  split
  · rfl
  · exact sweep_invariant (· = b) (fun id b' h => by unfold runOne; split <;> exact h) _ rfl

theorem operate_isOk (h : ∀ id ∈ ap.allocations, (b.slot id).entered.isSome = true) :
    (b.operate env ap).2.isOk = env.operates ap := by
  have hruns : (sweep (runOne env) (env.runOrder.visit ap.allocations.keys) b).2.isOk =
      (env.runOrder.visit ap.allocations.keys).all fun id => (env.run id).isOk := by
    have hcall (id : GoString) (b : Books κ) (hentered : (b.slot id).entered.isSome = true) :
        (b.runOne env id).2.isOk = (env.run id).isOk ∧
          ∀ id', (b.runOne env id).1.slot id' = if id' = id then b.slot id else b.slot id' := by
      rw [runOne_of_entered hentered]
      exact ⟨by cases env.run id <;> rfl, fun id' => (ite_eq_slot b id id').symm⟩
    exact (sweep_attempted (fun _ (v : Slot κ) => v.entered.isSome = true)
      (fun id => (env.run id).isOk)
      (fun _ v => v) hcall (env.runOrder.nodup_visit ap.allocations.keys_nodup) fun id hid =>
      h id (mem_keys.mpr (env.runOrder.mem_visit.mp hid))).1
  unfold operate operates
  match (sweep (connect env ap) (env.networkOrder.visit ap.allocations.keys) []).2,
    env.addBehaviors with
  | .error _, _ | .ok _, .error _ => rfl
  | .ok _, .ok _ => exact hruns

theorem createAllocations_of_not_creating (b : Books κ)
    (h : ap.allocations.keys ≠ [] → env.supervisor = false) :
    ∃ e, b.createAllocations env ap = (b, .error e) := by
  by_cases hkeys : ap.allocations.keys = []
  · exact ⟨_, if_pos hkeys⟩
  · exact ⟨_, (if_neg hkeys).trans (if_pos (h hkeys))⟩

/-- The loop of `createAllocations`. -/
def createAll (env : RestoreEnv κ) (ap : PersistedEnsemble κ) (b : Books κ) :
    Books κ × AllocatorResult κ Unit :=
  sweep (createOne env ap) (env.createOrder.visit ap.allocations.keys) b

theorem createAllocations_of_creating (hkeys : ap.allocations.keys ≠ [])
    (hsupervisor : env.supervisor = true) : b.createAllocations env ap = b.createAll env ap := by
  rw [createAllocations, if_neg hkeys, if_neg (by simp [hsupervisor])]
  rfl

variable [Cores κ]

/-- The first loop of `restoreAllocations`. -/
def commitAll (env : RestoreEnv κ) (ap : PersistedEnsemble κ) (b : Books κ) :
    Books κ × AllocatorResult κ Unit :=
  sweep (commitOne env ap) (env.commitOrder.visit ap.allocations.keys) b

structure Fresh (b : Books κ) : Prop where
  slots : ∀ id, b.slot id = .empty
  reserved : b.allocator.ports.reserved = ∅
  lists : ∀ id, id ∉ b.allocator.ports.allocations

theorem commitAll_slot (env : RestoreEnv κ) (ap : PersistedEnsemble κ) (hfresh : b.Fresh) :
    ((b.commitAll env ap).2.isOk = true →
        ∀ id ∈ ap.allocations, Pledged ap id ((b.commitAll env ap).1.slot id)) ∧
      (∀ id ∈ ap.allocations, Pledged ap id ((b.commitAll env ap).1.slot id) ∨
        (b.commitAll env ap).1.slot id = .empty) ∧
      ∀ id, id ∉ ap.allocations → (b.commitAll env ap).1.slot id = .empty := by
  have hvisit (id : GoString) : id ∈ env.commitOrder.visit ap.allocations.keys ↔
      id ∈ ap.allocations := env.commitOrder.mem_visit.trans mem_keys.symm
  have hone (id : GoString) (b : Books κ) (h : id ∈ ap.allocations ∧ b.slot id = .empty) :
      ((b.commitOne env ap id).2.isOk = false ∧ (b.commitOne env ap id).1.slot id = .empty) ∨
        Pledged ap id ((b.commitOne env ap id).1.slot id) := by
    obtain ⟨st, hst⟩ := Option.isSome_iff_exists.mp (lookup_isSome.mpr h.1)
    exact (commitOne_slot env ap hst h.2).imp_right fun hv => ⟨st, hst, hv⟩
  obtain ⟨hdone, hbegun, hother⟩ := sweep_cases
    (fun id v => id ∈ ap.allocations ∧ v = .empty) (Pledged ap)
    (fun id v => Pledged ap id v ∨ v = .empty) (commitOne_local env ap)
    (fun id b h hok => (hone id b h).resolve_left fun hleft => by simp [hleft.1] at hok)
    (fun id b h _ => (hone id b h).symm.imp_right And.right)
    (env.commitOrder.nodup_visit ap.allocations.keys_nodup)
    (fun id hid => ⟨(hvisit id).mp hid, hfresh.slots id⟩)
  refine ⟨fun hok id hid => hdone hok id ((hvisit id).mpr hid), fun id hid => ?_, fun id hid => ?_⟩
  · rcases hbegun id ((hvisit id).mpr hid) with h | h | h
    · exact .inl h
    · exact h
    · exact .inr h.2
  · exact (hother id fun h => hid ((hvisit id).mp h)).trans (hfresh.slots id)

/-- The loop of `createAllocations` is reached. -/
structure Creating (env : RestoreEnv κ) (ap : PersistedEnsemble κ) (b : Books κ) : Prop where
  committed : (b.commitAll env ap).2.isOk = true
  nonempty : ap.allocations.keys ≠ []
  supervisor : env.supervisor = true

theorem tryRestore_of_not_creating (h : ¬ Creating env ap b) :
    (b.tryRestore env ap).2.isOk = false ∧ (b.tryRestore env ap).1 = (b.commitAll env ap).1 := by
  match hcommit : b.commitAll env ap with
  | (b', .error e) =>
    unfold commitAll at hcommit
    rw [tryRestore, hcommit]
    exact ⟨rfl, rfl⟩
  | (b', .ok u) =>
    have hrefused : ap.allocations.keys ≠ [] → env.supervisor = false := fun hkeys =>
      Bool.eq_false_iff.mpr fun hsupervisor => h ⟨by rw [hcommit]; rfl, hkeys, hsupervisor⟩
    obtain ⟨e, heq⟩ := createAllocations_of_not_creating b' hrefused
    unfold commitAll at hcommit
    rw [tryRestore, hcommit]
    dsimp only
    rw [heq]
    exact ⟨rfl, rfl⟩

theorem tryRestore_of_creating (hfresh : b.Fresh) (h : Creating env ap b) :
    (b.tryRestore env ap).2.isOk = env.goesThrough ap ∧
      (∀ id ∈ env.attempts ap, (b.tryRestore env ap).1.slot id =
        env.created ap id ((b.commitAll env ap).1.slot id)) ∧ ∀ id, id ∉ env.attempts ap →
        (b.tryRestore env ap).1.slot id = (b.commitAll env ap).1.slot id := by
  have hpledged := (commitAll_slot env ap hfresh).1 h.committed
  match hcommit : b.commitAll env ap with
  | (b', .error e) =>
    have hok := h.committed
    rw [hcommit] at hok
    cases hok
  | (b', .ok u) =>
    rw [hcommit] at hpledged
    obtain ⟨hok, hslot⟩ := sweep_attempted (Pledged ap) (env.creates ap) (env.created ap)
      (fun _ _ => createOne_of_pledged env) (env.createOrder.nodup_visit ap.allocations.keys_nodup)
      fun id hid => hpledged id (mem_keys.mpr (env.createOrder.mem_visit.mp hid))
    unfold commitAll at hcommit
    rw [tryRestore, goesThrough, hcommit]
    dsimp only at hok hslot ⊢
    rw [createAllocations_of_creating h.nonempty h.supervisor]
    rcases hcreate : b'.createAll env ap with ⟨b'', e | u⟩ <;> unfold createAll at hcreate <;>
      rw [hcreate] at hok hslot <;> rw [← hok]
    · exact ⟨rfl, hslot⟩
    rw [operate_fst]
    refine ⟨operate_isOk fun id hid => ?_, hslot⟩
    have hcreates := List.all_eq_true.mp hok.symm
    have hvisited := env.createOrder.mem_visit.mpr (mem_keys.mp hid)
    rw [hslot.1 id (by rwa [attempted_of_all hcreates]), created_of_creates (hcreates id hvisited)]
    rfl

end Books

theorem PortAllocator.release_of_not_mem {pa : PortAllocator} {id}
    (h : id ∉ pa.allocations) : pa.release id = pa := by
  rw [release, lookup_eq_none.mpr h]

namespace Allocator

theorem allocate_ports (env : AllocateEnv κ) (id : GoString) (a : Allocator κ) :
    (a.allocate env id).1.ports = a.ports := by
  unfold allocate
  repeat' split
  all_goals rfl

theorem release_ports (env : ReleaseEnv κ) (id : GoString) (a : Allocator κ) :
    (a.release env id).1.ports = a.ports.release id := by
  by_cases h : id ∈ a.allocations ∧ id ∈ a.resources.allocations ∧ env.releases = true
  · rw [release_of_releases h.1 h.2.1 h.2.2]
  · rw [release_of_not_releases h]

theorem uncommit_ports (id : GoString) (a : Allocator κ) :
    (a.uncommit id).1.ports = a.ports.release id := by
  unfold uncommit
  dsimp only
  repeat' split
  all_goals rfl

end Allocator

namespace Books

variable {env : RestoreEnv κ} {ap : PersistedEnsemble κ} {b : Books κ}

theorem createOne_ports (env : RestoreEnv κ) (ap : PersistedEnsemble κ) (id : GoString)
    (b : Books κ) : (b.createOne env ap id).1.allocator.ports = b.allocator.ports := by
  have hcreate (executionType : GoString) :
      (b.createAllocation env executionType id).1.allocator.ports = b.allocator.ports := by
    have hallocate := b.allocator.allocate_ports (env.allocate id) id
    unfold createAllocation
    split
    · rfl
    split
    · rfl
    split
    · rfl
    · split <;> next heq => rwa [heq] at hallocate
  unfold createOne
  split
  · rfl
  rename_i st _
  have hports := hcreate st.content.executionType
  split <;> next heq => rwa [heq] at hports

variable (env ap b) in
theorem createAllocations_ports :
    (b.createAllocations env ap).1.allocator.ports = b.allocator.ports := by
  unfold createAllocations
  split
  · rfl
  split
  · rfl
  · exact sweep_invariant (fun b' => b'.allocator.ports = b.allocator.ports)
      (fun id b' h => (createOne_ports env ap id b').trans h) _ rfl

theorem rollbackRestoredAlloc_ports (h : ∀ id, id ∉ b.allocator.ports.allocations) :
    (b.rollbackRestoredAlloc env ap).allocator.ports = b.allocator.ports := by
  refine List.foldlRecOn (motive := fun b' : Books κ => b'.allocator.ports = b.allocator.ports)
    _ _ rfl fun b' hb' id _ => ?_
  unfold rollbackOne
  rw [Allocator.uncommit_ports, Allocator.release_ports, hb',
    release_of_not_mem (h id), release_of_not_mem (h id)]

variable [Cores κ]

theorem commitOne_ports (env : RestoreEnv κ) (ap : PersistedEnsemble κ) (id : GoString)
    (b : Books κ) : (b.commitOne env ap id).1.allocator.ports = b.allocator.ports := by
  cases hst : ap.allocations.lookup id with
  | none =>
    rw [commitOne, hst]
  | some st =>
    obtain ⟨ob, ⟨_, heq⟩ | heq⟩ := b.commitOne_cases env ap id hst <;> rw [heq]

variable (env ap b) in
theorem tryRestore_ports : (b.tryRestore env ap).1.allocator.ports = b.allocator.ports := by
  have hcommit : (b.commitAll env ap).1.allocator.ports = b.allocator.ports :=
    sweep_invariant (fun b' => b'.allocator.ports = b.allocator.ports)
      (fun id b' h => (commitOne_ports env ap id b').trans h) _ rfl
  unfold commitAll at hcommit
  unfold tryRestore
  split
  · next heq => rwa [heq] at hcommit
  rename_i b' _ heq
  rw [heq] at hcommit
  have hcreate := (createAllocations_ports env ap b').trans hcommit
  split
  · next heq => rwa [heq] at hcreate
  rename_i heq
  rw [operate_fst]
  rwa [heq] at hcreate

/-- The node has the books that it had before. -/
structure Restored (before after : Books κ) : Prop where
  allocated : ∀ id, (after.slot id).allocated = (before.slot id).allocated
  ports : after.allocator.ports.Same before.allocator.ports
  uncommitted : ∀ id, (after.slot id).Uncommitted
  executors : ∀ id, (after.slot id).executor = (before.slot id).executor

structure RolledBack (ap : PersistedEnsemble κ) (after : Books κ) : Prop where
  free : ∀ id ∈ ap.allocations, (after.slot id).Free
  reserved : after.allocator.ports.reserved = ∅
  lists : ∀ id, id ∉ after.allocator.ports.allocations

structure Recovers (before : Books κ) (ap : PersistedEnsemble κ)
    (result : Books κ × AllocatorResult κ Unit) : Prop where
  restored : result.2.isOk = true → Restored before result.1
  rolledBack : result.2.isOk = false → RolledBack ap result.1

/-- No allocation is dropped between the move of its resources and its start; those that were
created can be released when the recovery fails; and one that goes through is of allocations
without ports. -/
structure Recoverable (env : RestoreEnv κ) (before : Books κ) (ap : PersistedEnsemble κ)
    (b : Books κ) : Prop where
  started : Creating env ap b → ∀ id ∈ env.attempts ap,
    env.moves ap id = true → env.enters ap id = true
  released : Creating env ap b → env.goesThrough ap = false → ∀ id ∈ env.attempts ap,
    env.enters ap id = true → (env.release id).releases = true
  resources : Creating env ap b → env.goesThrough ap = true → ∀ id, (before.slot id).allocated =
    (ap.allocations.lookup id).map fun st => ⟨id, st.content.resources⟩
  portless : Creating env ap b → env.goesThrough ap = true →
    before.allocator.ports.reserved = ∅ ∧ ∀ id, id ∉ before.allocator.ports.allocations

theorem restoreAllocations_of_ok (h : (b.tryRestore env ap).2.isOk = true) :
    (b.restoreAllocations env ap).2.isOk = true ∧
      (b.restoreAllocations env ap).1 = (b.tryRestore env ap).1 := by
  unfold restoreAllocations
  match b.tryRestore env ap, h with
  | (_, .ok _), _ => exact ⟨rfl, rfl⟩

theorem restoreAllocations_of_error (h : (b.tryRestore env ap).2.isOk = false) :
    (b.restoreAllocations env ap).2.isOk = false ∧
      (b.restoreAllocations env ap).1 = (b.tryRestore env ap).1.rollbackRestoredAlloc env ap := by
  unfold restoreAllocations
  match b.tryRestore env ap, h with
  | (_, .error _), _ => exact ⟨rfl, rfl⟩

theorem recovers_iff_free (pre : Books κ) (hfresh : b.Fresh)
    (h : (b.tryRestore env ap).2.isOk = false) :
    Recovers pre ap (b.restoreAllocations env ap) ↔ ∀ id ∈ ap.allocations,
      (((b.tryRestore env ap).1.slot id).rollBack (env.release id)).Free := by
  obtain ⟨herror, hstate⟩ := restoreAllocations_of_error h
  have hports := tryRestore_ports env ap b
  have hrollback : ((b.tryRestore env ap).1.rollbackRestoredAlloc env ap).allocator.ports =
      b.allocator.ports := by
    rw [rollbackRestoredAlloc_ports (hports ▸ hfresh.lists), hports]
  constructor
  · intro hrecovers id hid
    have hfree := (hrecovers.rolledBack herror).free id hid
    rwa [hstate, rollbackRestoredAlloc_slot env _ hid] at hfree
  intro hfree
  refine ⟨fun hok => by simp [herror] at hok, fun _ => ⟨fun id hid => ?_, ?_, ?_⟩⟩
  · rw [hstate, rollbackRestoredAlloc_slot env _ hid]
    exact hfree id hid
  · rw [hstate, hrollback]
    exact hfresh.reserved
  · rw [hstate, hrollback]
    exact hfresh.lists

theorem recovers_of_not_creating (pre : Books κ) (hfresh : b.Fresh)
    (h : ¬ Creating env ap b) : Recovers pre ap (b.restoreAllocations env ap) := by
  obtain ⟨herror, hstate⟩ := tryRestore_of_not_creating h
  refine (recovers_iff_free pre hfresh herror).mpr fun id hid => ?_
  rw [hstate]
  rcases (commitAll_slot env ap hfresh).2.1 id hid with ⟨st, _, hv⟩ | hempty
  · exact hv.rolledBack _
  · rw [hempty]
    exact Slot.empty_free

theorem recovers_iff_of_fails (pre : Books κ) (hfresh : b.Fresh) (h : Creating env ap b)
    (hfails : env.goesThrough ap = false) :
    Recovers pre ap (b.restoreAllocations env ap) ↔ ∀ id ∈ env.attempts ap,
      (env.moves ap id = true → env.enters ap id = true) ∧
        (env.enters ap id = true → (env.release id).releases = true) := by
  obtain ⟨hok, hattempted, hother⟩ := tryRestore_of_creating hfresh h
  have hpledged := (commitAll_slot env ap hfresh).1 h.committed
  rw [recovers_iff_free pre hfresh (hok.trans hfails)]
  constructor
  · intro hfree id hid
    have hmem : id ∈ ap.allocations := mem_keys.mpr
      (env.createOrder.mem_visit.mp (attempted_subset _ _ id hid))
    obtain ⟨st, _, hv⟩ := hpledged id hmem
    rw [← hv.created_rolledBack_iff env ap, ← hattempted id hid]
    exact hfree id hmem
  intro hall id hmem
  obtain ⟨st, _, hv⟩ := hpledged id hmem
  by_cases hid : id ∈ env.attempts ap
  · rw [hattempted id hid, hv.created_rolledBack_iff env ap]
    exact hall id hid
  · rw [hother id hid]
    exact hv.rolledBack _

theorem slot_of_goesThrough (hfresh : b.Fresh) (h : Creating env ap b)
    (hgoes : env.goesThrough ap = true) (id : GoString) : let v := (b.tryRestore env ap).1.slot id
    v.Uncommitted ∧ v.executor = executorOf ap id ∧
      v.allocated = (ap.allocations.lookup id).map fun st => ⟨id, st.content.resources⟩ := by
  obtain ⟨_, hattempted, hother⟩ := tryRestore_of_creating hfresh h
  obtain ⟨hpledged, _, hempty⟩ := commitAll_slot env ap hfresh
  have hcreates := List.all_eq_true.mp (Bool.and_eq_true_iff.mp hgoes).1
  have hvisit : id ∈ env.attempts ap ↔ id ∈ ap.allocations := by
    rw [attempts, attempted_of_all hcreates, env.createOrder.mem_visit]
    exact mem_keys.symm
  by_cases hmem : id ∈ ap.allocations
  · obtain ⟨st, hst, hv⟩ := hpledged h.committed id hmem
    have hvisited := env.createOrder.mem_visit.mpr (mem_keys.mp hmem)
    rw [hattempted id (hvisit.mpr hmem), created_of_creates (hcreates id hvisited)]
    refine ⟨⟨rfl, rfl, rfl, rfl⟩, rfl, ?_⟩
    simp [Slot.enter, Slot.move, hv.committed, hst]
  rw [hother id fun hid => hmem (hvisit.mp hid), hempty id hmem]
  have hnone := lookup_eq_none.mpr hmem
  exact ⟨Slot.empty_free.toUncommitted, by simp [executorOf, hnone, Slot.empty],
    by simp [hnone, Slot.empty]⟩

theorem recovers_iff_of_goesThrough {pre : Books κ} (hfresh : b.Fresh)
    (hpersisted : ∀ id, (pre.slot id).executor = executorOf ap id) (h : Creating env ap b)
    (hgoes : env.goesThrough ap = true) :
    Recovers pre ap (b.restoreAllocations env ap) ↔ (∀ id, (pre.slot id).allocated =
        (ap.allocations.lookup id).map fun st => ⟨id, st.content.resources⟩) ∧
      pre.allocator.ports.reserved = ∅ ∧ ∀ id, id ∉ pre.allocator.ports.allocations := by
  obtain ⟨hok, hstate⟩ := restoreAllocations_of_ok ((tryRestore_of_creating hfresh h).1.trans hgoes)
  have hports := tryRestore_ports env ap b
  have hslot := slot_of_goesThrough hfresh h hgoes
  constructor
  · intro hrecovers
    obtain ⟨hallocated, hsame, _, _⟩ := hrecovers.restored hok
    rw [hstate] at hallocated hsame
    rw [hports] at hsame
    refine ⟨fun id => (hallocated id).symm.trans (hslot id).2.2, ?_, fun id => ?_⟩
    · exact hsame.reserved.symm.trans hfresh.reserved
    · rw [← lookup_eq_none, ← hsame.allocations id, lookup_eq_none]
      exact hfresh.lists id
  rintro ⟨hallocated, hreserved, hlists⟩
  refine ⟨fun _ => ?_, fun herror => by simp [hok] at herror⟩
  rw [hstate]
  refine ⟨fun id => (hslot id).2.2.trans (hallocated id).symm, ⟨?_, fun id => ?_⟩,
    fun id => (hslot id).1, fun id => (hslot id).2.1.trans (hpersisted id).symm⟩
  · rw [hports, hfresh.reserved, hreserved]
  · rw [hports, lookup_eq_none.mpr (hfresh.lists id), lookup_eq_none.mpr (hlists id)]

/-- On a node that was just started, `restoreAllocations` restores the books or leaves nothing
behind exactly when the record is recoverable. -/
theorem recovers_iff_recoverable (env : RestoreEnv κ) (before : Books κ)
    (ap : PersistedEnsemble κ) (b : Books κ) (hfresh : b.Fresh)
    (hpersisted : ∀ id, (before.slot id).executor = executorOf ap id) :
    Recovers before ap (b.restoreAllocations env ap) ↔ Recoverable env before ap b := by
  by_cases h : Creating env ap b
  · cases hgoes : env.goesThrough ap with
    | true =>
      rw [recovers_iff_of_goesThrough hfresh hpersisted h hgoes]
      constructor
      · rintro ⟨hallocated, hportless⟩
        refine ⟨fun _ id hid _ => ?_, fun _ hfails => ?_, fun _ _ => hallocated,
          fun _ _ => hportless⟩
        · have hcreates := List.all_eq_true.mp (Bool.and_eq_true_iff.mp hgoes).1 id
            (attempted_subset _ _ id hid)
          simp only [creates, Bool.and_eq_true] at hcreates
          exact hcreates.1.1.1
        · simp [hgoes] at hfails
      · intro hrecoverable
        exact ⟨hrecoverable.resources h hgoes, hrecoverable.portless h hgoes⟩
    | false =>
      rw [recovers_iff_of_fails before hfresh h hgoes]
      constructor
      · intro hall
        exact ⟨fun _ id hid => (hall id hid).1, fun _ _ id hid => (hall id hid).2,
          fun _ hok => by simp [hgoes] at hok, fun _ hok => by simp [hgoes] at hok⟩
      · intro hrecoverable id hid
        exact ⟨hrecoverable.started h id hid, hrecoverable.released h hgoes id hid⟩
  · exact iff_of_true (recovers_of_not_creating before hfresh h)
      ⟨(absurd · h), (absurd · h), (absurd · h), (absurd · h)⟩

end Books

def startedBooks : Books Hundredths := ⟨sampleAllocator, ∅⟩

def runningBooks (ports : GoMap Int Int) : Books Hundredths :=
  let committed :=
    (sampleAllocator.commit sampleCommitEnv (ascii "a") (sampleCommitment "a") ports 0 60).1
  ⟨(committed.allocate (sampleAllocateEnv true (.ok ())) (ascii "a")).1,
    (∅ : GoMap GoString ExecutorType).insert (ascii "a") .docker⟩

def samplePersisted (ports : GoMap Int Int) : PersistedEnsemble Hundredths :=
  ⟨ascii "e", (∅ : GoMap GoString (AllocationState (Recovery Hundredths))).insert (ascii "a")
    ⟨ascii "a", ascii "d", ⟨(sampleCommitment "a").resources, ports, 0, ascii "docker", ascii "e"⟩⟩⟩

def sampleRestoreEnv : RestoreEnv Hundredths where
  commitOrder := .stored
  hardware _ := .ok true
  call _ := sampleCall
  now := 0
  decodeKey _ := .ok ()
  parseKey _ := .ok ()
  supervisor := true
  createOrder := .stored
  newExecutor _ := .ok ()
  createChild _ := .ok ()
  allocate _ := sampleAllocateEnv true (.ok ())
  allocationDID _ := .ok ()
  grantAllocation _ := .ok ()
  grantEnsemble _ := .ok ()
  networkOrder := .stored
  createSubnet _ := .ok ()
  join _ := .ok ()
  mapPorts _ := .ok ()
  addBehaviors := .ok ()
  runOrder := .stored
  run _ := .ok ()
  rollbackOrder := .stored
  release _ := sampleReleaseEnv

namespace Books

theorem startedBooks_fresh : startedBooks.Fresh := ⟨fun _ => rfl, rfl, nofun⟩

theorem runningBooks_persisted (ports : GoMap Int Int) (id : GoString) :
    ((runningBooks ports).slot id).executor = executorOf (samplePersisted ports) id := by
  by_cases h : id = ascii "a"
  · subst h
    rfl
  · rw [executorOf, samplePersisted, lookup_insert_ne h]
    exact lookup_insert_ne h

/-- An allocation without ports is restored. -/
theorem recovers_portless :
    (startedBooks.restoreAllocations sampleRestoreEnv (samplePersisted ∅)).2.isOk = true ∧
      Recovers (runningBooks ∅) (samplePersisted ∅)
        (startedBooks.restoreAllocations sampleRestoreEnv (samplePersisted ∅)) := by
  refine ⟨by rfl, (recovers_iff_recoverable _ _ _ _ startedBooks_fresh
    (runningBooks_persisted ∅)).mpr ⟨fun _ => by decide, fun _ => nofun, fun _ _ id => ?_,
    fun _ _ => ⟨by rfl, nofun⟩⟩⟩
  by_cases h : id = ascii "a"
  · subst h
    rfl
  have hrunning : (runningBooks ∅).allocator.resources.allocations =
      (∅ : GoMap GoString _).insert (ascii "a")
        ⟨ascii "a", (sampleCommitment "a").resources⟩ := by
    rfl
  rw [slot, samplePersisted, hrunning, lookup_insert_ne h, lookup_insert_ne h]
  rfl

/-- The port of an allocation is not reserved any more after the restart. -/
theorem restored_port_not_reserved :
    let result := startedBooks.restoreAllocations sampleRestoreEnv (samplePersisted samplePortMap)
    startedBooks.Fresh ∧ (∀ id, ((runningBooks samplePortMap).slot id).executor =
        executorOf (samplePersisted samplePortMap) id) ∧
      result.2.isOk = true ∧ 30000 ∈ (runningBooks samplePortMap).allocator.ports.reserved ∧
      30000 ∉ result.1.allocator.ports.reserved ∧
      ¬ Recovers (runningBooks samplePortMap) (samplePersisted samplePortMap) result := by
  refine ⟨startedBooks_fresh, runningBooks_persisted _, by rfl, by decide, by decide, fun h => ?_⟩
  exact absurd (h.restored rfl).ports.reserved (by decide)

end Books

end DMS.Node
