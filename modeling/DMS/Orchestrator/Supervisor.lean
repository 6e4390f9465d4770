import DMS.Jobs.Identifiers

/-! # Health checks of an updated ensemble

`Update` of `dms/orchestrator/supervisor.go`. It goes over the new manifest and looks each
allocation up in the old one under the name that ends its identifier.
-/

namespace DMS.Orchestrator

open Jobs

/-- An allocation of a manifest; `healthcheck` is the type of its health check. -/
structure Supervised where
  id : GoString
  healthcheck : GoString

structure Supervisor where
  manifest : GoMap GoString Supervised
  registeredHealthChecks : GoMap GoString Unit

namespace Supervisor

def getAllocation (s : Supervisor) (name : GoString) : Option Supervised := s.manifest.lookup name

def present (s : Supervisor) (id : GoString) : Bool :=
  (s.getAllocation (allocationNameFromID id)).isSome

/-- What becomes of one allocation of the new manifest; `registers` tells which allocations
answer that the check is registered. -/
def updateCheck (registers : GoString → Bool) (s : Supervisor) (checks : GoMap GoString Unit)
    (allocation : Supervised) : GoMap GoString Unit :=
  if allocation.healthcheck = [] then checks
  else if s.present allocation.id then checks.erase allocation.id
  else if registers allocation.id then checks.insert allocation.id ()
  else checks

/-- The goroutines that register enter their checks in any order. -/
def update (order : RangeOrder) (registers : GoString → Bool)
    (manifest : GoMap GoString Supervised) (s : Supervisor) : Supervisor where
  manifest
  registeredHealthChecks := (order.visit manifest.entries).foldl
    (fun checks e => s.updateCheck registers checks e.2) s.registeredHealthChecks

/-- The manifest has an allocation with a health check under the identifier. -/
def Checked (manifest : GoMap GoString Supervised) (id : GoString) : Prop :=
  ∃ e ∈ manifest.entries, e.2.healthcheck ≠ [] ∧ e.2.id = id

variable (s : Supervisor) (order : RangeOrder) (manifest : GoMap GoString Supervised)
  {id : GoString}

theorem update_iff (Q : GoMap GoString Unit → Prop)
    (hstep : ∀ checks allocation, Q (s.updateCheck (fun _ => true) checks allocation) ↔
      Q checks ∨ allocation.healthcheck ≠ [] ∧ allocation.id = id) :
    Q (s.update order (fun _ => true) manifest).registeredHealthChecks ↔
      Q s.registeredHealthChecks ∨ Checked manifest id := by
  refine (GoMap.foldl_iff_exists Q _ (fun checks e => hstep checks e.2) _ _).trans ?_
  simp only [order.mem_visit]
  rfl

theorem mem_update_of_absent (h : s.present id = false) :
    id ∈ (s.update order (fun _ => true) manifest).registeredHealthChecks ↔
      id ∈ s.registeredHealthChecks ∨ Checked manifest id := by
  refine s.update_iff order manifest (id ∈ ·) fun checks allocation => ?_
  unfold updateCheck
  split
  · next hnone => simp [hnone]
  split
  · next hpresent =>
    have hne : id ≠ allocation.id := by
      rintro rfl
      simp [h] at hpresent
    simp [hne, hne.symm]
  · next hsome _ => simp [hsome, or_comm, eq_comm]

theorem not_mem_update_of_present (h : s.present id = true) :
    id ∉ (s.update order (fun _ => true) manifest).registeredHealthChecks ↔
      id ∉ s.registeredHealthChecks ∨ Checked manifest id := by
  refine s.update_iff order manifest (id ∉ ·) fun checks allocation => ?_
  unfold updateCheck
  split
  · next hnone => simp [hnone]
  split
  · next hsome _ => simp [hsome, or_iff_not_imp_right, eq_comm]
  rename_i habsent
  have hne : id ≠ allocation.id := by
    rintro rfl
    exact habsent h
  simp [hne, hne.symm]

/-- When every registration succeeds, the checks of the new manifest are the registered ones
exactly when it keeps no allocation with a check and drops no registered one. -/
theorem supervision_follows_iff :
    (∀ id, id ∈ (s.update order (fun _ => true) manifest).registeredHealthChecks ↔
        Checked manifest id) ↔ (∀ id, Checked manifest id → s.present id = false) ∧
        ∀ id ∈ s.registeredHealthChecks, Checked manifest id := by
  rw [← forall_and]
  refine forall_congr' fun id => ?_
  cases hpresent : s.present id with
  | false =>
    rw [s.mem_update_of_absent order manifest hpresent]
    simp
  | true =>
    have hmem := s.not_mem_update_of_present order manifest hpresent
    by_cases hid : Checked manifest id <;> simp_all

/-- Of two allocations one stays: its check is dropped, and the check of the other one is kept. -/
theorem supervision_inverted : let kept : Supervised := ⟨ascii "e_n.a", ascii "http"⟩
    let old := ((∅ : GoMap GoString Supervised).insert (ascii "n.a") kept).insert (ascii "n.b")
      ⟨ascii "e_n.b", ascii "http"⟩
    let checks := ((∅ : GoMap GoString Unit).insert (ascii "e_n.a") ()).insert (ascii "e_n.b") ()
    ((Supervisor.mk old checks).update .stored (fun _ => true)
      ((∅ : GoMap GoString Supervised).insert (ascii "n.a") kept)).registeredHealthChecks.keys =
        [ascii "e_n.b"] := by
  decide

end Supervisor

end DMS.Orchestrator
