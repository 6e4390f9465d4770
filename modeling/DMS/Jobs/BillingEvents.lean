import DMS.Core.Brackets
import DMS.Jobs.RunningStatus

/-! # The billing events of an allocation

The events that an allocation pushes for one contract are meant to be starts and ends in turn.
Each call computes anew which contracts it notifies.
-/

namespace DMS.Jobs

open DMS.Types Brackets Allocation

variable {κ : Type}

def AllocationEvent.isStart : AllocationEvent κ → Bool
  | .startAllocation _ _ => true
  | .stopAllocation _ => false
  | .completeAllocation _ => false

def Allocation.notified (env : NotifyEnv) (a : Allocation κ) : List GoString :=
  (a.contractsToNotify env).map (·.did)

theorem Allocation.notified_congr (env : NotifyEnv) {a a' : Allocation κ}
    (hcontracts : a'.contracts = a.contracts)
    (hprovider : a'.computeProviderDID = a.computeProviderDID) :
    a'.notified env = a.notified env := by
  unfold notified contractsToNotify headContractConfig
  rw [hcontracts, hprovider]

namespace Workload

/-- The events as marks: a start opens the contract, and an end closes it. -/
def marks (w : Workload κ) : List (GoString × Bool) :=
  w.events.map fun e => (e.contractDID, e.payload.isStart)

def billing (w : Workload κ) (contractDID : GoString) : Bool := opened w.marks contractDID

/-- The events of each contract alternate, and none is left open by an allocation that is
over. -/
structure Bracketed (w : Workload κ) : Prop where
  alternate : WellBracketed w.marks
  ended : w.finished = true → ∀ contractDID, w.billing contractDID = false

namespace Quiet

variable {w w' : Workload κ}

theorem marks_eq (h : Quiet w w') : w'.marks = w.marks :=
  congrArg (List.map _) h.events

theorem notified_eq (h : Quiet w w') (env : NotifyEnv) :
    w'.alloc.notified env = w.alloc.notified env :=
  notified_congr env h.contracts h.provider

end Quiet

theorem marks_push_eventsFor (env : NotifyEnv) (payload : AllocationBase → AllocationEvent κ)
    {mark} (hmark : ∀ base, (payload base).isStart = mark) (w : Workload κ) :
    (w.push (w.alloc.eventsFor env payload)).marks =
      w.marks ++ block mark (w.alloc.notified env) := by
  simp [marks, push, eventsFor, notified, block, hmark]

variable {w w' : Workload κ}

theorem run_marks {env : RunEnv} (net : NetState)
    (h : w.alloc.status ≠ .running) (hstarts : env.starts w.alloc = true) :
    (w.run env net).1.marks = w.marks ++ block true (w.alloc.notified env.notify) ∧
      (w.run env net).1.finished = false := by
  rw [run_of_starts net h hstarts]
  refine ⟨?_, rfl⟩
  exact marks_push_eventsFor env.notify _ (fun _ => rfl)
    ((w.keepNetState net).startExecutor (.ok ()))

theorem terminate_marks (env : TerminateEnv) (w : Workload κ) :
    (w.terminate env).1.marks = w.marks ++ block false (w.alloc.notified env.notify) := by
  rw [terminate_fst, (Quiet.terminateStop env.stop _).marks_eq]
  exact marks_push_eventsFor env.notify _ (fun _ => rfl) w

/-- The contracts that are told of the end when the task exits: by `Terminate` if the allocator
still has the allocation, and then by the exit itself. -/
def exitNotified (env : ExitEnv) (w : Workload κ) : List GoString :=
  (if w.held then w.alloc.notified env.release.notify else []) ++
    if w.alloc.contracts.keys = [] then [] else w.alloc.notified env.notify

theorem selfRelease_marks (env : TerminateEnv) (freed : Bool) (w : Workload κ) :
    (w.selfRelease env freed).marks =
        w.marks ++ block false (if w.held then w.alloc.notified env.notify else []) ∧
      (w.selfRelease env freed).alloc.contracts = w.alloc.contracts ∧
      (w.selfRelease env freed).alloc.computeProviderDID = w.alloc.computeProviderDID := by
  cases hheld : w.held with
  | false =>
    rw [selfRelease_of_not_held env freed hheld]
    exact ⟨(List.append_nil _).symm, rfl, rfl⟩
  | true =>
    obtain ⟨held, hrelease⟩ := selfRelease_of_held env freed hheld
    have hquiet := Quiet.terminateStop env.stop
      (w.push (w.alloc.eventsFor env.notify .stopAllocation))
    rw [hrelease]
    refine ⟨w.terminate_marks env, ?_⟩
    rw [terminate_fst]
    exact ⟨hquiet.contracts, hquiet.provider⟩

theorem handleTransience_marks (env : ExitEnv) (w : Workload κ) :
    (w.handleTransience env).marks = w.marks ++ block false (w.exitNotified env) := by
  have hexit := Quiet.exitStatus env w
  have hrelease := (w.exitStatus env).selfRelease_marks env.release env.freed
  rw [hexit.marks_eq, hexit.held, hexit.notified_eq, hexit.contracts, hexit.provider] at hrelease
  obtain ⟨hmarks, hcontracts, hprovider⟩ := hrelease
  unfold handleTransience exitNotified
  dsimp only
  rw [hcontracts, block_append, ← List.append_assoc, ← hmarks]
  by_cases hnone : w.alloc.contracts.keys = []
  · rw [if_pos hnone, if_pos hnone]
    exact (List.append_nil _).symm
  · rw [if_neg hnone, if_neg hnone, ← notified_congr env.notify hcontracts hprovider]
    exact marks_push_eventsFor env.notify _ (fun _ => rfl) _

/-- No contract is named twice, and none of them has a start without an end. -/
def MayOpen (w : Workload κ) (dids : List GoString) : Prop :=
  dids.Nodup ∧ ∀ did ∈ dids, w.billing did ≠ true

def MayClose (w : Workload κ) (dids : List GoString) : Prop :=
  dids.Nodup ∧ ∀ did, did ∈ dids ↔ w.billing did = true

/-- A start notifies contracts that may be opened; `Terminate` and the exit of the task notify
those that are to be closed. -/
def Matched (w : Workload κ) : Step → Prop
  | .run env _ =>
    w.alloc.status ≠ .running → env.starts w.alloc = true → w.MayOpen (w.alloc.notified env.notify)
  | .restart env => w.restarts env = true → w.MayOpen (w.alloc.notified env.run.notify)
  | .terminate env _ => w.MayClose (w.alloc.notified env.notify)
  | .exit env => w.waiting ≠ 0 → w.MayClose (w.exitNotified env)
  | .start _ => True
  | .stop _ => True

theorem Quiet.bracketed (hquiet : Quiet w w') (h : w.Bracketed) {failed} :
    { w' with runFailed := failed }.Bracketed := by
  have hmarks : { w' with runFailed := failed }.marks = w.marks := hquiet.marks_eq
  refine ⟨hmarks ▸ h.alternate, fun ho => ?_⟩
  unfold billing
  exact hmarks ▸ h.ended (hquiet.finished ▸ ho)

theorem bracketed_opening_iff (w' : Workload κ) {dids} (h : w.Bracketed)
    (hopened : w'.marks = w.marks ++ block true dids ∧ w'.finished = false) :
    w'.Bracketed ↔ w.MayOpen dids := by
  have hblock := wellBracketed_append_block h.alternate true dids
  rw [← hopened.1] at hblock
  refine Iff.trans ?_ hblock
  exact ⟨fun hb => hb.alternate, fun hb => ⟨hb, fun ho => absurd (hopened.2.symm.trans ho) nofun⟩⟩

theorem bracketed_closing_iff (w' : Workload κ) {dids} (h : w.Bracketed)
    (hmarks : w'.marks = w.marks ++ block false dids) (hfinished : w'.finished = true) :
    w'.Bracketed ↔ w.MayClose dids := by
  have hblock := closed_append_block h.alternate dids
  rw [← hmarks] at hblock
  refine Iff.trans ?_ hblock
  exact ⟨fun hb => ⟨hb.alternate, hb.ended hfinished⟩, fun hb => ⟨hb.1, fun _ => hb.2⟩⟩

theorem matched_step (h : w.Bracketed) (s : Step) : w.Matched s ↔ (w.step s).Bracketed := by
  cases s with
  | start env => exact iff_of_true trivial ((Quiet.start env w).bracketed h)
  | stop env => exact iff_of_true trivial ((Quiet.stop env w).bracketed h)
  | run env net =>
    by_cases hboth : w.alloc.status ≠ .running ∧ env.starts w.alloc = true
    · rw [bracketed_opening_iff (w.step (.run env net)) h (run_marks net hboth.1 hboth.2)]
      exact ⟨fun hguard => hguard hboth.1 hboth.2, fun hopen _ _ => hopen⟩
    · refine iff_of_true (fun hne hstarts => absurd ⟨hne, hstarts⟩ hboth) ?_
      exact (run_quiet net hboth).bracketed h
  | restart env =>
    cases hrestarts : w.restarts env with
    | false =>
      refine iff_of_true (fun ht => absurd (hrestarts.symm.trans ht) nofun) ?_
      exact (restart_quiet env hrestarts).1.bracketed h
    | true =>
      obtain ⟨w', hquiet, hstatus, hstarts, hrun⟩ := restart_reaches_run env hrestarts
      have hstep := run_marks w'.alloc.netState hstatus hstarts
      rw [← hrun, hquiet.marks_eq, hquiet.notified_eq] at hstep
      rw [bracketed_opening_iff (w.step (.restart env)) h hstep]
      exact ⟨fun hguard => hguard hrestarts, fun hopen _ => hopen⟩
  | terminate env dropped =>
    rw [bracketed_closing_iff (w.step (.terminate env dropped)) h (w.terminate_marks env) rfl]
    rfl
  | exit env =>
    by_cases hwaiting : w.waiting = 0
    · refine iff_of_true (fun hne => absurd hwaiting hne) ?_
      rw [show w.step (.exit env) = { w with runFailed := false } from if_pos hwaiting]
      exact ⟨h.alternate, h.ended⟩
    have hstep : w.step (.exit env) = { w.handleTransience env with
        waiting := w.waiting - 1, runFailed := false, finished := true } :=
      if_neg hwaiting
    have hmarks : (w.step (.exit env)).marks = w.marks ++ block false (w.exitNotified env) := by
      rw [hstep]
      exact w.handleTransience_marks env
    rw [bracketed_closing_iff _ h hmarks (by rw [hstep])]
    exact ⟨fun hguard => hguard hwaiting, fun hclose _ => hclose⟩

/-- From a new allocation, the events of each contract are bracketed in every state of a run
exactly when every step of it is matched. -/
theorem bracketed_iff_matched (alloc : Allocation κ) (steps : List Step) :
    (∀ past, past <+: steps → (past.foldl step (created alloc)).Bracketed) ↔
      Reach.Passes Matched step (created alloc) steps :=
  have hstart : (created alloc).Bracketed := ⟨fun _ => trivial, nofun⟩
  (Reach.passes_iff_forall Bracketed Bracketed steps hstart hstart (fun _ s h => matched_step h s)
    fun _ s h hguard => (matched_step h s).mp hguard).symm

def sampleExit : ExitEnv :=
  ⟨some ⟨0, false⟩, none, ⟨sampleNotify, ⟨.ok .success, .ok ()⟩, .ok ()⟩, true, sampleNotify⟩

def sampleContract : GoMap GoString ContractConfig :=
  (∅ : GoMap GoString ContractConfig).insert (ascii "work")
    ⟨ascii "did:key:contract", ascii "did:key:host", [], []⟩

/-- A task runs and completes. Its contract gets one start and two ends. -/
theorem completed_task_ends_twice :
    ([.run sampleRun sampleNet, .exit sampleExit].foldl step (sampleTask sampleContract)).marks =
        [(ascii "did:key:contract", true), (ascii "did:key:contract", false),
          (ascii "did:key:contract", false)] ∧
      ¬ ([.run sampleRun sampleNet, .exit sampleExit].foldl step
        (sampleTask sampleContract)).Bracketed := by
  refine ⟨by decide, fun h => ?_⟩
  have halternate := h.alternate (ascii "did:key:contract")
  revert halternate
  decide

end Workload

end DMS.Jobs
