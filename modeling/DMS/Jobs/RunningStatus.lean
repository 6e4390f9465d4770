import DMS.Core.Reach
import DMS.Jobs.Allocation

/-! # The status `Running`

When no call is in progress, an allocation that is `Running` has an execution that was started
and not cancelled since, as long as every `Run` that gets to the executor succeeds: `Run` sets
the status in a deferred function, also when it returns an error.
-/

namespace DMS.Jobs

variable {κ : Type}

namespace Workload

/-- The last `Start` of the executor succeeded, and the execution was not cancelled since. -/
def Live (w : Workload κ) : Prop := w.execution.succeeded = true ∧ w.execution.cancelled = false

structure Honest (w : Workload κ) : Prop where
  running : w.alloc.status = .running → w.Live
  /-- A `Run` that returned an error did not leave the status `Running`, and when the
  directories can be created the next one tries to start the executor. -/
  failed : w.runFailed = true → w.alloc.status ≠ .running ∧ ∀ env net, env.mkdirAll = .ok () →
      createVolumeDirs env.createVolumeDir w.alloc.volumes = .ok () →
      (w.run env net).1.execution.starts = w.execution.starts + 1

/-- A `Run` of an allocation that is not `Running` finds or makes its directories and the
executor starts. -/
def Startable (w : Workload κ) : Step → Prop
  | .run env _ => w.alloc.status ≠ .running → env.starts w.alloc = true
  | _ => True

variable {w : Workload κ}

theorem Honest.of_idle (h : w.alloc.status = .running → w.Live)
    (hidle : w.runFailed = false) : w.Honest :=
  ⟨h, fun hfailed => absurd (hidle.symm.trans hfailed) nofun⟩

theorem Live.of_execution_eq {w' : Workload κ} (h : w.Live)
    (hsame : w'.execution = w.execution) : w'.Live := by
  unfold Live at h ⊢
  rw [hsame]
  exact h

theorem live_of_starts {env : RunEnv} (net : NetState)
    (h : w.alloc.status ≠ .running) (hstarts : env.starts w.alloc = true) :
    (w.run env net).1.Live ∧ (w.run env net).2 = .ok () := by
  rw [run_of_starts net h hstarts]
  exact ⟨⟨rfl, rfl⟩, rfl⟩

theorem restart_live (env : RestartEnv)
    (h : (w.restart env).1.alloc.status = .running) : (w.restart env).1.Live := by
  cases hrestarts : w.restarts env with
  | false => exact absurd h (restart_quiet env hrestarts).2
  | true =>
    obtain ⟨w', _, hstatus, hstarts, hrun⟩ := restart_reaches_run env hrestarts
    rw [hrun]
    exact (live_of_starts w'.alloc.netState hstatus hstarts).1

theorem startable_step (h : w.Honest) (s : Step) : w.Startable s ↔ (w.step s).Honest := by
  cases s with
  | start env =>
    refine iff_of_true trivial (.of_idle ?_ rfl)
    have hsame := w.start_alloc env
    exact fun hrunning => (h.running (hsame.1 ▸ hrunning)).of_execution_eq hsame.2
  | run env net =>
    by_cases hrunning : w.alloc.status = .running
    · -- The body returns at once, and the status is set to the one it has.
      have hsame := run_of_running env net hrunning
      refine iff_of_true (fun hne => absurd hrunning hne) (.of_idle (fun _ => ?_) ?_)
      · exact (h.running hrunning).of_execution_eq hsame.1
      show (!(w.run env net).2.isOk) = false
      rw [hsame.2]
      rfl
    by_cases hstarts : env.starts w.alloc = true
    · have hlive := live_of_starts net hrunning hstarts
      refine iff_of_true (fun _ => hstarts) (.of_idle (fun _ => hlive.1) ?_)
      show (!(w.run env net).2.isOk) = false
      rw [hlive.2]
      rfl
    obtain ⟨e, herror⟩ := run_of_not_starts net hrunning (Bool.eq_false_iff.mpr hstarts)
    refine iff_of_false (fun hguard => hstarts (hguard hrunning)) fun hhonest => ?_
    have hfailed : (w.step (.run env net)).runFailed = true := by
      show (!(w.run env net).2.isOk) = true
      rw [herror]
      rfl
    exact (hhonest.failed hfailed).1 rfl
  | stop env => exact iff_of_true trivial (.of_idle (fun hr => absurd hr (w.stop_status env)) rfl)
  | restart env => exact iff_of_true trivial (.of_idle (fun hr => w.restart_live env hr) rfl)
  | terminate env dropped =>
    exact iff_of_true trivial (.of_idle (fun hr => absurd hr (w.terminate_status env)) rfl)
  | exit env =>
    refine iff_of_true trivial ?_
    unfold step
    dsimp only
    split
    · exact .of_idle h.running rfl
    refine .of_idle (fun hr => ?_) rfl
    have hsame := handleTransience_running env hr
    exact (h.running hsame.1).of_execution_eq hsame.2

/-- From a new allocation, the status is honest in every state of a run exactly when every `Run`
that gets to the executor starts it. -/
theorem running_iff_startable (alloc : Allocation κ) (steps : List Step) :
    (∀ past, past <+: steps → (past.foldl step (created alloc)).Honest) ↔
      Reach.Passes Startable step (created alloc) steps :=
  have hstart : (created alloc).Honest := .of_idle nofun rfl
  (Reach.passes_iff_forall Honest Honest steps hstart hstart (fun _ s h => startable_step h s)
    fun _ s h hguard => (startable_step h s).mp hguard).symm

def sampleNet : NetState := ⟨ascii "10.0.0.2", ascii "10.0.0.1", ∅⟩

def sampleNotify : NotifyEnv := ⟨.stored, .stored, fun _ _ => .error "no tail contracts found"⟩

def sampleRun : RunEnv := ⟨.ok (), fun _ => .ok (), .ok (), sampleNotify⟩

def sampleTask (contracts : GoMap GoString Types.ContractConfig) : Workload Unit :=
  created ⟨ascii "allocation", .task, .pending, true, ascii "did:key:provider", ascii "deployment",
    ⟨(), [], 0, 0⟩, [], ⟨[], [], ∅⟩, ∅, contracts⟩

def failingRun : List Step :=
  [.run { sampleRun with start := .error "no image" } sampleNet, .run sampleRun sampleNet]

/-- The failed run leaves the allocation `Running`, and the second one succeeds without a call of
the executor. -/
theorem failed_run_is_running : ((failingRun.take 1).foldl step (sampleTask ∅)).runFailed = true ∧
      ((failingRun.take 1).foldl step (sampleTask ∅)).alloc.status = .running ∧
      (failingRun.foldl step (sampleTask ∅)).runFailed = false ∧
      (failingRun.foldl step (sampleTask ∅)).alloc.status = .running ∧
      (failingRun.foldl step (sampleTask ∅)).execution = ⟨1, false, false⟩ ∧
      ¬ ((failingRun.take 1).foldl step (sampleTask ∅)).Honest := by
  refine ⟨by decide, by decide, by decide, by decide, by decide, fun h => ?_⟩
  exact (h.failed rfl).1 rfl

end Workload

end DMS.Jobs
