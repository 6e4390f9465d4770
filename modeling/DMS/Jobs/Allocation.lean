import DMS.Jobs.Manifest
import DMS.Tokenomics.ContractStore

/-! # The life of an allocation

`Allocation` of `dms/jobs/allocation.go`: the calls that start, stop, restart and terminate an
allocation, and the exit of its task. The executor, the file system, the actor and the search for
the tail contract answer as they like. A workload also keeps what the calls have done so far.
-/

namespace DMS.Jobs

open DMS.Types

variable {κ : Type}

inductive AllocationType
  | service
  | task
deriving DecidableEq, Repr

inductive ExecutionStatus
  | pending
  | running
  | paused
  | failed
  | success
deriving DecidableEq, Repr

structure NetState where
  subnetIP : GoString
  gatewayIP : GoString
  portMapping : GoMap Int Int

structure Allocation (κ : Type) where
  id : GoString
  allocType : AllocationType
  status : AllocationStatus
  actorRunning : Bool
  computeProviderDID : GoString
  deploymentID : GoString
  resources : Resources κ
  /-- The directory on the host of each volume of the job. -/
  volumes : List GoString
  netState : NetState
  ports : GoMap Int Int
  contracts : GoMap GoString ContractConfig

structure AllocationBase where
  allocationID : GoString
  deploymentID : GoString
  computeProviderDID : GoString
  headContractDID : GoString
deriving DecidableEq, Repr

inductive AllocationEvent (κ : Type)
  | startAllocation (base : AllocationBase) (resources : Resources κ)
  | stopAllocation (base : AllocationBase)
  | completeAllocation (base : AllocationBase)
deriving DecidableEq, Repr

/-- `eventhandler.Event` as it is pushed. -/
structure PushedEvent (κ : Type) where
  contractHostDID : GoString
  contractDID : GoString
  payload : AllocationEvent κ
deriving DecidableEq, Repr

/-- The two `range` loops over the contracts, and the answer of the search for the tail
contract (an error also when there is no contract store). -/
structure NotifyEnv where
  head : RangeOrder
  all : RangeOrder
  findTailContract : ContractConfig → GoString → Except String ContractConfig

namespace Allocation

def headContractConfig (env : NotifyEnv) (a : Allocation κ) : ContractConfig :=
  match env.head.visit a.contracts.entries with
  | [] => ⟨[], [], [], []⟩
  | e :: _ => e.2

/-- `contractsToNotify`, which `Run`, `Terminate` and `handleTransience` compute in the same
way. -/
def contractsToNotify (env : NotifyEnv) (a : Allocation κ) : List ContractConfig :=
  let head := a.headContractConfig env
  let all := (env.all.visit a.contracts.entries).map Sigma.snd
  if head.did ≠ [] then
    match env.findTailContract head a.computeProviderDID with
    | .error _ => all
    | .ok tail => [tail]
  else all

def allocationBase (env : NotifyEnv) (a : Allocation κ) : AllocationBase :=
  ⟨a.id, a.deploymentID, a.computeProviderDID, (a.headContractConfig env).did⟩

def eventsFor (env : NotifyEnv) (payload : AllocationBase → AllocationEvent κ)
    (a : Allocation κ) : List (PushedEvent κ) :=
  (a.contractsToNotify env).map fun v => ⟨v.host, v.did, payload (a.allocationBase env)⟩

end Allocation

structure RunEnv where
  mkdirAll : Except String Unit
  createVolumeDir : GoString → Except String Unit
  start : Except String Unit
  notify : NotifyEnv

structure StopEnv where
  getStatus : Except String ExecutionStatus
  cancel : Except String Unit

/-- The behaviors are added one after another, then the actor is started. -/
structure StartEnv where
  addBehavior : Except String Unit
  actorStart : Except String Unit

structure TerminateEnv where
  notify : NotifyEnv
  stop : StopEnv
  remove : Except String Unit

structure RestartEnv where
  stop : StopEnv
  start : StartEnv
  run : RunEnv
  /-- The answers when the allocation is stopped again after a failed run. -/
  stopAgain : StopEnv

structure ExecutionResult where
  exitCode : Int
  killed : Bool

/-- How an execution ends, and the answers while the allocation releases itself. -/
structure ExitEnv where
  result : Option ExecutionResult
  err : Option String
  release : TerminateEnv
  /-- The allocator frees the resources and unmounts the volumes. -/
  freed : Bool
  notify : NotifyEnv

structure Execution where
  /-- The number of calls of `Start`. -/
  starts : Nat
  /-- The last `Start` succeeded. -/
  succeeded : Bool
  /-- The execution was cancelled since. -/
  cancelled : Bool
deriving DecidableEq, Repr

/-- The arguments of `statusChangeNotify` and `statusCb` in the goroutine of `setStatus`. -/
structure StatusChange where
  old : AllocationStatus
  new : AllocationStatus
  msg : String
deriving DecidableEq, Repr

structure Workload (κ : Type) where
  alloc : Allocation κ
  execution : Execution
  events : List (PushedEvent κ)
  changes : List StatusChange
  /-- The allocator has the allocation. -/
  held : Bool
  /-- The goroutines that wait for the exit of the task. -/
  waiting : Nat
  /-- The last call was a `Run` that returned an error. -/
  runFailed : Bool
  /-- The allocation was terminated or its task has exited, and it was not started since. -/
  finished : Bool

/-- The first directory that cannot be created. -/
def createVolumeDirs (create : GoString → Except String Unit) : List GoString → Except String Unit
  | [] => .ok ()
  | src :: rest =>
    match create src with
    | .error e => .error ("create volume directory " ++ printed src ++ ": " ++ e)
    | .ok _ => createVolumeDirs create rest

namespace Workload

/-- An allocation that `Allocate` has made and started. -/
def created (alloc : Allocation κ) : Workload κ :=
  ⟨{ alloc with status := .pending, actorRunning := true }, ⟨0, false, false⟩, [], [], true, 0,
    false, false⟩

def setStatus (ns : AllocationStatus) (msg : String) (w : Workload κ) : Workload κ := { w with
    alloc := { w.alloc with status := ns }
    changes :=
      if w.alloc.status ≠ ns then w.changes ++ [⟨w.alloc.status, ns, msg⟩] else w.changes }

def push (events : List (PushedEvent κ)) (w : Workload κ) : Workload κ :=
  { w with events := w.events ++ events }

/-- The executor's `Start` is called. -/
def startExecutor (start : Except String Unit) (w : Workload κ) : Workload κ :=
  { w with execution := ⟨w.execution.starts + 1, start.isOk, false⟩ }

/-- `Run` after the executor has started: the contracts are told, and a task is waited for. -/
def announce (env : NotifyEnv) (w : Workload κ) : Workload κ :=
  { w.push (w.alloc.eventsFor env fun base => .startAllocation base w.alloc.resources) with
    waiting := if w.alloc.allocType = .task then w.waiting + 1 else w.waiting
    finished := false }

/-- The body of `Run` from the test of the status on. -/
def launch (env : RunEnv) (w : Workload κ) : Workload κ × Except String Unit :=
  if w.alloc.status = .running then (w, .ok ())
  else
    match env.mkdirAll with
    | .error e => (w, .error ("create results directory: " ++ e))
    | .ok _ =>
      match createVolumeDirs env.createVolumeDir w.alloc.volumes with
      | .error e => (w, .error e)
      | .ok _ =>
        match env.start with
        | .error e => (w.startExecutor env.start, .error ("start executor: " ++ e))
        | .ok _ => ((w.startExecutor env.start).announce env.notify, .ok ())

/-- The first lines of `Run`. -/
def keepNetState (net : NetState) (w : Workload κ) : Workload κ := { w with
    alloc := { w.alloc with
        netState := net
        ports := if net.portMapping.keys ≠ [] then net.portMapping else w.alloc.ports } }

def run (env : RunEnv) (net : NetState) (w : Workload κ) : Workload κ × Except String Unit :=
  let done := (w.keepNetState net).launch env
  (done.1.setStatus .running "allocation started", done.2)

def stopExecution (env : StopEnv) (w : Workload κ) : Workload κ × Except String Unit :=
  if w.alloc.status ≠ .running then (w, .ok ())
  else
    match env.getStatus with
    | .error _ => (w, .ok ())
    | .ok stat =>
      if stat = .failed ∨ stat = .success then (w, .ok ())
      else
        match env.cancel with
        | .error e =>
          (w.setStatus .failed ("error stopping executor: " ++ e), .error ("stop execution: " ++ e))
        | .ok _ => ({ w with execution := { w.execution with cancelled := true } }, .ok ())

def stopActor (w : Workload κ) : Workload κ :=
  { w with alloc := { w.alloc with actorRunning := false } }

def stop (env : StopEnv) (w : Workload κ) : Workload κ × Except String Unit :=
  match w.stopActor.stopExecution env with
  | (w, .error e) =>
    (w.setStatus .failed "failed to stop execution", .error ("stop execution: " ++ e))
  | (w, .ok _) =>
    if w.alloc.status ≠ .restarting then (w.setStatus .stopped "allocation stopped", .ok ())
    else (w, .ok ())

/-- `Start`, which is about the actor only. -/
def start (env : StartEnv) (w : Workload κ) : Workload κ × Except String Unit :=
  if w.alloc.actorRunning then (w, .ok ())
  else
    match env.addBehavior with
    | .error e => (w, .error ("add allocation start behavior to allocation actor: " ++ e))
    | .ok _ =>
      match env.actorStart with
      | .error e => (w, .error ("start allocation actor: " ++ e))
      | .ok _ => ({ w with alloc := { w.alloc with actorRunning := true } }, .ok ())

def restart (env : RestartEnv) (w : Workload κ) : Workload κ × Except String Unit :=
  let w := w.setStatus .restarting "restarting allocation"
  if w.alloc.netState.subnetIP = [] then
    (w, .error "allocation: state is empty, no subnet ip is provided")
  else
    -- An error of the stop is only logged.
    match (w.stop env.stop).1.start env.start with
    | (w, .error e) => (w, .error e)
    | (w, .ok _) =>
      match w.run env.run w.alloc.netState with
      | (w, .error e) =>
        ((w.stop env.stopAgain).1.setStatus .failed "allocation run failed during restart",
          .error ("run allocation: " ++ e))
      | (w, .ok _) => (w, .ok ())

/-- The part of `Terminate` that stops the allocation, with the error of the stop. -/
def terminateStop (env : StopEnv) (w : Workload κ) : Workload κ × Option String :=
  if w.alloc.status ≠ .stopped ∧ w.alloc.status ≠ .completed then
    match w.stop env with
    | (w, .error e) => (w, some ("failed to stop allocation: " ++ e))
    | (w, .ok _) => (w.setStatus .terminated "allocation terminated", none)
  else (w, none)

def terminate (env : TerminateEnv) (w : Workload κ) : Workload κ × Except String Unit :=
  let told := w.push (w.alloc.eventsFor env.notify .stopAllocation)
  match told.terminateStop env.stop, env.remove with
  | (w, some stopError), .error e =>
    (w, .error ("stop and cleanup failed - stop: " ++ stopError ++
      " - cleanup: failed to remove execution: " ++ e))
  | (w, _), _ => (w, .ok ())

/-- The status that `handleTransience` sets. -/
def exitStatus (env : ExitEnv) (w : Workload κ) : Workload κ :=
  match env.err, env.result with
  | some _, _ => w.setStatus .failed "execution failed"
  | none, none => w
  | none, some r =>
    if r.exitCode ≠ 0 then
      w.setStatus .failed ("execution exited with exit code: " ++ toString r.exitCode)
    else if r.killed then w.setStatus .failed "execution possibly killed"
    else w.setStatus .completed "task execution successfully completed"

/-- `selfRelease`: `Release` of the allocator, which terminates what it has. -/
def selfRelease (env : TerminateEnv) (freed : Bool) (w : Workload κ) : Workload κ :=
  if w.held then
    match w.terminate env with
    | (w, .error _) => w
    | (w, .ok _) => { w with held := !freed }
  else w

def handleTransience (env : ExitEnv) (w : Workload κ) : Workload κ :=
  let released := (w.exitStatus env).selfRelease env.release env.freed
  if released.alloc.contracts.keys = [] then released
  else released.push (released.alloc.eventsFor env.notify .completeAllocation)

/-- The calls on an allocation and the exit of its task. A `Terminate` comes from the
allocator, which may then drop the allocation. -/
inductive Step
  | start (env : StartEnv)
  | run (env : RunEnv) (net : NetState)
  | stop (env : StopEnv)
  | restart (env : RestartEnv)
  | terminate (env : TerminateEnv) (dropped : Bool)
  | exit (env : ExitEnv)

def step (w : Workload κ) : Step → Workload κ
  | .start env => { (w.start env).1 with runFailed := false }
  | .run env net =>
    let done := w.run env net
    { done.1 with runFailed := !done.2.isOk }
  | .stop env => { (w.stop env).1 with runFailed := false }
  | .restart env => { (w.restart env).1 with runFailed := false }
  | .terminate env dropped =>
    let done := (w.terminate env).1
    { done with held := done.held && !dropped, runFailed := false, finished := true }
  | .exit env =>
    if w.waiting = 0 then { w with runFailed := false }
    else
      { w.handleTransience env with
        waiting := w.waiting - 1, runFailed := false, finished := true }

end Workload

def RunEnv.starts (env : RunEnv) (a : Allocation κ) : Bool :=
  env.mkdirAll.isOk && (createVolumeDirs env.createVolumeDir a.volumes).isOk && env.start.isOk

def StartEnv.starts (env : StartEnv) : Bool := env.addBehavior.isOk && env.actorStart.isOk

namespace Workload

variable {w : Workload κ} {env : RunEnv}

theorem launch_of_running (env : RunEnv) (h : w.alloc.status = .running) :
    w.launch env = (w, .ok ()) :=
  if_pos h

theorem launch_of_starts (h : w.alloc.status ≠ .running) (hstarts : env.starts w.alloc = true) :
    w.launch env = ((w.startExecutor (.ok ())).announce env.notify, .ok ()) := by
  unfold RunEnv.starts at hstarts
  rw [launch, if_neg h]
  match env.mkdirAll, createVolumeDirs env.createVolumeDir w.alloc.volumes, env.start, hstarts with
  | .error _, _, _, h => cases h
  | .ok _, .error _, _, h => cases h
  | .ok _, .ok _, .error _, h => cases h
  | .ok _, .ok _, .ok _, _ => rfl

theorem launch_of_not_starts (h : w.alloc.status ≠ .running)
    (hstarts : env.starts w.alloc = false) :
    ∃ execution e, w.launch env = ({ w with execution := execution }, .error e) := by
  unfold RunEnv.starts at hstarts
  rw [launch, if_neg h]
  match env.mkdirAll, createVolumeDirs env.createVolumeDir w.alloc.volumes, env.start, hstarts with
  | .error _, _, _, _ => exact ⟨w.execution, _, rfl⟩
  | .ok _, .error _, _, _ => exact ⟨w.execution, _, rfl⟩
  | .ok _, .ok _, .error _, _ => exact ⟨_, _, rfl⟩
  | .ok _, .ok _, .ok _, h => cases h

theorem stop_status (env : StopEnv) (w : Workload κ) : (w.stop env).1.alloc.status ≠ .running := by
  unfold stop
  split
  · nofun
  rename_i w' _ _
  by_cases hrestarting : w'.alloc.status = .restarting
  · simp [hrestarting]
  · rw [if_pos hrestarting]
    nofun

theorem start_alloc (env : StartEnv) (w : Workload κ) :
    (w.start env).1.alloc.status = w.alloc.status ∧ (w.start env).1.execution = w.execution := by
  unfold start
  repeat' split
  all_goals exact ⟨rfl, rfl⟩

theorem terminateStop_status (env : StopEnv) (w : Workload κ) :
    (w.terminateStop env).1.alloc.status ≠ .running := by
  unfold terminateStop
  split
  · match w.stop env, w.stop_status env with
    | (_, .error _), hstop => exact hstop
    | (_, .ok _), _ => nofun
  rename_i hended
  intro (hrunning : w.alloc.status = .running)
  exact hended (by simp [hrunning])

theorem terminate_fst (env : TerminateEnv) (w : Workload κ) : (w.terminate env).1 =
      ((w.push (w.alloc.eventsFor env.notify .stopAllocation)).terminateStop env.stop).1 := by
  unfold terminate
  dsimp only
  match (w.push (w.alloc.eventsFor env.notify .stopAllocation)).terminateStop env.stop,
    env.remove with
  | (_, none), _ => rfl
  | (_, some _), .error _ => rfl
  | (_, some _), .ok _ => rfl

theorem terminate_status (env : TerminateEnv) (w : Workload κ) :
    (w.terminate env).1.alloc.status ≠ .running := by
  rw [terminate_fst]
  exact terminateStop_status env.stop _

theorem selfRelease_of_held (env : TerminateEnv) (freed : Bool) (h : w.held = true) :
    ∃ held, w.selfRelease env freed = { (w.terminate env).1 with held := held } := by
  rw [selfRelease, if_pos h]
  match w.terminate env with
  | (w', .error _) => exact ⟨w'.held, rfl⟩
  | (_, .ok _) => exact ⟨!freed, rfl⟩

theorem selfRelease_of_not_held (env : TerminateEnv) (freed : Bool)
    (h : w.held = false) : w.selfRelease env freed = w := by
  rw [selfRelease, if_neg (by simp [h])]

theorem selfRelease_status (env : TerminateEnv) (freed : Bool)
    (h : (w.selfRelease env freed).alloc.status = .running) : w.selfRelease env freed = w := by
  cases hheld : w.held with
  | false => exact selfRelease_of_not_held env freed hheld
  | true =>
    obtain ⟨held, hrelease⟩ := selfRelease_of_held env freed hheld
    rw [hrelease] at h
    exact absurd h (w.terminate_status env)

theorem exitStatus_status (env : ExitEnv)
    (h : (w.exitStatus env).alloc.status = .running) : w.exitStatus env = w := by
  unfold exitStatus at h ⊢
  match env.err, env.result, h with
  | some _, _, h => cases h
  | none, none, _ => rfl
  | none, some r, h =>
    dsimp only at h
    split at h
    · cases h
    · split at h <;> cases h

theorem handleTransience_running (env : ExitEnv)
    (h : (w.handleTransience env).alloc.status = .running) :
    w.alloc.status = .running ∧ (w.handleTransience env).execution = w.execution := by
  have hpush : ((w.exitStatus env).selfRelease env.release env.freed).alloc.status = .running ∧
      (w.handleTransience env).execution =
        ((w.exitStatus env).selfRelease env.release env.freed).execution := by
    unfold handleTransience at h ⊢
    dsimp only at h ⊢
    split at h
    · next hnone => exact ⟨h, by rw [if_pos hnone]⟩
    · next hsome => exact ⟨h, by rw [if_neg hsome]; rfl⟩
  have hrelease := selfRelease_status env.release env.freed hpush.1
  rw [hrelease] at hpush
  have hexit := exitStatus_status env hpush.1
  rwa [hexit] at hpush

/-- What the events depend on is the same. -/
structure Quiet (w w' : Workload κ) : Prop where
  events : w'.events = w.events
  finished : w'.finished = w.finished
  held : w'.held = w.held
  contracts : w'.alloc.contracts = w.alloc.contracts
  provider : w'.alloc.computeProviderDID = w.alloc.computeProviderDID
  volumes : w'.alloc.volumes = w.alloc.volumes

namespace Quiet

variable {w w' w'' : Workload κ}

theorem refl (w : Workload κ) : Quiet w w := ⟨rfl, rfl, rfl, rfl, rfl, rfl⟩

theorem trans (h : Quiet w w') (h' : Quiet w' w'') : Quiet w w'' where
  events := h'.events.trans h.events
  finished := h'.finished.trans h.finished
  held := h'.held.trans h.held
  contracts := h'.contracts.trans h.contracts
  provider := h'.provider.trans h.provider
  volumes := h'.volumes.trans h.volumes

theorem setStatus (w : Workload κ) (ns : AllocationStatus) (msg : String) :
    Quiet w (w.setStatus ns msg) := ⟨rfl, rfl, rfl, rfl, rfl, rfl⟩

theorem stopExecution (env : StopEnv) (w : Workload κ) : Quiet w (w.stopExecution env).1 := by
  unfold Workload.stopExecution
  repeat' split
  all_goals exact ⟨rfl, rfl, rfl, rfl, rfl, rfl⟩

theorem stop (env : StopEnv) (w : Workload κ) : Quiet w (w.stop env).1 := by
  have hstopped : Quiet w (w.stopActor.stopExecution env).1 :=
    (show Quiet w w.stopActor from ⟨rfl, rfl, rfl, rfl, rfl, rfl⟩).trans
      (stopExecution env w.stopActor)
  unfold Workload.stop
  match w.stopActor.stopExecution env, hstopped with
  | (w', .error _), hstopped => exact hstopped.trans (.setStatus w' _ _)
  | (w', .ok _), hstopped =>
    dsimp only
    split
    · exact hstopped.trans (.setStatus w' _ _)
    · exact hstopped

theorem start (env : StartEnv) (w : Workload κ) : Quiet w (w.start env).1 := by
  unfold Workload.start
  repeat' split
  all_goals exact ⟨rfl, rfl, rfl, rfl, rfl, rfl⟩

theorem terminateStop (env : StopEnv) (w : Workload κ) : Quiet w (w.terminateStop env).1 := by
  unfold Workload.terminateStop
  split
  · match w.stop env, stop env w with
    | (_, .error _), hstop => exact hstop
    | (w', .ok _), hstop => exact hstop.trans (.setStatus w' _ _)
  · exact .refl w

theorem exitStatus (env : ExitEnv) (w : Workload κ) : Quiet w (w.exitStatus env) := by
  unfold Workload.exitStatus
  repeat' split
  all_goals exact ⟨rfl, rfl, rfl, rfl, rfl, rfl⟩

theorem starts_eq (h : Quiet w w') (env : RunEnv) : env.starts w'.alloc = env.starts w.alloc := by
  unfold RunEnv.starts
  rw [h.volumes]

end Quiet

theorem run_quiet (net : NetState) (h : ¬ (w.alloc.status ≠ .running ∧ env.starts w.alloc = true)) :
    Quiet w (w.run env net).1 := by
  unfold run
  by_cases hrunning : w.alloc.status = .running
  · rw [launch_of_running (w := w.keepNetState net) env hrunning]
    exact ⟨rfl, rfl, rfl, rfl, rfl, rfl⟩
  have hstarts : env.starts w.alloc = false :=
    Bool.eq_false_iff.mpr fun hstarts => h ⟨hrunning, hstarts⟩
  obtain ⟨execution, e, hlaunch⟩ :=
    launch_of_not_starts (w := w.keepNetState net) hrunning hstarts
  rw [hlaunch]
  exact ⟨rfl, rfl, rfl, rfl, rfl, rfl⟩

theorem run_of_running (env : RunEnv) (net : NetState) (h : w.alloc.status = .running) :
    (w.run env net).1.execution = w.execution ∧ (w.run env net).2 = .ok () := by
  rw [run, launch_of_running (w := w.keepNetState net) env h]
  exact ⟨rfl, rfl⟩

theorem run_of_starts (net : NetState)
    (h : w.alloc.status ≠ .running) (hstarts : env.starts w.alloc = true) : w.run env net =
      ((((w.keepNetState net).startExecutor (.ok ())).announce env.notify).setStatus .running
        "allocation started", .ok ()) := by
  rw [run, launch_of_starts (w := w.keepNetState net) h hstarts]

theorem run_of_not_starts (net : NetState)
    (h : w.alloc.status ≠ .running) (hstarts : env.starts w.alloc = false) :
    ∃ e, (w.run env net).2 = .error e := by
  obtain ⟨execution, e, hlaunch⟩ := launch_of_not_starts (w := w.keepNetState net) h hstarts
  refine ⟨e, ?_⟩
  rw [run, hlaunch]

theorem stopExecution_actorRunning (env : StopEnv) (w : Workload κ) :
    (w.stopExecution env).1.alloc.actorRunning = w.alloc.actorRunning := by
  unfold stopExecution
  repeat' split
  all_goals rfl

theorem stop_actorRunning (env : StopEnv) (w : Workload κ) :
    (w.stop env).1.alloc.actorRunning = false := by
  unfold stop
  match w.stopActor.stopExecution env, stopExecution_actorRunning env w.stopActor with
  | (_, .error _), hactor => exact hactor
  | (_, .ok _), hactor =>
    dsimp only
    split <;> exact hactor

theorem start_isOk (env : StartEnv) (h : w.alloc.actorRunning = false) :
    (w.start env).2.isOk = env.starts := by
  rw [start, StartEnv.starts, if_neg (by simp [h])]
  match env.addBehavior, env.actorStart with
  | .error _, _ => rfl
  | .ok _, .error _ => rfl
  | .ok _, .ok _ => rfl

def restarts (env : RestartEnv) (w : Workload κ) : Bool :=
  w.alloc.netState.subnetIP ≠ [] && env.start.starts && env.run.starts w.alloc

def restartStopped (env : RestartEnv) (w : Workload κ) : Workload κ :=
  ((w.setStatus .restarting "restarting allocation").stop env.stop).1

theorem restartStopped_start (env : RestartEnv) (w : Workload κ) :
    Quiet w ((w.restartStopped env).start env.start).1 ∧
      ((w.restartStopped env).start env.start).1.alloc.status ≠ .running ∧
      ((w.restartStopped env).start env.start).2.isOk = env.start.starts := by
  have hstatus : (w.restartStopped env).alloc.status ≠ .running := stop_status env.stop _
  have hsame := ((w.restartStopped env).start_alloc env.start).1
  refine ⟨((Quiet.setStatus w _ _).trans (.stop env.stop _)).trans (.start env.start _), ?_, ?_⟩
  · rw [hsame]
    exact hstatus
  · exact start_isOk env.start (stop_actorRunning env.stop _)

theorem restart_of_subnetIP (env : RestartEnv) (h : w.alloc.netState.subnetIP ≠ []) :
    w.restart env = match (w.restartStopped env).start env.start with
      | (w, .error e) => (w, .error e)
      | (w, .ok _) =>
        match w.run env.run w.alloc.netState with
        | (w, .error e) =>
          ((w.stop env.stopAgain).1.setStatus .failed "allocation run failed during restart",
            .error ("run allocation: " ++ e))
        | (w, .ok _) => (w, .ok ()) :=
  if_neg h

/-- A restart that starts the executor does what `Run` does in a state in which nothing that
the events depend on has changed. -/
theorem restart_reaches_run (env : RestartEnv) (h : w.restarts env = true) :
    ∃ w', Quiet w w' ∧ w'.alloc.status ≠ .running ∧ env.run.starts w'.alloc = true ∧
      (w.restart env).1 = (w'.run env.run w'.alloc.netState).1 := by
  simp only [restarts, Bool.and_eq_true, decide_eq_true_eq] at h
  obtain ⟨⟨hip, hactor⟩, hstarts⟩ := h
  obtain ⟨hquiet, hstatus, hisOk⟩ := w.restartStopped_start env
  rw [restart_of_subnetIP env hip]
  match (w.restartStopped env).start env.start, hquiet, hstatus, hisOk.trans hactor with
  | (w', .ok _), hquiet, hstatus, _ =>
    have hstarts' := (hquiet.starts_eq env.run).trans hstarts
    refine ⟨w', hquiet, hstatus, hstarts', ?_⟩
    dsimp only
    rw [run_of_starts _ hstatus hstarts']

theorem restart_quiet (env : RestartEnv) (h : w.restarts env = false) :
    Quiet w (w.restart env).1 ∧ (w.restart env).1.alloc.status ≠ .running := by
  by_cases hip : w.alloc.netState.subnetIP = []
  · have hrestart : w.restart env = (w.setStatus .restarting "restarting allocation",
        .error "allocation: state is empty, no subnet ip is provided") :=
      if_pos hip
    rw [hrestart]
    exact ⟨.setStatus w _ _, nofun⟩
  obtain ⟨hquiet, hstatus, hisOk⟩ := w.restartStopped_start env
  rw [restart_of_subnetIP env hip]
  match (w.restartStopped env).start env.start, hquiet, hstatus, hisOk with
  | (_, .error _), hquiet, hstatus, _ => exact ⟨hquiet, hstatus⟩
  | (w', .ok _), hquiet, hstatus, hisOk =>
    have hactor : env.start.starts = true := hisOk.symm
    have hstarts : env.run.starts w'.alloc = false := by
      rw [hquiet.starts_eq env.run]
      simpa [restarts, hip, hactor] using h
    have hfailed : Quiet w' (w'.run env.run w'.alloc.netState).1 :=
      run_quiet w'.alloc.netState (by simp [hstarts])
    obtain ⟨e, herror⟩ := run_of_not_starts w'.alloc.netState hstatus hstarts
    dsimp only
    match w'.run env.run w'.alloc.netState, hfailed, herror with
    | (w'', _), hfailed, rfl =>
      have hagain := (Quiet.stop env.stopAgain w'').trans
        (.setStatus _ .failed "allocation run failed during restart")
      exact ⟨(hquiet.trans hfailed).trans hagain, nofun⟩

end Workload

end DMS.Jobs
