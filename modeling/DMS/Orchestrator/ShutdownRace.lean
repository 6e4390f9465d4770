import Mathlib.Data.List.TakeWhile
import DMS.Core.Reach
import DMS.Orchestrator.DeploymentsStore

/-! # Shutting down a deployment that is being deployed or updated

`Deploy` and `monitorOnlyTaskManifest` of `dms/orchestrator/orchestrator.go`, `Update` of
`update_manifest.go` and `Shutdown` of `teardown.go`, as goroutines of one orchestrator, cut
wherever another may come between. Only `Shutdown` keeps `o.lock` over several steps.
-/

namespace DMS.Orchestrator

open List

inductive Demand
  | commit
  | allocate
  | start
deriving DecidableEq, Repr

inductive Sign
  | status (status : DeploymentStatus)
  | sent (demand : Demand) (node : GoString)
deriving DecidableEq, Repr

inductive Call
  | deploy
  | update
deriving DecidableEq, Repr

inductive CallAt
  | ready
  | checking
  | looping
  | bidding
  | chosen
  | committing
  | allocating
  | allocated
  | recorded
  | joining
  | starting
  | started
  | published
  | granting
  | leaving
  | failing
  | returned
deriving DecidableEq, Repr

inductive MonitorAt
  | off
  | entered
  | waiting
  | decided
  | closing
  | returned
deriving DecidableEq, Repr

inductive ShutdownAt
  | ready
  | checked
  | marked
  | stopping
  | released
  | closing
  | returned
deriving DecidableEq, Repr

/-- What a step meets: success, a failure after which a loop goes on, or the end of the loop. -/
inductive Choice
  | ok
  | retry
  | fail
deriving DecidableEq, Repr

/-- One orchestrator with its goroutines: `holder` is the `Shutdown` that keeps `o.lock`. -/
structure Race where
  status : DeploymentStatus
  kind : Call
  call : CallAt
  monitor : MonitorAt
  shutdowns : Nat → ShutdownAt
  holder : Option Nat
  cancelled : Bool
  log : List Sign

namespace Race

/-- Before the call; the monitor may still be there from an earlier deployment. -/
def initial (kind : Call) (status : DeploymentStatus) (monitor : MonitorAt) (cancelled : Bool) :
    Race :=
  ⟨status, kind, .ready, monitor, fun _ => .ready, none, cancelled, [.status status]⟩

/-- `setStatus`; the caller goes on to `next`. -/
def setStatus (status : DeploymentStatus) (next : Race → Race) (w : Race) : Race :=
  if w.holder = none then
    next { w with status := status, log := w.log ++ [.status status] }
  else w

/-- `updateManifest`; the caller goes on to `next`. -/
def updateManifest (next : Race → Race) (w : Race) : Race := if w.holder = none then next w else w

def goto (call : CallAt) (w : Race) : Race := { w with call := call }

def start (w : Race) : Race :=
  match w.call with
  | .ready =>
    match w.kind with
    | .deploy => w.setStatus .preparing (goto .looping)
    | .update => w.setStatus .updating (goto .checking)
  | _ => w

/-- The next step of the call. Only `deploy` writes statuses in its loop and starts the monitor.
-/
def advance (choice : Choice) (w : Race) : Race :=
  match w.call with
  | .ready => w
  | .checking => if choice = .ok then w.goto .looping else w.goto .leaving
  | .looping =>
    if choice = .fail then w.goto .leaving
    else
      match w.kind with
      | .deploy => w.setStatus .preparing (goto .bidding)
      | .update => w.goto .bidding
  | .bidding =>
    match choice, w.kind with
    | .ok, .deploy => w.goto .chosen
    | .ok, .update => w.goto .committing
    | .retry, _ => w.goto .looping
    | .fail, _ => w.goto .leaving
  | .chosen => w.setStatus .committing (goto .committing)
  | .committing => if choice = .ok then w.goto .allocating else w.goto .looping
  | .allocating =>
    if choice = .ok then
      match w.kind with
      | .deploy => w.goto .allocated
      | .update => w.goto .joining
    else w.goto .looping
  | .allocated => w.updateManifest (goto .recorded)
  | .recorded => w.setStatus .provisioning (goto .joining)
  | .joining => if choice = .ok then w.goto .starting else w.goto .looping
  | .starting =>
    if choice = .ok then
      match w.kind with
      | .deploy => goto .started { w with monitor := .entered }
      | .update => w.goto .started
    else w.goto .looping
  | .started =>
    match w.kind with
    | .deploy => w.updateManifest (goto .published)
    | .update => w.updateManifest (goto .leaving)
  | .published => w.setStatus .running (goto .granting)
  | .granting => w.goto .leaving
  | .leaving =>
    match w.kind with
    | .deploy => if w.status = .running then w.goto .returned else w.goto .failing
    | .update => w.setStatus .running (goto .returned)
  | .failing => w.setStatus .failed (goto .returned)
  | .returned => w

def demand : CallAt → Option Demand
  | .committing => some .commit
  | .allocating => some .allocate
  | .starting => some .start
  | _ => none

def send (node : GoString) (w : Race) : Race :=
  match demand w.call with
  | some demand => { w with log := w.log ++ [.sent demand node] }
  | none => w

/-- The next step of `monitorOnlyTaskManifest`. -/
def watch (choice : Choice) (w : Race) : Race :=
  match w.monitor with
  | .off => w
  | .entered => { w with monitor := if choice = .ok then .waiting else .returned }
  | .waiting =>
    if choice = .fail && w.cancelled then { w with monitor := .returned }
    else if choice = .ok && w.holder.isNone then { w with monitor := .decided }
    else w
  | .decided => w.setStatus .completed fun w => { w with monitor := .closing }
  | .closing => { w with monitor := .returned, cancelled := true }
  | .returned => w

def moved (i : Nat) (at' : ShutdownAt) (w : Race) : Race :=
  { w with shutdowns := Function.update w.shutdowns i at' }

/-- The next step of a `Shutdown`. -/
def shutdown (i : Nat) (w : Race) : Race :=
  match w.shutdowns i with
  | .ready =>
    if w.status = .completed ∨ w.status = .shuttingDown then w.moved i .returned
    else w.moved i .checked
  | .checked => w.setStatus .shuttingDown (moved i .marked)
  | .marked => if w.holder = none then moved i .stopping { w with holder := some i } else w
  | .stopping => moved i .released { w with holder := none }
  | .released => w.setStatus .completed (moved i .closing)
  | .closing => moved i .returned { w with cancelled := true }
  | .returned => w

inductive Act
  | start
  | advance (choice : Choice)
  | send (node : GoString)
  | watch (choice : Choice)
  | shutdown (i : Nat)
deriving DecidableEq, Repr

def step (w : Race) : Act → Race
  | .start => w.start
  | .advance choice => w.advance choice
  | .send node => w.send node
  | .watch choice => w.watch choice
  | .shutdown i => w.shutdown i

/-- From the first `Completed` on no other status is written, and nothing is sent. -/
def Final (log : List Sign) : Prop :=
  ∀ x ∈ log.dropWhile (· ≠ .status .completed), x = .status .completed

instance (log : List Sign) : Decidable (Final log) := inferInstanceAs (Decidable (∀ x ∈ _, _))

/-- The call has not begun or has returned, and no `Shutdown` is about to write its first
status. -/
structure Quiet (w : Race) : Prop where
  call : w.call = .ready ∨ w.call = .returned
  shutdowns : ∀ i, w.shutdowns i ≠ .checked

/-- The step is the one that writes `Completed`. -/
def Completes (w : Race) : Act → Prop
  | .watch _ => w.monitor = .decided
  | .shutdown i => w.shutdowns i = .released
  | _ => False

/-- The call does not begin on a completed deployment, and `Completed` is written only while
nobody else is going to write a status. -/
def Timely (w : Race) (a : Act) : Prop :=
  (a = .start → w.status ≠ .completed) ∧ (w.Completes a → w.Quiet)

theorem final_append_iff (log : List Sign) (x : Sign) :
    Final (log ++ [x]) ↔ Final log ∧ (.status .completed ∈ log → x = .status .completed) := by
  unfold Final
  rw [dropWhile_append]
  by_cases hmem : .status .completed ∈ log
  · have hsome : log.dropWhile (· ≠ .status .completed) ≠ [] := by
      rw [Ne, dropWhile_eq_nil_iff]
      exact fun hall => absurd (hall _ hmem) (by simp)
    rw [if_neg (by simpa using hsome)]
    simp [hmem, or_imp, forall_and]
  have hnone : log.dropWhile (· ≠ .status .completed) = [] := by
    rw [dropWhile_eq_nil_iff]
    exact fun x hx => by simpa using ne_of_mem_of_not_mem hx hmem
  rw [hnone]
  by_cases hx : x = .status .completed <;> simp [hmem, hx]

/-- What a step shows: nothing, a status or a request. A quiet orchestrator shows only
`Completed`, unless the call begins. -/
inductive Shows (w : Race) (a : Act) (w' : Race) : Prop
  | nothing (log : w'.log = w.log) (status : w'.status = w.status)
  | completed (log : w'.log = w.log ++ [.status .completed]) (status : w'.status = .completed)
      (completes : w.Completes a)
  | other (x : Sign) (log : w'.log = w.log ++ [x]) (fresh : x ≠ .status .completed)
      (status : ∀ status, x = .status status → w'.status = status)
      (busy : a = .start ∨ ¬ w.Quiet)

section Steps

variable {w : Race} {a : Act}

theorem goto_shows (call : CallAt) : w.Shows a (w.goto call) := .nothing rfl rfl

theorem updateManifest_shows {call} : w.Shows a (w.updateManifest (goto call)) := by
  unfold updateManifest
  split <;> exact .nothing rfl rfl

theorem setStatus_shows {st next}
    (hlog : ∀ w, (next w).log = w.log) (hstatus : ∀ w, (next w).status = w.status)
    (hother : st ≠ .completed) (hbusy : a = .start ∨ ¬ w.Quiet) :
    w.Shows a (w.setStatus st next) := by
  unfold setStatus
  split
  · refine .other _ (hlog _) (fun h => hother (Sign.status.inj h)) (fun s hs => ?_) hbusy
    exact (hstatus _).trans (Sign.status.inj hs)
  · exact .nothing rfl rfl

theorem setCompleted_shows {next} (hlog : ∀ w, (next w).log = w.log)
    (hstatus : ∀ w, (next w).status = w.status) (ha : w.Completes a) :
    w.Shows a (w.setStatus .completed next) := by
  unfold setStatus
  split
  · exact .completed (hlog _) (hstatus _) ha
  · exact .nothing rfl rfl

theorem start_shows : w.Shows .start w.start := by
  unfold start
  split
  · split <;> exact setStatus_shows (fun _ => rfl) (fun _ => rfl) (by decide) (.inl rfl)
  · exact .nothing rfl rfl

theorem not_quiet_of_call {call} (hcall : w.call = call) (hready : call ≠ .ready)
    (hreturned : call ≠ .returned) : ¬ w.Quiet := by
  intro hquiet
  rcases hquiet.call with h | h
  · exact hready (hcall.symm.trans h)
  · exact hreturned (hcall.symm.trans h)

theorem advance_shows (choice : Choice) : w.Shows (.advance choice) (w.advance choice) := by
  have hset {call : CallAt} (hcall : w.call = call) (st : DeploymentStatus) (next : CallAt)
      (hother : st ≠ .completed) (hready : call ≠ .ready) (hreturned : call ≠ .returned) :
      w.Shows (.advance choice) (w.setStatus st (goto next)) :=
    setStatus_shows (fun _ => rfl) (fun _ => rfl) hother
      (.inr (not_quiet_of_call hcall hready hreturned))
  unfold advance
  cases hcall : w.call with
  | ready | returned => exact .nothing rfl rfl
  | checking | bidding | committing | joining => dsimp only; split <;> exact goto_shows _
  | looping =>
    dsimp only
    split
    · exact goto_shows _
    split
    · exact hset hcall _ _ (by decide) (by decide) (by decide)
    · exact goto_shows _
  | chosen | recorded | published | failing =>
    exact hset hcall _ _ (by decide) (by decide) (by decide)
  | allocating =>
    dsimp only
    split
    · split <;> exact goto_shows _
    · exact goto_shows _
  | allocated => exact updateManifest_shows
  | starting =>
    dsimp only
    split
    · split <;> exact .nothing rfl rfl
    · exact goto_shows _
  | started => dsimp only; split <;> exact updateManifest_shows
  | granting => exact goto_shows _
  | leaving =>
    dsimp only
    split
    · split <;> exact goto_shows _
    · exact hset hcall _ _ (by decide) (by decide) (by decide)

theorem send_shows (node : GoString) : w.Shows (.send node) (w.send node) := by
  unfold send
  split
  · next x hdemand =>
    refine .other _ rfl nofun nofun (.inr fun hquiet => ?_)
    rcases hquiet.call with hcall | hcall <;> rw [hcall] at hdemand <;> cases hdemand
  · exact .nothing rfl rfl

theorem watch_shows (choice : Choice) : w.Shows (.watch choice) (w.watch choice) := by
  unfold watch
  split
  · exact .nothing rfl rfl
  · exact .nothing rfl rfl
  · split
    · exact .nothing rfl rfl
    · split <;> exact .nothing rfl rfl
  · next hdecided => exact setCompleted_shows (fun _ => rfl) (fun _ => rfl) hdecided
  · exact .nothing rfl rfl
  · exact .nothing rfl rfl

theorem shutdown_shows (i : Nat) : w.Shows (.shutdown i) (w.shutdown i) := by
  unfold shutdown
  split
  · split <;> exact .nothing rfl rfl
  · next hchecked =>
    exact setStatus_shows (fun _ => rfl) (fun _ => rfl) (by decide)
      (.inr fun h => h.shutdowns i hchecked)
  · split <;> exact .nothing rfl rfl
  · exact .nothing rfl rfl
  · next hreleased => exact setCompleted_shows (fun _ => rfl) (fun _ => rfl) hreleased
  · exact .nothing rfl rfl
  · exact .nothing rfl rfl

theorem step_shows (w : Race) (a : Act) : w.Shows a (w.step a) := by
  cases a with
  | start => exact start_shows
  | advance choice => exact advance_shows choice
  | send node => exact send_shows node
  | watch choice => exact watch_shows choice
  | shutdown i => exact shutdown_shows i

theorem watch_frame (w : Race) (choice : Choice) :
    (w.watch choice).call = w.call ∧ (w.watch choice).shutdowns = w.shutdowns := by
  unfold watch setStatus
  split
  · exact ⟨rfl, rfl⟩
  · exact ⟨rfl, rfl⟩
  · split
    · exact ⟨rfl, rfl⟩
    · split <;> exact ⟨rfl, rfl⟩
  · split <;> exact ⟨rfl, rfl⟩
  · exact ⟨rfl, rfl⟩
  · exact ⟨rfl, rfl⟩

theorem shutdown_frame (w : Race) (i : Nat) :
    (w.shutdown i).call = w.call ∧ ((w.shutdown i).shutdowns = w.shutdowns ∨
      ∃ point, (w.shutdown i).shutdowns = Function.update w.shutdowns i point ∧
        (point = .checked → w.shutdowns i = .ready ∧ w.status ≠ .completed)) := by
  unfold shutdown setStatus
  split
  · next hready =>
    split
    · exact ⟨rfl, .inr ⟨.returned, rfl, nofun⟩⟩
    · next hopen => exact ⟨rfl, .inr ⟨.checked, rfl, fun _ => ⟨hready, fun h => hopen (.inl h)⟩⟩⟩
  · split
    · exact ⟨rfl, .inr ⟨.marked, rfl, nofun⟩⟩
    · exact ⟨rfl, .inl rfl⟩
  · split
    · exact ⟨rfl, .inr ⟨.stopping, rfl, nofun⟩⟩
    · exact ⟨rfl, .inl rfl⟩
  · exact ⟨rfl, .inr ⟨.released, rfl, nofun⟩⟩
  · split
    · exact ⟨rfl, .inr ⟨.closing, rfl, nofun⟩⟩
    · exact ⟨rfl, .inl rfl⟩
  · exact ⟨rfl, .inr ⟨.returned, rfl, nofun⟩⟩
  · exact ⟨rfl, .inl rfl⟩

theorem Quiet.shutdown (h : w.Quiet) {i}
    (hstatus : w.status = .completed ∨ w.shutdowns i = .released) : (w.shutdown i).Quiet := by
  obtain ⟨hcall, hsame | ⟨point, hpoint, hchecked⟩⟩ := shutdown_frame w i
  · exact ⟨hcall ▸ h.call, hsame ▸ h.shutdowns⟩
  refine ⟨hcall ▸ h.call, fun j => ?_⟩
  rw [hpoint, Function.update_apply]
  split
  · intro hp
    obtain ⟨hready, hopen⟩ := hchecked hp
    rcases hstatus with hdone | hreleased
    · exact hopen hdone
    · cases hready.symm.trans hreleased
  · exact h.shutdowns j

theorem Quiet.advance (h : w.Quiet) (choice : Choice) : w.advance choice = w := by
  unfold Race.advance
  rcases h.call with hcall | hcall <;> rw [hcall]

theorem Quiet.send (h : w.Quiet) (node : GoString) : w.send node = w := by
  unfold Race.send
  rcases h.call with hcall | hcall <;> rw [hcall] <;> rfl

theorem Quiet.step (h : w.Quiet) (hstart : a ≠ .start)
    (hstatus : w.status = .completed ∨ w.Completes a) :
    (w.step a).Quiet ∧ (w.step a).call = w.call := by
  cases a with
  | start => exact absurd rfl hstart
  | advance choice =>
    rw [Race.step, h.advance]
    exact ⟨h, rfl⟩
  | send node =>
    rw [Race.step, h.send]
    exact ⟨h, rfl⟩
  | watch choice =>
    obtain ⟨hcall, hshutdowns⟩ := watch_frame w choice
    exact ⟨⟨hcall ▸ h.call, hshutdowns ▸ h.shutdowns⟩, hcall⟩
  | shutdown i => exact ⟨h.shutdown hstatus, (shutdown_frame w i).1⟩

/-- The log is final so far, and once it has `Completed` in it the orchestrator is quiet. -/
structure Sound (w : Race) : Prop where
  final : Final w.log
  quiet : .status .completed ∈ w.log → w.status = .completed ∧ w.Quiet

theorem initial_sound (kind : Call) (st : DeploymentStatus) (monitor : MonitorAt)
    (cancelled : Bool) : (initial kind st monitor cancelled).Sound := by
  have hnil : Final [] := forall_mem_nil _
  refine ⟨(final_append_iff [] _).mpr ⟨hnil, fun h => absurd h not_mem_nil⟩, ?_⟩
  intro hmem
  exact ⟨(Sign.status.inj (mem_singleton.mp hmem)).symm, .inl rfl, fun _ => nofun⟩

theorem Sound.step (h : w.Sound) (ha : w.Timely a) : (w.step a).Sound := by
  have hstart (hmem : .status .completed ∈ w.log) : a ≠ .start :=
    fun hstart => ha.1 hstart (h.quiet hmem).1
  rcases step_shows w a with ⟨hlog, hstatus⟩ | ⟨hlog, hstatus, hcompletes⟩ |
    ⟨x, hlog, hfresh, _, hbusy⟩
  · refine ⟨hlog ▸ h.final, fun hmem => ?_⟩
    rw [hlog] at hmem
    obtain ⟨hdone, hquiet⟩ := h.quiet hmem
    exact ⟨hstatus.trans hdone, (hquiet.step (hstart hmem) (.inl hdone)).1⟩
  · refine ⟨?_, fun _ => ⟨hstatus, ?_⟩⟩
    · rw [hlog, final_append_iff]
      exact ⟨h.final, fun _ => rfl⟩
    have hother : a ≠ .start := fun hstart => by
      rwa [hstart] at hcompletes
    exact ((ha.2 hcompletes).step hother (.inr hcompletes)).1
  have hnever : .status .completed ∉ w.log := by
    intro hmem
    exact hbusy.elim (hstart hmem) fun hnot => hnot (h.quiet hmem).2
  refine ⟨?_, fun hmem => ?_⟩
  · rw [hlog, final_append_iff]
    exact ⟨h.final, fun hmem => absurd hmem hnever⟩
  · rw [hlog, mem_append, mem_singleton] at hmem
    exact absurd (hmem.resolve_left hnever).symm hfresh

end Steps

/-- Once the status is `Completed` it stays so and no request is sent any more, in every run
in which `Completed` is written only while nobody else is going to write a status. -/
theorem final_of_timely (kind : Call) (status : DeploymentStatus) (monitor : MonitorAt)
    (cancelled : Bool) (acts : List Act)
    (h : Reach.Passes Timely step (initial kind status monitor cancelled) acts) :
    ∀ past, past <+: acts →
      Final (past.foldl step (initial kind status monitor cancelled)).log := by
  intro past hpast
  exact (h.invariant Sound (initial_sound kind status monitor cancelled)
    (fun _ _ hsound htimely => hsound.step htimely) past hpast).final

def forward (n : Nat) : List Act := List.replicate n (.advance .ok)

/-- So many steps of a `Shutdown`. -/
def closing (i n : Nat) : List Act := List.replicate n (.shutdown i)

/-- A deployment that is shut down after `Deploy` has returned. -/
def orderly : List Act :=
  .start :: forward 3 ++ .send (ascii "n1") :: forward 1 ++ .send (ascii "n1") :: forward 4 ++
    .send (ascii "n1") :: forward 5 ++ closing 0 6

theorem final_of_timely_orderly :
    Reach.Passes Timely step (initial .deploy .preparing .off false) orderly ∧
      Final (orderly.foldl step (initial .deploy .preparing .off false)).log := by
  have hcall (w : Race) (choice : Choice) : w.Timely (.advance choice) := ⟨nofun, nofun⟩
  have hsend (w : Race) (node : GoString) : w.Timely (.send node) := ⟨nofun, nofun⟩
  refine (and_iff_left_of_imp fun hpasses =>
    final_of_timely _ _ _ _ _ hpasses _ (prefix_refl _)).mpr ?_
  refine ⟨⟨fun _ => by decide, nofun⟩, hcall _ _, hcall _ _, hcall _ _, hsend _ _, hcall _ _,
    hsend _ _, hcall _ _, hcall _ _, hcall _ _, hcall _ _, hsend _ _, hcall _ _, hcall _ _,
    hcall _ _, hcall _ _, hcall _ _, ⟨nofun, nofun⟩, ⟨nofun, nofun⟩, ⟨nofun, nofun⟩,
    ⟨nofun, nofun⟩, ⟨nofun, fun _ => ⟨.inr rfl, fun i => ?_⟩⟩, ⟨nofun, nofun⟩, trivial⟩
  cases i with
  | zero => decide
  | succ i => exact nofun

/-- `Deploy` is shut down while it chooses among the bids, and commits then. -/
def overtakenDeploy : List Act :=
  .start :: forward 2 ++ closing 0 5 ++ forward 1 ++ [.send (ascii "n1")]

/-- `Update` is shut down before it fails. -/
def overtakenUpdate : List Act := .start :: closing 0 5 ++ [.advance .fail, .advance .ok]

/-- A `Shutdown` overtakes another one. -/
def overtakenShutdown : List Act := closing 0 1 ++ closing 1 5 ++ closing 0 1

theorem completed_not_final :
    ¬ Final (overtakenDeploy.foldl step (initial .deploy .preparing .off false)).log ∧
    ¬ Final (overtakenUpdate.foldl step (initial .update .running .waiting false)).log ∧
    ¬ Final (overtakenShutdown.foldl step (initial .deploy .running .off false)).log := by
  decide

end Race

end DMS.Orchestrator
