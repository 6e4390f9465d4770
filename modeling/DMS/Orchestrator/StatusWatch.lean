import DMS.Core.Reach
import DMS.Orchestrator.DeploymentsStore

/-! # Saving a deployment when its status changes

`setStatus` and `StatusChannel` of `dms/orchestrator/orchestrator.go` with the goroutine of
`saveDeploymentOnStatusChange` in `registry.go`, cut wherever the status may change.
-/

namespace DMS.Orchestrator

/-- The states in which `setStatus` closes the channels. -/
def DeploymentStatus.terminal : DeploymentStatus → Bool
  | .failed => true
  | .completed => true
  | _ => false

/-- Where the goroutine is, with its `prevStatus`. -/
inductive Saver
  | starting
  | entering (prevStatus : DeploymentStatus)
  | subscribing (prevStatus : DeploymentStatus)
  | waiting (prevStatus : DeploymentStatus)
  | saving (prevStatus : DeploymentStatus)
  | writing (prevStatus view : DeploymentStatus)
  | returned
deriving DecidableEq, Repr

def Saver.looping : Saver → Bool
  | .waiting _ => true
  | .saving _ => true
  | .writing _ _ => true
  | _ => false

def Saver.early : Saver → Bool
  | .starting => true
  | .entering _ => true
  | .subscribing _ => true
  | _ => false

/-- The goroutine that `StatusChannel` leaves behind to clean up when the context is done. -/
inductive Cleaner
  | idle
  | armed
  | dropped
  | finished
deriving DecidableEq, Repr

/-- An orchestrator with the status of its record in the store, the one-slot channel of the
goroutine, and whether this has saved a terminal status (`retired`) and looped after that
(`spun`). -/
structure Watch where
  status : DeploymentStatus
  stored : DeploymentStatus
  slot : Option DeploymentStatus
  closed : Bool
  subscribed : Bool
  cancelled : Bool
  saver : Saver
  cleaner : Cleaner
  retired : Bool
  spun : Bool
deriving DecidableEq, Repr

namespace Watch

/-- After `NewOrchestrator`: the record was saved, the goroutine has not run yet. -/
def new : Watch :=
  ⟨.preparing, .preparing, none, false, false, false, .starting, .idle, false, false⟩

def setStatus (status : DeploymentStatus) (w : Watch) : Watch := { w with
    status := status
    slot := if w.status ≠ status ∧ w.subscribed = true ∧ w.slot = none then some status else w.slot
    closed := w.closed || w.subscribed && status.terminal
    subscribed := w.subscribed && !status.terminal }

/-- A value arrives in the loop: one that equals `prevStatus` is skipped. -/
def receive (prevStatus status : DeploymentStatus) (w : Watch) : Watch := { w with
    saver := if status = prevStatus then .waiting prevStatus else .saving status
    spun := w.spun || w.retired }

/-- The next step of the goroutine. `done` is the choice of a `select` that may take the
context's case, `written` whether the store takes the record. A closed channel yields the
zero status. -/
def advance (done written : Bool) (w : Watch) : Watch :=
  match w.saver with
  | .starting => { w with saver := .entering w.status }
  | .entering prevStatus =>
    if done && w.cancelled then { w with closed := true, saver := .waiting prevStatus }
    else { w with slot := some w.status, saver := .subscribing prevStatus }
  | .subscribing prevStatus =>
    { w with subscribed := true, cleaner := .armed, saver := .waiting prevStatus }
  | .waiting prevStatus =>
    if done && w.cancelled then { w with saver := .returned }
    else
      match w.slot with
      | some status => receive prevStatus status { w with slot := none }
      | none => if w.closed then receive prevStatus .preparing w else w
  | .saving prevStatus => { w with saver := .writing prevStatus w.status }
  | .writing prevStatus view =>
    if written then
      { w with
        stored := view
        saver := .waiting prevStatus
        retired := w.retired || view.terminal }
    else { w with saver := .waiting prevStatus }
  | .returned => w

def clean (w : Watch) : Watch :=
  match w.cleaner with
  | .armed => if w.cancelled then { w with subscribed := false, cleaner := .dropped } else w
  | .dropped =>
    if w.slot.isSome then { w with slot := none, cleaner := .finished }
    else { w with closed := true, cleaner := .finished }
  | _ => w

inductive Event
  | setStatus (status : DeploymentStatus)
  | advance (done written : Bool)
  | cancel
  | clean
deriving DecidableEq, Repr

def step (w : Watch) : Event → Watch
  | .setStatus status => w.setStatus status
  | .advance done written => w.advance done written
  | .cancel => { w with cancelled := true }
  | .clean => w.clean

/-- The goroutine is blocked: it waits on a channel that is empty and open, and its context is
not done. -/
def idle (w : Watch) : Bool :=
  match w.saver with
  | .waiting _ => w.slot.isNone && !w.closed && !w.cancelled
  | _ => false

/-- The record has the current status whenever the goroutine is blocked, and the loop ended
with the terminal status. -/
def CaughtUp (w : Watch) : Prop := (w.idle = true → w.stored = w.status) ∧ w.spun = false

instance (w : Watch) : Decidable w.CaughtUp :=
  inferInstanceAs (Decidable ((_ → _) ∧ _))

/-- No status gets lost in the goroutine's next step. A value that equals the last one is skipped,
and a write may fail, only when another value is to come or the record is up to date; and after a
terminal status the `select` takes the case of the context. -/
def Heeds (done written : Bool) (w : Watch) : Prop :=
  match w.saver with
  | .waiting prevStatus =>
    (done && w.cancelled) = true ∨ w.slot = none ∧ w.closed = false ∨ w.retired = false ∧
        (w.slot = some prevStatus → w.closed = false → w.cancelled = false → w.stored = w.status)
  | .writing _ _ =>
    written = false → w.slot = none → w.closed = false → w.cancelled = false → w.stored = w.status
  | _ => True

def Heeded (w : Watch) : Event → Prop
  | .advance done written => w.Heeds done written
  | _ => True

/-- As long as the context is not done and the channel is open, the goroutine in its loop is
subscribed and a status that it has read for the record is the current one, unless a newer one is
in the channel. -/
structure Ordered (w : Watch) : Prop where
  live : w.saver.looping = true → w.closed = false → w.cancelled = false → w.subscribed = true
  first : ∀ prevStatus, w.saver = .subscribing prevStatus → w.slot ≠ none
  fresh : ∀ prevStatus view, w.saver = .writing prevStatus view → w.slot = none →
    w.closed = false → w.cancelled = false → view = w.status
  early : w.saver.early = true → w.cleaner = .idle
  dropped : w.cleaner = .dropped → w.cancelled = true

section Steps

variable {w : Watch}

theorem idle_iff : w.idle = true ↔
    (∃ prev, w.saver = .waiting prev) ∧ w.slot = none ∧ w.closed = false ∧
      w.cancelled = false := by
  unfold idle
  cases w.saver <;> simp [and_assoc]

theorem setStatus_slot (h : w.Ordered) {st}
    (hlooping : w.saver.looping = true) (hslot : (w.setStatus st).slot = none)
    (hclosed : (w.setStatus st).closed = false) (hcancelled : w.cancelled = false) :
    w.status = st ∧ w.slot = none ∧ w.closed = false := by
  simp only [setStatus, Bool.or_eq_false_iff] at hslot hclosed
  have hsubscribed := h.live hlooping hclosed.1 hcancelled
  by_cases hfull : w.slot = none
  · by_cases hsame : w.status = st
    · exact ⟨hsame, hfull, hclosed.1⟩
    · rw [if_pos ⟨hsame, hsubscribed, hfull⟩] at hslot
      exact absurd hslot (Option.some_ne_none _)
  · rw [if_neg fun hc => hfull hc.2.2] at hslot
    exact absurd hslot hfull

theorem setStatus_ordered (h : w.Ordered) (st : DeploymentStatus) : (w.setStatus st).Ordered := by
  refine ⟨?_, ?_, ?_, h.early, h.dropped⟩
  · intro hlooping hclosed hcancelled
    simp only [setStatus, Bool.or_eq_false_iff] at hclosed ⊢
    have hsubscribed := h.live hlooping hclosed.1 hcancelled
    simpa [hsubscribed] using hclosed.2
  · intro prev hsaver hslot
    simp only [setStatus] at hslot
    split at hslot
    · exact Option.some_ne_none _ hslot
    · exact h.first prev hsaver hslot
  intro prev view hsaver hslot hclosed hcancelled
  have hlooping : w.saver.looping = true := by
    rw [show w.saver = .writing prev view from hsaver]
    rfl
  obtain ⟨rfl, hslot', hclosed'⟩ := setStatus_slot h hlooping hslot hclosed hcancelled
  exact h.fresh prev view hsaver hslot' hclosed' hcancelled

theorem setStatus_caughtUp (h : w.Ordered) (hgood : w.CaughtUp) (st : DeploymentStatus) :
    (w.setStatus st).CaughtUp := by
  refine ⟨?_, hgood.2⟩
  intro hidle
  obtain ⟨⟨prev, hsaver⟩, hslot, hclosed, hcancelled⟩ := idle_iff.mp hidle
  have hlooping : w.saver.looping = true := by
    rw [show w.saver = .waiting prev from hsaver]
    rfl
  obtain ⟨rfl, hslot', hclosed'⟩ := setStatus_slot h hlooping hslot hclosed hcancelled
  exact hgood.1 (idle_iff.mpr ⟨⟨prev, hsaver⟩, hslot', hclosed', hcancelled⟩)

theorem advance_ordered (h : w.Ordered) (done written : Bool) :
    (w.advance done written).Ordered := by
  unfold advance
  cases hsaver : w.saver with
  | starting =>
    exact ⟨nofun, nofun, nofun, fun _ => h.early (by rw [hsaver]; rfl), h.dropped⟩
  | entering prev =>
    dsimp only
    split
    · exact ⟨nofun, nofun, nofun, nofun, h.dropped⟩
    · exact ⟨nofun, fun _ _ => Option.some_ne_none _, nofun,
        fun _ => h.early (by rw [hsaver]; rfl), h.dropped⟩
  | subscribing prev => exact ⟨fun _ _ _ => rfl, nofun, nofun, nofun, nofun⟩
  | waiting prev =>
    have hlive := h.live (by rw [hsaver]; rfl)
    have hreceive (st : DeploymentStatus) (slot : Option DeploymentStatus) :
        (receive prev st { w with slot := slot }).Ordered := by
      unfold receive
      split <;> exact ⟨fun _ => hlive, nofun, nofun, nofun, h.dropped⟩
    dsimp only
    split
    · exact ⟨nofun, nofun, nofun, nofun, h.dropped⟩
    split
    · exact hreceive _ none
    split
    · exact hreceive _ w.slot
    · exact h
  | saving prev =>
    refine ⟨fun _ => h.live (by rw [hsaver]; rfl), nofun, ?_, nofun, h.dropped⟩
    rintro p view ⟨⟩ _ _ _
    rfl
  | writing prev view =>
    have hlive := h.live (by rw [hsaver]; rfl)
    dsimp only
    split <;> exact ⟨fun _ => hlive, nofun, nofun, nofun, h.dropped⟩
  | returned => exact h

theorem receive_caughtUp_iff (hspun : w.spun = false) (prev st : DeploymentStatus) :
    (receive prev st w).CaughtUp ↔ w.retired = false ∧
      (st = prev → w.slot = none → w.closed = false → w.cancelled = false →
        w.stored = w.status) := by
  unfold receive CaughtUp idle
  by_cases hskip : st = prev
  · rw [if_pos hskip]
    simp only [hspun, hskip, Bool.false_or, Bool.and_eq_true, Option.isNone_iff_eq_none,
      Bool.not_eq_true', and_imp, true_implies]
    exact and_comm
  · simp [hskip, hspun]

attribute [local simp] CaughtUp idle

theorem heeds_iff (h : w.Ordered) (hgood : w.CaughtUp) (done written : Bool) :
    w.Heeds done written ↔ (w.advance done written).CaughtUp := by
  have hspun := hgood.2
  unfold Heeds advance
  cases hsaver : w.saver with
  | starting | saving prev => simp [hspun]
  | entering prev =>
    dsimp only
    split <;> simp [hspun]
  | subscribing prev => simp [hspun, h.first prev hsaver]
  | waiting prev =>
    dsimp only
    by_cases hdone : (done && w.cancelled) = true
    · simp [hdone, hspun]
    rw [if_neg hdone]
    cases hslot : w.slot with
    | some st =>
      refine Iff.trans ?_
        (receive_caughtUp_iff (w := { w with slot := none }) hspun prev st).symm
      simp [hdone]
    | none =>
      cases hclosed : w.closed with
      | false => exact iff_of_true (.inr (.inl ⟨rfl, rfl⟩)) hgood
      | true =>
        rw [if_pos rfl, receive_caughtUp_iff hspun]
        simp [hclosed, hdone]
  | writing prev view =>
    have hfresh := h.fresh prev view hsaver
    cases written with
    | true => simpa [hspun] using hfresh
    | false => simp [hspun]
  | returned => exact iff_of_true trivial hgood

theorem clean_ordered (h : w.Ordered) : w.clean.Ordered := by
  have hnever (hcancelled : w.cancelled = true) {P : Prop} (hnot : w.cancelled = false) : P :=
    absurd hnot (by rw [hcancelled]; exact Bool.noConfusion)
  unfold clean
  split
  · next hcleaner =>
    split
    · next hcancelled =>
      exact ⟨fun _ _ => hnever hcancelled, h.first, h.fresh,
        fun hearly => absurd (h.early hearly) (by rw [hcleaner]; nofun), fun _ => hcancelled⟩
    · exact h
  · next hcleaner =>
    have hlate (hearly : w.saver.early = true) : False :=
      absurd (h.early hearly) (by rw [hcleaner]; nofun)
    have hfirst : ∀ prev, w.saver ≠ .subscribing prev :=
      fun _ hsaver => hlate (by rw [hsaver]; rfl)
    have hcancelled := h.dropped hcleaner
    split
    · exact ⟨fun _ _ => hnever hcancelled, fun p hp => absurd hp (hfirst p),
        fun _ _ _ _ _ => hnever hcancelled, fun hearly => (hlate hearly).elim, nofun⟩
    · exact ⟨nofun, fun p hp => absurd hp (hfirst p), fun _ _ _ _ => nofun,
        fun hearly => (hlate hearly).elim, nofun⟩
  · exact h

theorem clean_caughtUp (h : w.Ordered) (hgood : w.CaughtUp) : w.clean.CaughtUp := by
  unfold clean
  split
  · split <;> exact hgood
  · next hcleaner =>
    have hcancelled := h.dropped hcleaner
    split <;> refine ⟨fun hidle => ?_, hgood.2⟩
    · exact absurd (idle_iff.mp hidle).2.2.2 (by rw [hcancelled]; nofun)
    · exact absurd (idle_iff.mp hidle).2.2.1 nofun
  · exact hgood

theorem step_ordered (h : w.Ordered) (e : Event) : (w.step e).Ordered := by
  cases e with
  | setStatus st => exact setStatus_ordered h st
  | advance done written => exact advance_ordered h done written
  | cancel => exact ⟨nofun, h.first, fun _ _ _ _ _ => nofun, h.early, fun _ => rfl⟩
  | clean => exact clean_ordered h

theorem heeded_iff (h : w.Ordered) (hgood : w.CaughtUp) (e : Event) :
    w.Heeded e ↔ (w.step e).CaughtUp := by
  cases e with
  | setStatus st => exact iff_of_true trivial (setStatus_caughtUp h hgood st)
  | advance done written => exact heeds_iff h hgood done written
  | cancel =>
    refine iff_of_true trivial ⟨fun hidle => ?_, hgood.2⟩
    exact absurd (idle_iff.mp hidle).2.2.2 nofun
  | clean => exact iff_of_true trivial (clean_caughtUp h hgood)

end Steps

/-- The record catches up with the status in every state of a run, and the loop ends with a
terminal status, exactly when no step of the goroutine loses a status. -/
theorem caughtUp_iff_heeded (events : List Event) :
    (∀ past, past <+: events → (past.foldl step new).CaughtUp) ↔
      Reach.Passes Heeded step new events := by
  refine (Reach.passes_iff_forall (fun w => w.Ordered ∧ w.CaughtUp) CaughtUp events
    ⟨⟨nofun, nofun, nofun, fun _ => rfl, nofun⟩, by decide⟩ (by decide) ?_ ?_).symm
  · exact fun w e h => heeded_iff h.1 h.2 e
  · exact fun w e h hheeded => ⟨step_ordered h.1 e, (heeded_iff h.1 h.2 e).mp hheeded⟩

def turns (n : Nat) : List Event := List.replicate n (.advance false true)

/-- Three runs that end with a stale record or a spinning loop: the goroutine starts after the
first change; a status is saved for another value and set again; the deployment fails. -/
theorem stale_or_spinning : ¬ ((Event.setStatus .committing :: turns 4).foldl step new).CaughtUp ∧
    ¬ ((turns 4 ++ [Event.setStatus .committing, .setStatus .preparing] ++ turns 3 ++
        Event.setStatus .committing :: turns 1).foldl step new).CaughtUp ∧
    ¬ ((turns 4 ++ Event.setStatus .failed :: turns 4).foldl step new).CaughtUp := by
  decide

end Watch

end DMS.Orchestrator
