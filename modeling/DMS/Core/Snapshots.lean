import DMS.Core.Reach

/-! # Reading, changing and writing without a lock

Tasks share one stored value. A task first reads the value and later, after any number of
other reads and writes, writes what it has made of the value that it read. With the write it
may give something out.
-/

universe u v w z

namespace DMS

/-- The stored value, the tasks that have read it and have not finished, each with what it
read, and what the finished tasks have given out. -/
structure Shared (σ : Type u) (τ : Type v) (α : Type z) where
  stored : σ
  pending : List (τ × σ)
  outputs : List α
deriving DecidableEq, Repr

inductive SharedStep (τ : Type v) (ω : Type w)
  | begin (task : τ)
  | finish (k : Nat) (input : ω)
deriving DecidableEq, Repr

namespace Shared

variable {σ : Type u} {τ : Type v} {ω : Type w} {α : Type z}

def start (value : σ) : Shared σ τ α := ⟨value, [], []⟩

variable (effect : ω → τ → σ → Option (σ × List α))

/-- A task that comes to nothing only goes away. -/
def step (s : Shared σ τ α) : SharedStep τ ω → Shared σ τ α
  | .begin task => { s with pending := s.pending ++ [(task, s.stored)] }
  | .finish k input =>
    match s.pending[k]? with
    | none => s
    | some (task, read) =>
      match effect input task read with
      | none => { s with pending := s.pending.eraseIdx k }
      | some (value, outs) => ⟨value, s.pending.eraseIdx k, s.outputs ++ outs⟩

/-- A condition on the tasks that finish: on what the task gets, on the task, on what it read
and on what has been given out before. -/
def Permits (guard : ω → τ → σ → List α → Prop) (s : Shared σ τ α) : SharedStep τ ω → Prop
  | .begin _ => True
  | .finish k input =>
    ∀ task read, s.pending[k]? = some (task, read) → guard input task read s.outputs

variable {effect} {s : Shared σ τ α}

theorem step_finish_of_none {k : Nat} (input : ω) (h : s.pending[k]? = none) :
    s.step effect (.finish k input) = s := by
  simp [step, h]

theorem step_finish_of_some {k input task read} (h : s.pending[k]? = some (task, read)) :
    s.step effect (.finish k input) = match effect input task read with
      | none => { s with pending := s.pending.eraseIdx k }
      | some (value, outs) => ⟨value, s.pending.eraseIdx k, s.outputs ++ outs⟩ := by
  simp [step, h]

theorem pending_step {P : σ → Prop} (hstored : P s.stored)
    (hpending : ∀ p ∈ s.pending, P p.2) (label : SharedStep τ ω) :
    ∀ p ∈ (s.step effect label).pending, P p.2 := by
  cases label with
  | begin task =>
    intro p hp
    rcases List.mem_append.mp hp with hp | hp
    · exact hpending p hp
    · rw [List.mem_singleton.mp hp]
      exact hstored
  | finish k input =>
    cases hk : s.pending[k]? with
    | none =>
      rw [step_finish_of_none input hk]
      exact hpending
    | some p =>
      obtain ⟨task, read⟩ := p
      rw [step_finish_of_some hk]
      have hrest : ∀ p ∈ s.pending.eraseIdx k, P p.2 :=
        fun p hp => hpending p (List.mem_of_mem_eraseIdx hp)
      cases effect input task read with
      | none | some _ => exact hrest

/-- The stored value and the outputs are good in every state of a run if and only if every task
that finishes leaves them good if what it read was good by itself. -/
theorem good_iff_permits (P : σ → Prop) (Good : σ → List α → Prop)
    {guard value} (hvalue : Good value []) (hread : ∀ value outs, Good value outs → P value)
    (hguard : ∀ input task read outs, P read → (guard input task read outs ↔
        ∀ value more, effect input task read = some (value, more) → Good value (outs ++ more)))
    (ls : List (SharedStep τ ω)) :
    (∀ past, past <+: ls → Good (past.foldl (step effect) (start value)).stored
          (past.foldl (step effect) (start value)).outputs) ↔
      Reach.Passes (Permits guard) (step effect) (start value) ls := by
  let Inv : Shared σ τ α → Prop := fun s => Good s.stored s.outputs ∧ ∀ p ∈ s.pending, P p.2
  have hstep : ∀ s label, Inv s → (Permits guard s label ↔
        Good (s.step effect label).stored (s.step effect label).outputs) := by
    rintro s label ⟨hgood, hpending⟩
    cases label with
    | begin task => exact ⟨fun _ => hgood, fun _ => trivial⟩
    | finish k input =>
      cases hk : s.pending[k]? with
      | none =>
        rw [step_finish_of_none input hk]
        refine ⟨fun _ => hgood, fun _ task read htask => ?_⟩
        cases hk.symm.trans htask
      | some p =>
        obtain ⟨task, read⟩ := p
        have hthis : Permits guard s (.finish k input) ↔ guard input task read s.outputs := by
          refine ⟨fun h => h task read hk, fun h task' read' htask => ?_⟩
          cases hk.symm.trans htask
          exact h
        have hreadThis : P read := hpending _ (List.mem_of_getElem? hk)
        rw [hthis, hguard input task read s.outputs hreadThis, step_finish_of_some hk]
        cases heffect : effect input task read with
        | none => exact ⟨fun _ => hgood, fun _ value more h => nomatch h⟩
        | some r =>
          obtain ⟨value, more⟩ := r
          exact ⟨fun h => h value more rfl, fun h _ _ heq => by cases heq; exact h⟩
  refine (Reach.passes_iff_forall Inv (fun s => Good s.stored s.outputs) ls
    ⟨hvalue, fun _ hp => absurd hp List.not_mem_nil⟩ hvalue hstep ?_).symm
  intro s label hinv hpermits
  exact ⟨(hstep s label hinv).mp hpermits, pending_step (hread _ _ hinv.1) hinv.2 label⟩

end Shared

end DMS
