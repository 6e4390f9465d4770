import Mathlib.Logic.Relation

/-! # Guarded runs of a labelled system

A system takes labels one after another. A guard says which label may be taken in
which state, so that a restriction on every step of a run is part of the notion
of reachability and not a side condition on traces.
-/

universe u v

namespace DMS

/-- The states reached from `start` when every label taken passed the guard in
the state it was taken in. -/
inductive Reach {σ : Type u} {ι : Type v} (start : σ → Prop) (guard : σ → ι → Prop)
    (step : σ → ι → σ) : σ → Prop
  | init {s : σ} : start s → Reach start guard step s
  | step {s : σ} (i : ι) : Reach start guard step s → guard s i → Reach start guard step (step s i)

namespace Reach

variable {σ : Type u} {ι : Type v} {start : σ → Prop} {guard : σ → ι → Prop} {step : σ → ι → σ}

theorem invariant (Inv : σ → Prop) (hinit : ∀ s, start s → Inv s)
    (hstep : ∀ s i, Inv s → guard s i → Inv (step s i)) {s}
    (h : Reach start guard step s) : Inv s := by
  induction h with
  | init hs => exact hinit _ hs
  | step i _ hg ih => exact hstep _ i ih hg

def Passes (guard : σ → ι → Prop) (step : σ → ι → σ) : σ → List ι → Prop
  | _, [] => True
  | s, i :: labels => guard s i ∧ Passes guard step (step s i) labels

instance decidablePasses [∀ s i, Decidable (guard s i)] :
    ∀ (s : σ) (labels : List ι), Decidable (Passes guard step s labels)
  | _, [] => inferInstanceAs (Decidable True)
  | s, i :: labels =>
    have := decidablePasses (step s i) labels
    inferInstanceAs (Decidable (guard s i ∧ Passes guard step (step s i) labels))

theorem foldl {s} (h : Reach start guard step s) {ls}
    (hpass : Passes guard step s ls) : Reach start guard step (ls.foldl step s) := by
  induction ls generalizing s with
  | nil => exact h
  | cons i ls ih => exact ih (.step i h hpass.1) hpass.2

theorem forall_prefix_cons {P : List ι → Prop} {i ls} :
    (∀ past, past <+: i :: ls → P past) ↔ P [] ∧ ∀ past, past <+: ls → P (i :: past) := by
  simp only [List.prefix_cons_iff, or_imp, forall_and, forall_eq]
  refine and_congr_right fun _ => ⟨fun h past hpast => h _ ⟨past, rfl, hpast⟩, ?_⟩
  rintro h _ ⟨past, rfl, hpast⟩
  exact h past hpast

theorem Passes.invariant (Inv : σ → Prop) {s ls} (hinv : Inv s)
    (hstep : ∀ s i, Inv s → guard s i → Inv (step s i)) (h : Passes guard step s ls) :
    ∀ past, past <+: ls → Inv (past.foldl step s) := by
  induction ls generalizing s with
  | nil => simpa [List.prefix_nil] using hinv
  | cons i ls ih => exact forall_prefix_cons.mpr ⟨hinv, ih (hstep s i hinv h.1) h.2⟩

/-- When the guard of a step says exactly that it ends in a good state, the labels of a run pass
it if and only if every state of the run is good. -/
theorem passes_iff_forall (Inv Good : σ → Prop) {s} (ls : List ι) (hinv : Inv s)
    (hgood : Good s) (hstep : ∀ s i, Inv s → (guard s i ↔ Good (step s i)))
    (hkeep : ∀ s i, Inv s → guard s i → Inv (step s i)) :
    Passes guard step s ls ↔ ∀ past, past <+: ls → Good (past.foldl step s) := by
  induction ls generalizing s with
  | nil => simpa [List.prefix_nil, Passes] using hgood
  | cons i ls ih =>
    rw [forall_prefix_cons, Passes]
    constructor
    · rintro ⟨hguard, hpass⟩
      exact ⟨hgood, (ih (hkeep s i hinv hguard) ((hstep s i hinv).mp hguard)).mp hpass⟩
    rintro ⟨-, hall⟩
    have hnext := hall [] List.nil_prefix
    have hguard := (hstep s i hinv).mpr hnext
    exact ⟨hguard, (ih (hkeep s i hinv hguard) hnext).mpr hall⟩

end Reach

def Leads {σ : Type u} (f : σ → σ) : σ → σ → Prop := Relation.ReflTransGen fun x y => f x = y

theorem Leads.head {σ : Type u} {f} {x y z : σ} (h : f x = y) (hyz : Leads f y z) : Leads f x z :=
  Relation.ReflTransGen.head h hyz

theorem Leads.lift {σ : Type u} {τ : Type v} {f g} (embed : σ → τ)
    (h : ∀ x, f x = x ∨ g (embed x) = embed (f x)) {x y} (hxy : Leads f x y) :
    Leads g (embed x) (embed y) := by
  induction hxy with
  | refl => exact .refl
  | tail _ hstep ih =>
    subst hstep
    rcases h _ with hsame | hnext
    · rwa [hsame]
    · exact ih.tail hnext

/-- Every run comes to an end, and only in a good state. -/
inductive Completes {σ : Type u} (step : σ → σ → Prop) (good : σ → Prop) : σ → Prop
  | intro {s : σ} : ((∃ t, step s t) ∨ good s) → (∀ t, step s t → Completes step good t) →
      Completes step good s

namespace Completes

variable {σ : Type u} {step : σ → σ → Prop} {good : σ → Prop} {s : σ}

theorem of_measure (Inv : σ → Prop) (measure : σ → Nat)
    (hkeep : ∀ s t, Inv s → step s t → Inv t ∧ measure t < measure s)
    (hgoes : ∀ s, Inv s → (∃ t, step s t) ∨ good s) (hinv : Inv s) : Completes step good s := by
  induction hn : measure s using Nat.strongRecOn generalizing s with
  | _ n ih =>
    refine .intro (hgoes s hinv) fun t hstep => ?_
    obtain ⟨hinv', hless⟩ := hkeep s t hinv hstep
    exact ih (measure t) (hn ▸ hless) hinv' rfl

theorem exists_good (Inv : σ → Prop) (hkeep : ∀ s t, Inv s → step s t → Inv t)
    (h : Completes step good s) (hinv : Inv s) : ∃ t, Inv t ∧ good t := by
  induction h with
  | @intro s hgoes _ ih =>
    rcases hgoes with ⟨t, hstep⟩ | hgood
    · exact ih t hstep (hkeep s t hinv hstep)
    · exact ⟨s, hinv, hgood⟩

end Completes

end DMS
