import Mathlib.Data.List.Nodup

/-! # Loops over distinct keys

A loop calls an operation for one key after the other. Each call looks at, and changes, what
the state has for its own key. The loop ends at the first error, or it goes on regardless.
-/

namespace DMS.Sweep

open List

variable {σ K V ε : Type}

def sweep (f : K → σ → σ × Except ε Unit) : List K → σ → σ × Except ε Unit
  | [], s => (s, .ok ())
  | k :: ks, s =>
    match f k s with
    | (s, .error e) => (s, .error e)
    | (s, .ok _) => sweep f ks s

variable {f : K → σ → σ × Except ε Unit} {view : σ → K → V}

variable {k : K} {s : σ} {ks : List K} {ok : K → Bool}

theorem sweep_cons_of_ok (ks : List K) (h : (f k s).2.isOk = true) :
    sweep f (k :: ks) s = sweep f ks (f k s).1 := by
  rw [sweep]
  match hf : f k s with
  | (s', .ok u) => rfl
  | (s', .error e) =>
    rw [hf] at h
    cases h

theorem sweep_cons_of_error (ks : List K) (h : (f k s).2.isOk = false) :
    (sweep f (k :: ks) s).1 = (f k s).1 ∧ (sweep f (k :: ks) s).2.isOk = false := by
  unfold sweep
  match hf : f k s with
  | (s', .ok u) =>
    rw [hf] at h
    cases h
  | (s', .error e) => exact ⟨rfl, rfl⟩

theorem sweep_invariant (Inv : σ → Prop) (hstep : ∀ k s, Inv s → Inv (f k s).1) (ks : List K)
    (h : Inv s) : Inv (sweep f ks s).1 := by
  induction ks generalizing s with
  | nil => exact h
  | cons k ks ih =>
    cases hok : (f k s).2.isOk with
    | true =>
      rw [sweep_cons_of_ok ks hok]
      exact ih (hstep k s h)
    | false =>
      rw [(sweep_cons_of_error ks hok).1]
      exact hstep k s h

/-- Calls whose success depends on the whole state: every key is done when the loop ends without
an error, and is otherwise done, begun or not begun. -/
theorem sweep_cases (Before Done Begun : K → V → Prop)
    (hlocal : ∀ k k' s, k' ≠ k → view (f k s).1 k' = view s k')
    (hdone : ∀ k s, Before k (view s k) → (f k s).2.isOk = true → Done k (view (f k s).1 k))
    (hbegun : ∀ k s, Before k (view s k) → (f k s).2.isOk = false → Begun k (view (f k s).1 k))
    (hnodup : ks.Nodup) (h : ∀ k ∈ ks, Before k (view s k)) :
    ((sweep f ks s).2.isOk = true → ∀ k ∈ ks, Done k (view (sweep f ks s).1 k)) ∧
      (∀ k ∈ ks, Done k (view (sweep f ks s).1 k) ∨ Begun k (view (sweep f ks s).1 k) ∨
        Before k (view (sweep f ks s).1 k)) ∧ ∀ k, k ∉ ks → view (sweep f ks s).1 k = view s k := by
  induction ks generalizing s with
  | nil =>
    exact ⟨fun _ k hk => absurd hk not_mem_nil, fun k hk => absurd hk not_mem_nil, fun _ _ => rfl⟩
  | cons k ks ih =>
    obtain ⟨hout, hrest⟩ := nodup_cons.mp hnodup
    have hk := h k (.head _)
    have hothers (k' : K) (hk' : k' ∈ ks) : view (f k s).1 k' = view s k' :=
      hlocal k k' s fun heq => hout (heq ▸ hk')
    cases hok : (f k s).2.isOk with
    | true =>
      have hnext := ih hrest fun k' hk' => by
        rw [hothers k' hk']
        exact h k' (.tail _ hk')
      rw [sweep_cons_of_ok ks hok]
      have hown : Done k (view (sweep f ks (f k s).1).1 k) := by
        rw [hnext.2.2 k hout]
        exact hdone k s hk hok
      refine ⟨fun hall => ?_, ?_, fun k' hk' => ?_⟩
      · exact forall_mem_cons.mpr ⟨hown, hnext.1 hall⟩
      · exact forall_mem_cons.mpr ⟨.inl hown, hnext.2.1⟩
      · rw [mem_cons, not_or] at hk'
        rw [hnext.2.2 k' hk'.2, hlocal k k' s hk'.1]
    | false =>
      obtain ⟨hstate, herror⟩ := sweep_cons_of_error ks hok
      rw [hstate, herror]
      refine ⟨nofun, ?_, fun k' hk' => ?_⟩
      · refine forall_mem_cons.mpr ⟨.inr (.inl (hbegun k s hk hok)), fun k' hk' => ?_⟩
        rw [hothers k' hk']
        exact .inr (.inr (h k' (.tail _ hk')))
      · rw [mem_cons, not_or] at hk'
        exact hlocal k k' s hk'.1

/-- The keys that a loop gets to when `ok` says which calls succeed. -/
def attempted (ok : K → Bool) : List K → List K
  | [] => []
  | k :: ks => k :: if ok k then attempted ok ks else []

theorem attempted_cons_of_ok (h : ok k = true) (ks : List K) :
    attempted ok (k :: ks) = k :: attempted ok ks := by
  rw [attempted, if_pos h]

theorem attempted_cons_of_not_ok (h : ok k = false) (ks : List K) :
    attempted ok (k :: ks) = [k] := by
  rw [attempted, if_neg (by simp [h])]

theorem attempted_subset (ok : K → Bool) (ks : List K) : ∀ k ∈ attempted ok ks, k ∈ ks := by
  induction ks with
  | nil => exact fun k hk => hk
  | cons k ks ih =>
    intro k' hk'
    rcases mem_cons.mp hk' with rfl | hk'
    · exact .head _
    split at hk'
    · exact .tail _ (ih k' hk')
    · exact absurd hk' not_mem_nil

theorem attempted_of_all (h : ∀ k ∈ ks, ok k = true) : attempted ok ks = ks := by
  induction ks with
  | nil => rfl
  | cons k ks ih =>
    rw [attempted_cons_of_ok (h k (.head _)), ih fun k' hk' => h k' (.tail _ hk')]

theorem sweep_attempted [DecidableEq K] (Ready : K → V → Prop) (ok : K → Bool) (g : K → V → V)
    (hcall : ∀ k s, Ready k (view s k) → (f k s).2.isOk = ok k ∧
      ∀ k', view (f k s).1 k' = if k' = k then g k (view s k) else view s k')
    (hnodup : ks.Nodup) (h : ∀ k ∈ ks, Ready k (view s k)) : (sweep f ks s).2.isOk = ks.all ok ∧
      (∀ k ∈ attempted ok ks, view (sweep f ks s).1 k = g k (view s k)) ∧
      ∀ k, k ∉ attempted ok ks → view (sweep f ks s).1 k = view s k := by
  induction ks generalizing s with
  | nil => exact ⟨rfl, fun k hk => absurd hk not_mem_nil, fun _ _ => rfl⟩
  | cons k ks ih =>
    obtain ⟨hout, hrest⟩ := nodup_cons.mp hnodup
    obtain ⟨hok, hview⟩ := hcall k s (h k (.head _))
    have hown : view (f k s).1 k = g k (view s k) := by rw [hview, if_pos rfl]
    have hother (k' : K) (hk' : k' ≠ k) : view (f k s).1 k' = view s k' := by
      rw [hview, if_neg hk']
    cases hkok : ok k with
    | true =>
      have hothers (k' : K) (hk' : k' ∈ ks) : view (f k s).1 k' = view s k' :=
        hother k' fun heq => hout (heq ▸ hk')
      obtain ⟨hall, hdone, hrefused⟩ := ih hrest fun k' hk' => by
        rw [hothers k' hk']
        exact h k' (.tail _ hk')
      rw [sweep_cons_of_ok ks (hok.trans hkok), attempted_cons_of_ok hkok]
      refine ⟨by rw [hall, all_cons, hkok, Bool.true_and], ?_, fun k' hk' => ?_⟩
      · refine forall_mem_cons.mpr ⟨?_, fun k' hk' => ?_⟩
        · rw [hrefused k fun hmem => hout (attempted_subset ok ks k hmem), hown]
        · rw [hdone k' hk', hothers k' (attempted_subset ok ks k' hk')]
      · rw [mem_cons, not_or] at hk'
        rw [hrefused k' hk'.2, hother k' hk'.1]
    | false =>
      obtain ⟨hstate, herror⟩ := sweep_cons_of_error ks (hok.trans hkok)
      rw [hstate, herror, attempted_cons_of_not_ok hkok]
      refine ⟨by rw [all_cons, hkok, Bool.false_and], ?_, fun k' hk' => ?_⟩
      · exact forall_mem_singleton.mpr hown
      · exact hother k' fun heq => hk' (mem_singleton.mpr heq)

theorem foldl_view [DecidableEq K] {f} (g : K → V → V)
    (hview : ∀ s k k', view (f s k) k' = if k' = k then g k (view s k) else view s k')
    (hnodup : ks.Nodup) (s : σ) (k : K) :
    view (ks.foldl f s) k = if k ∈ ks then g k (view s k) else view s k := by
  induction ks generalizing s with
  | nil => rfl
  | cons k' ks ih =>
    obtain ⟨hout, hrest⟩ := nodup_cons.mp hnodup
    rw [foldl_cons, ih hrest, hview]
    by_cases hk : k = k'
    · subst hk
      rw [if_neg hout, if_pos rfl, if_pos (.head _)]
    · simp [mem_cons, hk, false_or]

end DMS.Sweep
