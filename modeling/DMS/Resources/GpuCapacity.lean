import DMS.Resources.Capacity
import Mathlib.Data.List.Induction

/-! # Video memory index by index

Only the last GPU that a request has for an index counts, and only when the index is onboarded; the
rest is committed without having been subtracted from anything. What is subtracted is subtracted
from the slice that the store holds.
-/

namespace DMS.Types

variable {κ : Type}

def vramOn (i : Int) (gpus : List GPU) : Nat :=
  (gpus.map fun gpu => if gpu.index = i then gpu.vram.toNat else 0).sum

theorem vramOn_cons (i : Int) (gpu : GPU) (gpus : List GPU) :
    vramOn i (gpu :: gpus) = (if gpu.index = i then gpu.vram.toNat else 0) + vramOn i gpus := rfl

theorem vramOn_concat (i : Int) (gpus : List GPU) (gpu : GPU) :
    vramOn i (gpus ++ [gpu]) = vramOn i gpus + if gpu.index = i then gpu.vram.toNat else 0 := by
  simp [vramOn]

def asked (request : GoMap Int GPU) (i : Int) : Nat :=
  request.weightAt (fun gpu => gpu.vram.toNat) i

/-- The GPUs of the request are onboarded, and for each index only the last one asks
for memory. -/
structure Separate (onboarded request : List GPU) : Prop where
  onboarded : ∀ gpu ∈ request, gpu.vram ≠ 0 → gpu.index ∈ onboarded.map GPU.index
  last : request.Pairwise fun gpu later => gpu.index = later.index → gpu.vram = 0

theorem byIndex_concat (gpus : List GPU) (gpu : GPU) :
    GPUs.byIndex (gpus ++ [gpu]) = (GPUs.byIndex gpus).insert gpu.index gpu := by
  simp [GPUs.byIndex]

theorem vramOn_eq_zero {i gpus} (h : ∀ gpu ∈ gpus, gpu.index = i → gpu.vram = 0) :
    vramOn i gpus = 0 := by
  induction gpus with
  | nil => rfl
  | cons gpu gpus ih =>
    rw [vramOn_cons, ih fun g hg => h g (.tail _ hg)]
    split
    · next hi => simp [h gpu (.head _) hi]
    · rfl

theorem vramOn_le_asked {req : List GPU}
    (h : req.Pairwise fun gpu later => gpu.index = later.index → gpu.vram = 0) (i : Int) :
    vramOn i req ≤ asked (GPUs.byIndex req) i := by
  induction req using List.reverseRecOn with
  | nil => exact Nat.zero_le _
  | append_singleton gpus gpu ih =>
    obtain ⟨hgpus, _, hlast⟩ := List.pairwise_append.mp h
    rw [asked, byIndex_concat, vramOn_concat, GoMap.weightAt_insert]
    by_cases hi : gpu.index = i
    · subst hi
      rw [if_pos rfl, if_pos rfl, vramOn_eq_zero fun g hg hidx => hlast g hg gpu (.head _) hidx]
      omega
    have hne : i ≠ gpu.index := fun heq => hi heq.symm
    rw [if_neg hi, if_neg hne]
    exact ih hgpus

section Loop

variable {req : GoMap Int GPU} {gpu : GPU} {gpus : List GPU}

theorem subtractLoop_cons (req : GoMap Int GPU) (gpu : GPU) (gpus : List GPU) :
    let tail : Subtracted κ (List GPU) := GPUs.subtractLoop req gpus
    (∃ e, GPUs.subtractLoop (κ := κ) req (gpu :: gpus) = (gpu :: gpus, .error e)) ∨
      ∃ vram, vram.toNat + asked req gpu.index = gpu.vram.toNat ∧
        GPUs.subtractLoop req (gpu :: gpus) = ({ gpu with vram := vram } :: tail.1, tail.2) := by
  rw [GPUs.subtractLoop]
  split
  · next hnone =>
    refine .inr ⟨gpu.vram, ?_, rfl⟩
    simp [asked, GoMap.weightAt, hnone]
  rename_i other hother
  have hasked : asked req gpu.index = other.vram.toNat := GoMap.weightAt_of_lookup hother
  cases hsub : subtractSize (κ := κ) .vram gpu.vram other.vram with
  | mk vram r =>
    cases r with
    | error e =>
      have hsame : vram = gpu.vram := by
        unfold subtractSize at hsub
        split at hsub
        · exact (congrArg Prod.fst hsub).symm
        · simp at hsub
      simp only [GPU.subtract, hsub, hsame]
      exact .inl ⟨_, rfl⟩
    | ok u =>
      refine .inr ⟨vram, ?_, by simp [GPU.subtract, hsub]⟩
      have hok := subtractSize_ok (congrArg Prod.snd hsub)
      rw [hsub] at hok
      rw [hasked]
      exact hok

theorem subtractLoop_index (req : GoMap Int GPU) (gpus : List GPU) :
    (GPUs.subtractLoop req gpus : Subtracted κ (List GPU)).1.map GPU.index =
      gpus.map GPU.index := by
  induction gpus with
  | nil => rfl
  | cons gpu gpus ih =>
    rcases subtractLoop_cons req gpu gpus with ⟨e, heq⟩ | ⟨vram, _, heq⟩
    · rw [heq]
    · rw [heq, List.map_cons, List.map_cons, ih]

theorem vramOn_subtractLoop_le (req : GoMap Int GPU) (gpus : List GPU) (i : Int) :
    vramOn i (GPUs.subtractLoop req gpus : Subtracted κ (List GPU)).1 ≤ vramOn i gpus := by
  induction gpus with
  | nil => exact le_refl _
  | cons gpu gpus ih =>
    rcases subtractLoop_cons req gpu gpus with ⟨e, heq⟩ | ⟨vram, hvram, heq⟩
    · rw [heq]
    rw [heq, vramOn_cons, vramOn_cons]
    dsimp only
    split <;> omega

theorem vramOn_subtractLoop_ok
    (hok : (GPUs.subtractLoop req gpus : Subtracted κ (List GPU)).2 = .ok ()) {i}
    (hi : i ∈ gpus.map GPU.index) :
    vramOn i (GPUs.subtractLoop req gpus : Subtracted κ (List GPU)).1 + asked req i ≤
      vramOn i gpus := by
  induction gpus with
  | nil => simp at hi
  | cons gpu gpus ih =>
    rcases subtractLoop_cons (κ := κ) req gpu gpus with ⟨e, heq⟩ | ⟨vram, hvram, heq⟩
    · simp [heq] at hok
    rw [heq] at hok ⊢
    rw [vramOn_cons, vramOn_cons]
    dsimp only at hok ⊢
    by_cases hgpu : gpu.index = i
    · -- The rest may hold the index once more; it loses memory there too.
      have hrest := vramOn_subtractLoop_le (κ := κ) req gpus i
      rw [if_pos hgpu, if_pos hgpu]
      rw [hgpu] at hvram
      omega
    have hrest : i ∈ gpus.map GPU.index := by
      rcases List.mem_cons.mp hi with heq' | hmem
      · exact absurd heq'.symm hgpu
      · exact hmem
    have hih := ih hok hrest
    rw [if_neg hgpu]
    omega

end Loop

section Resources

variable [Cores κ] {r other : Resources κ}

theorem Resources.subtract_index (r other : Resources κ) :
    (r.subtract other).1.gpus.map GPU.index = r.gpus.map GPU.index := by
  rcases subtract_cases r other with ⟨r', e, heq, hgpus | hgpus⟩ | ⟨ram, disk, _, _, _, heq⟩
  · rw [heq, hgpus]
  · rw [heq, hgpus]
    exact subtractLoop_index _ _
  · rw [heq]
    exact subtractLoop_index _ _

theorem Resources.vramOn_subtract_le (r other : Resources κ) (i : Int) :
    vramOn i (r.subtract other).1.gpus ≤ vramOn i r.gpus := by
  rcases subtract_cases r other with ⟨r', e, heq, hgpus | hgpus⟩ | ⟨ram, disk, _, _, _, heq⟩
  · rw [heq, hgpus]
  · rw [heq, hgpus]
    exact vramOn_subtractLoop_le _ _ i
  · rw [heq]
    exact vramOn_subtractLoop_le _ _ i

theorem Resources.vramOn_subtract_ok (hok : (r.subtract other).2 = .ok ()) {i}
    (hi : i ∈ r.gpus.map GPU.index) :
    vramOn i (r.subtract other).1.gpus + asked (GPUs.byIndex other.gpus) i ≤ vramOn i r.gpus := by
  rcases subtract_cases r other with ⟨r', e, heq, _⟩ | ⟨ram, disk, _, _, hgpus, heq⟩
  · simp [heq] at hok
  · rw [heq]
    exact vramOn_subtractLoop_ok hgpus hi

end Resources

end DMS.Types

namespace DMS.Resources

open DMS.Types

variable {κ : Type}

def vram (i : Int) (r : Resources κ) : Nat := vramOn i r.gpus

section Check

variable [Cores κ] {o total committed r : Resources κ}

def Shrunk (o r : Resources κ) : Prop :=
  r.gpus.map GPU.index = o.gpus.map GPU.index ∧ ∀ i, vramOn i r.gpus ≤ vramOn i o.gpus

theorem Shrunk.subtract {r} (h : Shrunk o r) (other : Resources κ) :
    Shrunk o (r.subtract other).1 :=
  ⟨(r.subtract_index other).trans h.1, fun i => le_trans (r.vramOn_subtract_le other i) (h.2 i)⟩

theorem assess_gpus (o total committed r : Resources κ) :
    (assess o total committed r).1.gpus.map GPU.index = o.gpus.map GPU.index ∧
      (∀ i, vramOn i (assess o total committed r).1.gpus ≤ vramOn i o.gpus) ∧
      ((assess o total committed r).2 = .ok () → ∀ i ∈ o.gpus.map GPU.index,
        vramOn i (assess o total committed r).1.gpus +
          asked (GPUs.byIndex r.gpus) i ≤ vramOn i o.gpus) := by
  have hfree : Shrunk o (freeOf o total committed).1 :=
    freeOf_invariant ⟨rfl, fun _ => le_refl _⟩ (fun _ h => h.subtract _) fun _ h => h.subtract _
  have hshrunk : Shrunk o (assess o total committed r).1 :=
    assess_invariant ⟨rfl, fun _ => le_refl _⟩ (fun _ h => h.subtract _) (fun _ h => h.subtract _)
      fun _ h => h.subtract _
  refine ⟨hshrunk.1, hshrunk.2, ?_⟩
  unfold assess
  split
  · simp
  rename_i free u heq
  rw [heq] at hfree
  split
  · simp
  rename_i left u' hleft
  intro _ i hi
  rw [← hfree.1] at hi
  have hok := Resources.vramOn_subtract_ok (congrArg Prod.snd hleft) hi
  rw [hleft] at hok
  exact le_trans hok (hfree.2 i)

end Check

def Store.remaining (onboarded : Resources κ) (s : Store κ) : List GPU :=
  (s.onboardedResources.getD onboarded).gpus

def Request.Accountable (onboarded : Resources κ) : Request κ → Prop
  | .commit c => Separate onboarded.gpus c.resources.gpus
  | _ => True

/-- The stores that accountable requests reach one after another. -/
def Store.AccountableRun [Cores κ] (onboarded : Resources κ) : Store κ → Prop :=
  Reach (Store.Initial onboarded)
    (fun _ (step : Call κ × Request κ) =>
      step.1.Finds onboarded ∧ step.2.Accountable onboarded)
    fun s step => (s.exec step.1 step.2).1

/-- What the maps hold and what is left to subtract from are parts of what is
onboarded. -/
structure Store.GpusWithin (onboarded : Resources κ) (s : Store κ) : Prop where
  keyed : s.Keyed
  index : (s.remaining onboarded).map GPU.index = onboarded.gpus.map GPU.index
  held_le : ∀ i, s.held (vram i) + vramOn i (s.remaining onboarded) ≤ vramOn i onboarded.gpus

section Runs

variable [Cores κ] {ob : Resources κ} {s : Store κ} {call : Call κ}

omit [Cores κ] in
theorem Store.Initial.gpusWithin (h : Store.Initial ob s) : s.GpusWithin ob := by
  rcases h with rfl | rfl
  · exact ⟨⟨by simp [Store.new], by simp [Store.new]⟩, rfl, fun i => le_of_eq (Nat.zero_add _)⟩
  · exact ⟨⟨by simp [Store.new], by simp [Store.new]⟩, rfl, fun i => le_of_eq (Nat.zero_add _)⟩

omit [Cores κ] in
theorem Store.Onboards.remaining (hcall : call.Finds ob) {o}
    (ho : s.Onboards call.get o) : s.remaining ob = o.gpus := by
  unfold Store.remaining
  rcases ho with hstored | ⟨hnone, hget⟩
  · rw [hstored]
    rfl
  · rw [hnone, hcall o hget]
    rfl

theorem remaining_checkCapacity (hcall : call.Finds ob) (r : Resources κ) :
    ((s.checkCapacity call r).1.remaining ob).map GPU.index = (s.remaining ob).map GPU.index ∧
      (∀ i, vramOn i ((s.checkCapacity call r).1.remaining ob) ≤ vramOn i (s.remaining ob)) ∧
      ((s.checkCapacity call r).2 = .ok () → ∀ i ∈ (s.remaining ob).map GPU.index,
        vramOn i ((s.checkCapacity call r).1.remaining ob) +
          asked (GPUs.byIndex r.gpus) i ≤ vramOn i (s.remaining ob)) := by
  rcases checkCapacity_cases s call r with ⟨e, he⟩ | ⟨o, ho, heq⟩
  · rw [he]
    exact ⟨rfl, fun i => le_refl _, by simp⟩
  · rw [heq, ho.remaining hcall]
    exact assess_gpus o _ _ r

section GpusWithin

variable (h : s.GpusWithin ob) (hcall : call.Finds ob)

include h hcall

theorem Store.GpusWithin.checkCapacity (r : Resources κ) :
    (s.checkCapacity call r).1.GpusWithin ob := by
  obtain ⟨hindex, hle, _⟩ := remaining_checkCapacity hcall r
  refine ⟨h.keyed.checkCapacity r, hindex.trans h.index, ?_⟩
  intro i
  rw [held_checkCapacity]
  exact le_trans (Nat.add_le_add_left (hle i) _) (h.held_le i)

theorem Store.GpusWithin.commit {c : CommittedResources κ}
    (hfresh : c.allocationID ∉ s.committedResources)
    (hok : (s.checkCapacity call c.resources).2 = .ok ())
    (hsep : Separate ob.gpus c.resources.gpus) :
    ((s.checkCapacity call c.resources).1.commit c).GpusWithin ob := by
  have hchecked := h.checkCapacity hcall c.resources
  refine ⟨hchecked.keyed.commit c, hchecked.index, ?_⟩
  intro i
  obtain ⟨store, heq⟩ := checkCapacity_maps s call c.resources
  have hheld : ((s.checkCapacity call c.resources).1.commit c).held (vram i) =
      s.held (vram i) + vram i c.resources := by
    rw [heq]
    exact held_commit hfresh
  have hasked := vramOn_le_asked hsep.last i
  have hwithin := h.held_le i
  obtain ⟨_, hle, htaken⟩ := remaining_checkCapacity hcall c.resources
  rw [hheld]
  change _ + vramOn i ((s.checkCapacity call c.resources).1.remaining ob) ≤ _
  unfold vram at hwithin ⊢
  by_cases hi : i ∈ ob.gpus.map GPU.index
  · have htaken' := htaken hok i (h.index ▸ hi)
    omega
  -- Nothing is asked for on an index that is not onboarded.
  have hzero : vramOn i c.resources.gpus = 0 := by
    apply vramOn_eq_zero
    intro gpu hgpu hindex
    by_contra hne
    exact hi (hindex ▸ hsep.onboarded gpu hgpu hne)
  have hle' := hle i
  omega

theorem Store.GpusWithin.exec {req : Request κ} (hreq : req.Accountable ob) :
    (s.exec call req).1.GpusWithin ob := by
  have heff := exec_effect s call req
  generalize (s.exec call req).1 = s' at heff
  have hkeyed := h.keyed.effect heff
  cases heff with
  | refused => exact h
  | checked c => exact h.checkCapacity hcall c.resources
  | committed c hfresh hfits => exact h.commit hcall hfresh hfits hreq
  | uncommitted id =>
    exact ⟨hkeyed, h.index, fun i => le_trans (Nat.add_le_add_right held_clear_le _) (h.held_le i)⟩
  | allocated id c hc hfresh =>
    rw [h.keyed.committed id c hc] at hfresh
    refine ⟨hkeyed, h.index, fun i => ?_⟩
    rw [held_move hc hfresh]
    exact h.held_le i
  | deallocated id =>
    exact ⟨hkeyed, h.index, fun i => le_trans (Nat.add_le_add_right held_drop_le _) (h.held_le i)⟩

end GpusWithin

theorem Store.AccountableRun.gpusWithin (h : Store.AccountableRun ob s) : s.GpusWithin ob :=
  h.invariant (Store.GpusWithin ob) (fun _ hs => hs.gpusWithin)
    fun _ _ hs hstep => hs.exec hstep.1 hstep.2

end Runs

/-- While every commitment names onboarded GPUs and each of them once, the memory that
is committed and allocated on an index is at most what is onboarded there. -/
theorem vram_within_onboarded [Cores κ] {onboarded : Resources κ} {s : Store κ}
    (h : Store.AccountableRun onboarded s) (i : Int) :
    s.held (fun r => vramOn i r.gpus) ≤ vramOn i onboarded.gpus := by
  have hwithin := h.gpusWithin.held_le i
  exact le_trans (Nat.le_add_right _ _) hwithin

theorem vram_within_onboarded_two :
    (afterRequests [sampleCommit "a" 1 [⟨0, "", 9⟩], sampleCommit "b" 1 [⟨1, "", 40⟩]]).held
      (fun r => vramOn 1 r.gpus) ≤ 40 := by
  have hinit : Store.AccountableRun sampleOnboarded .new := .init (.inl rfl)
  have hfirst := hinit.step (sampleCall, sampleCommit "a" 1 [⟨0, "", 9⟩])
    ⟨sampleCall_finds, ⟨by decide, by decide⟩⟩
  have hsecond := hfirst.step (sampleCall, sampleCommit "b" 1 [⟨1, "", 40⟩])
    ⟨sampleCall_finds, ⟨by decide, by decide⟩⟩
  exact vram_within_onboarded hsecond 1

/-- A GPU that is not onboarded is committed all the same, and one that is named twice
is committed twice. -/
theorem unknown_gpu_committed : let unknown := sampleCommit "a" 1 [⟨7, "", 5⟩]
    let repeated := sampleCommit "a" 1 [⟨1, "", 40⟩, ⟨1, "", 40⟩]
    (Store.new.exec sampleCall unknown).2 = .ok () ∧
      (afterRequests [unknown]).held (fun r => vramOn 7 r.gpus) = 5 ∧
      vramOn 7 sampleOnboarded.gpus = 0 ∧
    (Store.new.exec sampleCall repeated).2 = .ok () ∧
      (afterRequests [repeated]).held (fun r => vramOn 1 r.gpus) = 80 ∧
      vramOn 1 sampleOnboarded.gpus = 40 :=
  ⟨by rfl, by decide, by decide, by rfl, by decide, by decide⟩

end DMS.Resources
