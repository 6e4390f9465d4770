import DMS.Orchestrator.BidBook
import DMS.Orchestrator.Permutations

/-! # Replies that crash a round

The steps of a round that read the body of a bid, draw a number below the length of a list or index
one. `collectBids` logs what a reply says before it is validated, so a reply without a body panics.
-/

namespace DMS.Orchestrator

open Jobs List

/-- A reply has no body when its JSON has no `V1`. -/
inductive RoundStep
  | reply (body : Option Bid)
  | residual (r : Residual)
  | candidates (order : RangeOrder) (shuffle : GoString → RangeOrder) (draws : Nat → Option Nat)
      (left : Nat)

def roundStep (c : Coordinator) (cfg : EnsembleConfig) (targets : GoMap GoString GoString)
    (s : Collected) : RoundStep → Option Collected
  | .reply body => body.map fun bid => receive c cfg targets bid s
  | .residual r => dropBids r (r.order.visit s.bidMap.keys) s
  | .candidates order shuffle draws left =>
    match makeCandidateDeployments order shuffle cfg s.bidMap with
    | none => some s
    | some g => (nextCandidate c cfg draws g left).map fun _ => s

structure Collected.Listed (s : Collected) : Prop where
  bids : ∀ n ∈ s.bidMap, s.bidMap.list n ≠ []
  named : ∀ n, ∀ bid ∈ s.bidMap.list n, bid.nodeID = n

variable {c : Coordinator} {cfg : EnsembleConfig} {targets : GoMap GoString GoString}
  {s : Collected} {bid : Bid} {n : GoString}

theorem Collected.Listed.receive (h : s.Listed) : (receive c cfg targets bid s).Listed := by
  rcases receive_cases c cfg targets bid s with ⟨_, _, heq⟩ | ⟨_, heq⟩
  · rw [heq]
    exact ⟨GoMap.list_push_ne_nil h.bids _ _, GoMap.forall_list_push h.named rfl⟩
  · rw [heq]
    exact ⟨h.bids, h.named⟩

theorem rmBid_length (bid : Bid) (s : Collected) (m : GoString) : (s.bidMap.list m).length ≤
      ((rmBid bid s).bidMap.list m).length + if m = bid.nodeID then 1 else 0 := by
  unfold rmBid
  dsimp only
  split
  · exact Nat.le_add_right ..
  rw [GoMap.list_insert]
  split
  · next heq =>
    rw [heq, length_eraseIdx]
    split <;> omega
  · exact Nat.le_refl _

theorem dropLoop_length (size fuel i : Nat) {backing}
    (h : ∀ m, ∀ b ∈ s.bidMap.list m, b.nodeID = m) (hbacking : ∀ b ∈ backing, b.nodeID = n) :
    s.Shrinks (dropLoop n size fuel i backing s) ∧ ∀ m, (s.bidMap.list m).length ≤
      ((dropLoop n size fuel i backing s).bidMap.list m).length +
        if m = n then fuel - (size + 1 - i) else 0 := by
  induction fuel generalizing i backing s with
  | zero => exact ⟨.refl s, fun m => Nat.le_add_right ..⟩
  | succ fuel ih =>
    unfold dropLoop
    split
    · exact ⟨.refl s, fun m => Nat.le_add_right ..⟩
    rename_i bid hbid
    split
    · have hs := rmBid_shrinks bid s
      have hname := hbacking bid (mem_of_getElem? hbid)
      have hnamed : ∀ m, ∀ b ∈ (rmBid bid s).bidMap.list m, b.nodeID = m :=
        fun m b hb => h m b ((hs.subperm m).subset hb)
      have hrest : ∀ b ∈ overwrite ((rmBid bid s).bidMap.list n) backing, b.nodeID = n := by
        intro b hb
        rcases mem_append.mp hb with hb | hb
        · exact hnamed n b hb
        · exact hbacking b (mem_of_mem_drop hb)
      obtain ⟨hshrinks, hlength⟩ := ih (i + 1) hnamed hrest
      refine ⟨hs.trans hshrinks, fun m => ?_⟩
      have hfirst := rmBid_length bid s m
      have hlast := hlength m
      rw [hname] at hfirst
      by_cases hm : m = n
      · rw [if_pos hm] at hfirst hlast ⊢
        omega
      · rw [if_neg hm] at hfirst hlast ⊢
        omega
    obtain ⟨hshrinks, hlength⟩ := ih (i + 1) h hbacking
    refine ⟨hshrinks, fun m => (hlength m).trans ?_⟩
    split <;> omega

theorem dropBids_listed (r : Residual) (keys : List GoString) (h : s.Listed)
    (hkeys : ∀ n ∈ keys, n ∈ s.bidMap) : ∃ s', dropBids r keys s = some s' ∧ s'.Listed := by
  induction keys generalizing s with
  | nil => exact ⟨s, rfl, h⟩
  | cons n keys ih =>
    have hne := h.bids n (hkeys n (.head _))
    have hperm := (r.shuffle n).perm (s.bidMap.list n)
    have hs := shuffle_shrinks hperm hne
    obtain ⟨hdrop, hlength⟩ := dropLoop_length ((r.intn n % (s.bidMap.list n).length) / 2)
      (s.bidMap.list n).length 0 (fun m b hb => h.named m b ((hs.subperm m).subset hb))
      (fun b hb => h.named n b (hperm.mem_iff.mp hb))
    have hall := hs.trans hdrop
    rw [dropBids, if_neg hne]
    refine ih ⟨?_, fun m b hb => h.named m b ((hall.subperm m).subset hb)⟩
      fun m hm => (hall.mem m).mpr (hkeys m (.tail _ hm))
    intro m hm hnil
    have hlen := hlength m
    have hpos := length_pos_iff.mpr (h.bids m ((hall.mem m).mp hm))
    rw [hnil, GoMap.list_insert] at hlen
    split at hlen
    · next heq =>
      rw [hperm.length_eq, ← heq, length_nil] at hlen
      omega
    · simp only [length_nil] at hlen
      omega

theorem nextCandidate_returns {g : Generator} (draws : Nat → Option Nat) (left : Nat)
    (h : ∀ index, ∃ cand, getPermutation index g.permutators = some cand) :
    ∃ out, nextCandidate c cfg draws g left = some out := by
  induction left with
  | zero => exact ⟨none, rfl⟩
  | succ left ih =>
    unfold nextCandidate
    split
    · exact ⟨none, rfl⟩
    rename_i index _
    obtain ⟨cand, hcandidate⟩ := h index
    rw [hcandidate]
    dsimp only
    split
    · exact ⟨_, rfl⟩
    · exact ih

theorem roundStep_listed (h : s.Listed) {step} (hbody : step ≠ .reply none) :
    ∃ s', roundStep c cfg targets s step = some s' ∧ s'.Listed := by
  cases step with
  | reply body =>
    cases body with
    | none => exact absurd rfl hbody
    | some bid => exact ⟨_, rfl, h.receive⟩
  | residual r => exact dropBids_listed r _ h fun n hn => r.order.mem_visit.mp hn
  | candidates order sh draws left =>
    unfold roundStep
    dsimp only
    split
    · exact ⟨s, rfl, h⟩
    rename_i g hg
    have hreturns : ∃ out, nextCandidate c cfg draws g left = some out :=
      nextCandidate_returns draws left fun index =>
        (generator_chosen h.bids hg index).imp fun _ hcandidate => hcandidate.1
    obtain ⟨out, hout⟩ := hreturns
    exact ⟨s, by rw [hout]; rfl, h⟩

/-- The steps of a round go through exactly when every reply has a body. -/
theorem round_returns_iff (h : s.Listed) (steps : List RoundStep) :
    (steps.foldlM (roundStep c cfg targets) s).isSome = true ↔ .reply none ∉ steps := by
  induction steps generalizing s with
  | nil => simp
  | cons step rest ih =>
    rw [foldlM_cons]
    by_cases hbody : step = .reply none
    · subst hbody
      simp [roundStep]
    obtain ⟨s', heq, hlisted⟩ := roundStep_listed h hbody
    rw [heq, mem_cons, not_or, and_iff_right (Ne.symm hbody)]
    exact ih hlisted

def sampleReplies (steps : List RoundStep) : Option Collected :=
  let cfg := sampleEnsemble [("a", "", 0)] []
  steps.foldlM (roundStep sampleCoordinator cfg ∅) (opening ∅ cfg ∅)

theorem round_returns_one : (sampleReplies [.reply (some (sampleBid "a" "p")),
    .residual sampleResidual]).isSome = true := by
  refine (round_returns_iff ⟨exclude_listed _ (by simp), fun n bid hbid => ?_⟩ _).mpr ?_
  · cases (mem_opening_list hbid).1
  simp

theorem round_crashes : sampleReplies [.reply none] = none := rfl

end DMS.Orchestrator
