import DMS.Resources.Sections
import Mathlib.Data.Fintype.Basic

/-! # Memory is handed out twice by calls that run at the same time

A commitment sums up the allocated resources first and the committed ones later, and misses an
entry that is moved over in between; and the entry that `AllocateResources` has read can be
uncommitted before it is stored.
-/

namespace DMS.Resources

open DMS.Types Store GoMap CommitSection Option

variable {κ ι : Type}

def AllocSection.moving : AllocSection κ → Option GoString
  | .clear allocationID => some allocationID
  | _ => none

/-- The store without the committed entry that is being moved, which is there twice. -/
def Store.settle (moving : Option GoString) (s : Store κ) : Store κ := moving.elim s s.clear

namespace Pool

def moving (d : Pool ι κ) : Option GoString := d.allocationLock.bind fun x => x.2.moving

def settled (d : Pool ι κ) : Store κ := d.store.settle d.moving

/-- An entry is not taken out of the committed ones while a commitment is between its
two readings, unless the first of these has counted it. -/
def Counted (d : Pool ι κ) : Prop :=
  match d.moving, d.committedLock with
  | some id, some (_, .readCommitted _ _ counted _) =>
    counted.lookup id = d.store.allocations.lookup id
  | _, _ => True

def Present (d : Pool ι κ) : Prop :=
  match d.allocationLock with
  | some (_, .store id c) => d.store.committedResources.lookup id = some c
  | _ => True

theorem Counted.lookup {d : Pool ι κ} (h : d.Counted) {id} (hid : id ∈ d.moving)
    {i c o total counted}
    (hlock : d.committedLock = some (i, .readCommitted c o counted total)) :
    counted.lookup id = d.store.allocations.lookup id := by
  simpa only [Counted, mem_def.mp hid, hlock] using h

theorem Present.lookup {d : Pool ι κ} (h : d.Present) {i id c}
    (hlock : d.allocationLock = some (i, .store id c)) :
    d.store.committedResources.lookup id = some c := by
  simpa only [Present, hlock] using h

instance [DecidableEq κ] (d : Pool ι κ) : Decidable d.Counted := by
  unfold Counted
  split <;> infer_instance

instance [DecidableEq κ] (d : Pool ι κ) : Decidable d.Present := by
  unfold Present
  split <;> infer_instance

/-- The onboarded resources do not change, and a call under `allocationLock` moves an
entry only when no other call overlooks that. -/
def Orderly (onboarded : Resources κ) (d : Pool ι κ) : Turn ι κ → Prop
  | .outside _ => True
  | .committed call => call.Finds onboarded
  | .allocation call => d.Counted ∧ (call.create = .ok () → d.Present)

variable [DecidableEq ι] [Cores κ]

def Interleaving (requests : ι → Request κ) (start : Store κ) (guard : Pool ι κ → Turn ι κ → Prop) :
    Pool ι κ → Prop :=
  Reach (fun d => d = launch requests start) guard step

end Pool

abbrev ram : Resources κ → Nat := bytes .ram

/-- The books of the store while the committed entry of `moving` is being cleared. -/
structure Store.Accounts (onboarded : Resources κ) (moving : Option GoString) (s : Store κ) :
    Prop where
  keyed : s.Keyed
  size : ∀ o, s.onboardedResources = some o → ram o = ram onboarded
  committed_le : s.committedResources.total (fun c => ram c.resources) ≤ ram onboarded
  held_le : (s.settle moving).held ram ≤ ram onboarded

/-- What a position under `committedLock` relies on. -/
def CommitSection.Safe (onboarded : Resources κ) (moving : Option GoString) (s : Store κ) :
    CommitSection κ → Prop
  | .readAllocations _ o => ram o = ram onboarded
  | .readCommitted _ o counted total =>
    ram o = ram onboarded ∧ ram total = counted.total (fun a => ram a.resources) ∧
      ∀ id, s.allocations.weightAt (fun a => ram a.resources) id ≤
          counted.weightAt (fun a => ram a.resources) id ∨
        moving = some id ∧ s.allocations.weightAt (fun a => ram a.resources) id ≤
          s.committedResources.weightAt (fun c => ram c.resources) id
  | .insert c =>
    (s.settle moving).held ram + ram c.resources ≤ ram onboarded ∧
      s.committedResources.total (fun c => ram c.resources) + ram c.resources ≤ ram onboarded
  | _ => True

/-- What a position under `allocationLock` relies on. -/
def AllocSection.Safe (s : Store κ) : AllocSection κ → Prop
  | .findAllocated id c => c.allocationID = id
  | .store id c => c.allocationID = id ∧ id ∉ s.allocations
  | _ => True

section Settle

variable {s : Store κ} {w : Resources κ → Nat} {moving : Option GoString}

def Store.weightOf (w : Resources κ → Nat) (moving : Option GoString) (s : Store κ) : Nat :=
  moving.elim 0 fun id => s.committedResources.weightAt (fun c => w c.resources) id

theorem held_settle (s : Store κ) (w : Resources κ → Nat) (moving : Option GoString) :
    (s.settle moving).held w + s.weightOf w moving = s.held w := by
  cases moving with
  | none => rfl
  | some id =>
    have h := total_erase (fun c => w c.resources) s.committedResources id
    simp only [settle, weightOf, elim_some, held, clear]
    omega

theorem allocations_le_held_settle :
    (s.allocations.total fun a => w a.resources) ≤ (s.settle moving).held w := by
  cases moving <;> exact Nat.le_add_left _ _

theorem held_settle_clear_le (id : GoString) :
    ((s.clear id).settle moving).held w ≤ (s.settle moving).held w := by
  have hbefore := held_settle s w moving
  have hafter := held_settle (s.clear id) w moving
  have herase := total_erase (fun c => w c.resources) s.committedResources id
  have hweight : (s.clear id).weightOf w moving =
      if moving = some id then 0 else s.weightOf w moving := by
    cases moving with
    | none => rfl
    | some id' => simp [weightOf, clear, weightAt_erase]
  rw [hweight] at hafter
  simp only [held, clear] at hbefore hafter ⊢
  split at hafter
  · next heq =>
    subst heq
    simp only [weightOf, elim_some] at hbefore
    omega
  · omega

theorem held_settle_commit_le (c : CommittedResources κ) :
    ((s.commit c).settle moving).held w ≤ (s.settle moving).held w + w c.resources := by
  have hbefore := held_settle s w moving
  have hafter := held_settle (s.commit c) w moving
  have herase := total_erase (fun c => w c.resources) s.committedResources c.allocationID
  have hinsert := total_insert (fun c => w c.resources) s.committedResources c.allocationID c
  have hweight : (s.commit c).weightOf w moving =
      if moving = some c.allocationID then w c.resources else s.weightOf w moving := by
    cases moving with
    | none => rfl
    | some id' => simp [weightOf, commit, weightAt_insert]
  rw [hweight] at hafter
  simp only [held, commit] at hbefore hafter hinsert ⊢
  split at hafter
  · next heq =>
    subst heq
    simp only [weightOf, elim_some] at hbefore
    omega
  · omega

end Settle

section Commit

variable [Cores κ] {ob : Resources κ} {moving : Option GoString} {s : Store κ}
  {call : Call κ}

omit [Cores κ] in
theorem Store.Accounts.onboard (h : s.Accounts ob moving) {o}
    (ho : ∀ r, o = some r → ram r = ram ob) :
    { s with onboardedResources := o }.Accounts ob moving where
  keyed := ⟨h.keyed.committed, h.keyed.allocated⟩
  size := ho
  committed_le := h.committed_le
  held_le := by
    have hle := h.held_le
    cases moving <;> exact hle

omit [Cores κ] in
theorem Store.Accounts.shareGPUs (h : s.Accounts ob moving) (gpus : List GPU) :
    (s.shareGPUs gpus).Accounts ob moving := by
  apply h.onboard
  intro r hr
  obtain ⟨o, ho, rfl⟩ := map_eq_some_iff.mp hr
  exact h.size o ho

omit [Cores κ] in
theorem Store.Accounts.clear (h : s.Accounts ob moving) (id : GoString) :
    (s.clear id).Accounts ob moving where
  keyed := h.keyed.clear
  size := h.size
  committed_le := le_trans (GoMap.total_erase_le _ _ id) h.committed_le
  held_le := le_trans (held_settle_clear_le id) h.held_le

omit [Cores κ] in
theorem held_settle_le_counted {counted : GoMap GoString (ResourceAllocation κ)}
    (h : ∀ id, s.allocations.weightAt (fun a => ram a.resources) id ≤
        counted.weightAt (fun a => ram a.resources) id ∨
      moving = some id ∧ s.allocations.weightAt (fun a => ram a.resources) id ≤
        s.committedResources.weightAt (fun c => ram c.resources) id) :
    (s.settle moving).held ram ≤ counted.total (fun a => ram a.resources) +
      s.committedResources.total (fun c => ram c.resources) := by
  have hsettle := held_settle s ram moving
  by_cases hall : ∀ id, s.allocations.weightAt (fun a => ram a.resources) id ≤
      counted.weightAt (fun a => ram a.resources) id
  · have hle := total_le_total _ counted hall
    simp only [held] at hsettle ⊢
    omega
  obtain ⟨id, hid⟩ := not_forall.mp hall
  obtain ⟨rfl, hcommitted⟩ := (h id).resolve_left hid
  -- All other entries were counted; the one that is moved is the committed one.
  have hrest : total (fun a => ram a.resources) (s.allocations.erase id) ≤
      counted.total (fun a => ram a.resources) := by
    apply total_le_total
    intro id'
    rw [weightAt_erase]
    split
    · exact Nat.zero_le _
    rename_i hne
    refine (h id').resolve_right ?_
    intro hmoving
    exact hne (some.inj hmoving.1).symm
  have herase := total_erase (fun a => ram a.resources) s.allocations id
  simp only [held, weightOf, elim_some] at hsettle ⊢
  omega

theorem Store.Accounts.commitTurn (h : s.Accounts ob moving) {sec : CommitSection κ}
    (hsafe : sec.Safe ob moving s) (hcall : call.Finds ob) :
    (sec.advance call s).2.Accounts ob moving ∧
      (sec.advance call s).1.Safe ob moving (sec.advance call s).2 ∧
      (sec.advance call s).2.allocations = s.allocations := by
  cases sec with
  | readOnboarded c =>
    simp only [advance]
    split
    · next o ho => exact ⟨h, h.size o ho, rfl⟩
    · exact ⟨h, trivial, rfl⟩
  | fetchOnboarded c =>
    simp only [advance]
    split
    · exact ⟨h, trivial, rfl⟩
    rename_i o ho
    have heq := hcall o ho
    refine ⟨h.onboard ?_, congrArg ram heq, rfl⟩
    intro r hr
    rw [← some.inj hr, heq]
  | readAllocations c o =>
    refine ⟨h, ⟨hsafe, ?_, fun id => .inl (le_refl _)⟩, rfl⟩
    have hle := le_trans allocations_le_held_settle h.held_le
    exact foldl_visit_size _ _ call.order hle
  | readCommitted c o counted total =>
    obtain ⟨ho, htotal, hcounted⟩ := hsafe
    have hsum : ram (s.getTotalCommitted call.order) =
        s.committedResources.total fun c => ram c.resources :=
      foldl_visit_size _ _ call.order h.committed_le
    simp only [advance]
    split
    · exact ⟨h.shareGPUs _, trivial, rfl⟩
    rename_i free u hassess
    have hroom := assess_ok (congrArg Prod.snd hassess) .ram
    have hheld := held_settle_le_counted hcounted
    change ram c.resources + ram _ + ram total ≤ ram o at hroom
    refine ⟨h.shareGPUs _, ⟨?_, ?_⟩, rfl⟩
    · have hsame : ((s.shareGPUs free.gpus).settle moving).held ram =
          (s.settle moving).held ram := by cases moving <;> rfl
      rw [hsame]
      omega
    · change s.committedResources.total _ + _ ≤ _
      omega
  | insert c =>
    obtain ⟨hheld, hcommitted⟩ := hsafe
    refine ⟨⟨h.keyed.commit c, h.size, ?_, le_trans (held_settle_commit_le c) hheld⟩, trivial, rfl⟩
    have herase := total_erase_le (fun c => ram c.resources) s.committedResources c.allocationID
    have hinsert := total_insert (fun c => ram c.resources) s.committedResources c.allocationID c
    change total _ (s.committedResources.insert c.allocationID c) ≤ _
    omega
  | findCommitted id =>
    simp only [advance]
    split <;> exact ⟨h, trivial, rfl⟩
  | erase id => exact ⟨h.clear id, trivial, rfl⟩
  | leave result => exact ⟨h, trivial, rfl⟩

end Commit

section Allocate

variable {ob : Resources κ} {s : Store κ} {call : Call κ} {other : CommitSection κ}

theorem CommitSection.Safe.allocate {id c} (hother : other.Safe ob none s)
    (hc : s.committedResources.lookup id = some c) (hfresh : id ∉ s.allocations) :
    other.Safe ob (some id) (s.allocate ⟨id, c.resources⟩) := by
  have hheld : ((s.allocate ⟨id, c.resources⟩).settle (some id)).held ram =
      (s.settle none).held ram := held_move hc hfresh
  cases other with
  | readCommitted c' o counted total =>
    refine ⟨hother.1, hother.2.1, ?_⟩
    intro id'
    by_cases hid : id' = id
    · subst hid
      refine .inr ⟨rfl, ?_⟩
      simp only [allocate, weightAt_insert, if_pos, weightAt_of_lookup hc]
      exact le_refl _
    refine .inl ?_
    simp only [allocate, weightAt_insert, if_neg hid]
    exact (hother.2.2 id').resolve_right fun hmoving => by cases hmoving.1
  | insert c' =>
    exact ⟨le_of_eq_of_le (congrArg (· + ram c'.resources) hheld) hother.1, hother.2⟩
  | readAllocations c' o => exact hother
  | readOnboarded | fetchOnboarded | findCommitted | erase | leave => trivial

theorem CommitSection.Safe.clear {id} (hother : other.Safe ob (some id) s)
    (hcounted : ∀ c o counted total, other = .readCommitted c o counted total →
      counted.lookup id = s.allocations.lookup id) : other.Safe ob none (s.clear id) := by
  cases other with
  | readCommitted c o counted total =>
    refine ⟨hother.1, hother.2.1, fun id' => .inl ?_⟩
    rcases hother.2.2 id' with hle | ⟨hmoving, _⟩
    · exact hle
    have hsame := hcounted c o counted total rfl
    rw [← some.inj hmoving]
    simp only [clear, weightAt, hsame]
    exact le_refl _
  | insert c =>
    refine ⟨hother.1, ?_⟩
    exact le_trans (Nat.add_le_add_right (total_erase_le _ _ id) _) hother.2
  | readAllocations c o => exact hother
  | readOnboarded | fetchOnboarded | findCommitted | erase | leave => trivial

theorem CommitSection.Safe.drop (hother : other.Safe ob none s)
    (id : GoString) : other.Safe ob none (s.drop id) := by
  cases other with
  | readCommitted c o counted total =>
    refine ⟨hother.1, hother.2.1, fun id' => .inl ?_⟩
    have hle := (hother.2.2 id').resolve_right fun hmoving => by cases hmoving.1
    simp only [drop, weightAt_erase]
    split
    · exact Nat.zero_le _
    · exact hle
  | insert c =>
    have hdrop : ((s.drop id).settle none).held ram ≤ (s.settle none).held ram := held_drop_le
    exact ⟨le_trans (Nat.add_le_add_right hdrop _) hother.1, hother.2⟩
  | readAllocations c o => exact hother
  | readOnboarded | fetchOnboarded | findCommitted | erase | leave => trivial

/-- A turn under `allocationLock`, and what it means for the call that is under the
other mutex. -/
theorem Store.Accounts.allocTurn {sec : AllocSection κ} (h : s.Accounts ob sec.moving)
    (hsafe : sec.Safe s) (hpresent : call.create = .ok () → ∀ id c, sec = .store id c →
      s.committedResources.lookup id = some c) :
    (sec.advance call s).2.Accounts ob (sec.advance call s).1.moving ∧
      (sec.advance call s).1.Safe (sec.advance call s).2 ∧ ∀ other : CommitSection κ,
        (∀ id ∈ sec.moving, ∀ c o counted total, other = .readCommitted c o counted total →
          counted.lookup id = s.allocations.lookup id) → other.Safe ob sec.moving s →
          other.Safe ob (sec.advance call s).1.moving (sec.advance call s).2 := by
  cases sec with
  | lookUp id =>
    simp only [AllocSection.advance]
    split
    · exact ⟨h, trivial, fun _ _ hother => hother⟩
    · next c hc => exact ⟨h, h.keyed.committed id c hc, fun _ _ hother => hother⟩
  | findAllocated id c =>
    simp only [AllocSection.advance]
    split
    · exact ⟨h, trivial, fun _ _ hother => hother⟩
    · next hfresh => exact ⟨h, ⟨hsafe, hsafe ▸ hfresh⟩, fun _ _ hother => hother⟩
  | store id c =>
    simp only [AllocSection.advance]
    split
    · exact ⟨h, trivial, fun _ _ hother => hother⟩
    rename_i hcreate
    have hc := hpresent hcreate id c rfl
    refine ⟨⟨h.keyed.allocate _, h.size, h.committed_le, ?_⟩, trivial, ?_⟩
    · exact le_of_eq_of_le (held_move hc hsafe.2) h.held_le
    · exact fun _ _ hother => hother.allocate hc hsafe.2
  | clear id =>
    refine ⟨⟨h.keyed.clear, h.size, (h.clear id).committed_le, h.held_le⟩, trivial, ?_⟩
    exact fun _ hcounted hother => hother.clear (hcounted id rfl)
  | findAllocation id =>
    simp only [AllocSection.advance]
    split <;> exact ⟨h, trivial, fun _ _ hother => hother⟩
  | remove id =>
    simp only [AllocSection.advance, deleteAllocation]
    split
    · exact ⟨h, trivial, fun _ _ hother => hother⟩
    split
    · exact ⟨h, trivial, fun _ _ hother => hother⟩
    have hdrop : ((s.drop id).settle none).held ram ≤ (s.settle none).held ram := held_drop_le
    exact ⟨⟨h.keyed.drop, h.size, h.committed_le, le_trans hdrop h.held_le⟩, trivial,
      fun _ _ hother => hother.drop id⟩
  | leave r => exact ⟨h, trivial, fun _ _ hother => hother⟩

end Allocate

/-- The books are in order, and so is what the calls under the mutexes rely on. -/
structure Pool.Sound (onboarded : Resources κ) (d : Pool ι κ) : Prop where
  accounts : d.store.Accounts onboarded d.moving
  committing : ∀ i sec, d.committedLock = some (i, sec) → sec.Safe onboarded d.moving d.store
  allocating : ∀ i sec, d.allocationLock = some (i, sec) → sec.Safe d.store

namespace Pool

variable [DecidableEq ι] {ob : Resources κ} {d : Pool ι κ}

theorem Sound.setStatus (h : d.Sound ob) (i : ι) (st : Status κ) : (d.setStatus i st).Sound ob :=
  ⟨h.accounts, h.committing, h.allocating⟩

theorem Sound.begin (h : d.Sound ob) (i : ι) (req : Request κ) : (d.begin i req).Sound ob := by
  cases req with
  | commit c =>
    simp only [Pool.begin]
    split
    · exact h.setStatus i _
    · split <;> exact h.setStatus i _
  | uncommit | allocate | deallocate => exact h.setStatus i _

theorem Sound.lockCommitted (h : d.Sound ob) (i : ι) {entry : CommitSection κ}
    (hentry : entry.Safe ob d.moving d.store) : (d.lockCommitted i entry).Sound ob := by
  unfold Pool.lockCommitted
  split
  · exact h
  refine ⟨h.accounts, ?_, h.allocating⟩
  intro j sec hsec
  obtain ⟨rfl, rfl⟩ := Prod.mk.inj (some.inj hsec)
  exact hentry

theorem Sound.lockAllocation (h : d.Sound ob) (i : ι) {entry : AllocSection κ}
    (hmoving : entry.moving = none) (hentry : entry.Safe d.store) :
    (d.lockAllocation i entry).Sound ob := by
  unfold Pool.lockAllocation
  split
  · exact h
  rename_i hfree
  have hsame : { d.setStatus i .inside with allocationLock := some (i, entry) }.moving =
      d.moving := by
    simp [moving, hfree, hmoving]
  refine ⟨hsame ▸ h.accounts, ?_, ?_⟩
  · rw [hsame]
    exact h.committing
  intro j sec hsec
  obtain ⟨rfl, rfl⟩ := Prod.mk.inj (some.inj hsec)
  exact hentry

theorem Sound.enter (h : d.Sound ob) (i : ι) (req : Request κ) : (d.enter i req).Sound ob := by
  cases req with
  | commit | uncommit => exact h.lockCommitted i trivial
  | allocate | deallocate => exact h.lockAllocation i rfl trivial

variable [Cores κ]

theorem Sound.committed {call : Call κ} (h : d.Sound ob) (hcall : call.Finds ob) :
    (d.step (.committed call)).Sound ob := by
  simp only [step]
  split
  · exact h
  · next i r hlock =>
    exact ⟨h.accounts, fun _ _ hnone => (some_ne_none _ hnone.symm).elim, h.allocating⟩
  rename_i i sec _ hlock
  obtain ⟨haccounts, hsafe, hsame⟩ := h.accounts.commitTurn (h.committing i sec hlock) hcall
  refine ⟨haccounts, ?_, ?_⟩
  · intro j sec' hsec'
    obtain ⟨rfl, rfl⟩ := Prod.mk.inj (some.inj hsec')
    exact hsafe
  intro j sec' hsec'
  have hbefore := h.allocating j sec' hsec'
  cases sec' with
  | store id c => exact ⟨hbefore.1, hsame ▸ hbefore.2⟩
  | findAllocated id c => exact hbefore
  | lookUp | clear | findAllocation | remove | leave => trivial

theorem Sound.allocation {call : Call κ} (h : d.Sound ob) (hcounted : d.Counted)
    (hpresent : call.create = .ok () → d.Present) : (d.step (.allocation call)).Sound ob := by
  simp only [step]
  split
  · exact h
  · next i r hlock =>
    have hmoving : d.moving = none := by simp [moving, hlock, AllocSection.moving]
    have haccounts := h.accounts
    have hcommitting := h.committing
    rw [hmoving] at haccounts hcommitting
    exact ⟨haccounts, hcommitting, fun _ _ hnone => (some_ne_none _ hnone.symm).elim⟩
  rename_i i sec _ hlock
  have hmoving : d.moving = sec.moving := by simp [moving, hlock]
  have haccounts := h.accounts
  rw [hmoving] at haccounts
  obtain ⟨haccounts', hsafe, hothers⟩ := haccounts.allocTurn (h.allocating i sec hlock) (by
    intro hcreate id c hsec
    exact (hpresent hcreate).lookup (hsec ▸ hlock))
  refine ⟨haccounts', ?_, ?_⟩
  · intro j sec' hsec'
    refine hothers sec' ?_ (hmoving ▸ h.committing j sec' hsec')
    intro id hid c o counted total heq
    exact hcounted.lookup (hmoving ▸ hid) (heq ▸ hsec')
  intro j sec' hsec'
  obtain ⟨rfl, rfl⟩ := Prod.mk.inj (some.inj hsec')
  exact hsafe

theorem Sound.step (h : d.Sound ob) {turn} (hturn : d.Orderly ob turn) :
    (d.step turn).Sound ob := by
  cases turn with
  | outside i =>
    simp only [Pool.step]
    split
    · exact h.begin i _
    · exact h.enter i _
    · exact h
    · exact h
  | committed call => exact h.committed hturn
  | allocation call => exact h.allocation hturn.1 hturn.2

omit [DecidableEq ι] in
theorem launch_sound {requests : ι → Request κ} {start : Store κ}
    (hstart : Store.Run ob start) : (launch requests start).Sound ob := by
  have hwithin := hstart.within
  have hheld := hwithin.held_le .ram
  refine ⟨⟨hwithin.keyed, ?_, le_trans (Nat.le_add_right _ _) hheld, hheld⟩, ?_, ?_⟩
  · intro o ho
    exact congrArg UInt64.toNat (hwithin.sizes o ho .ram)
  · intro i sec hsec
    exact (some_ne_none _ hsec.symm).elim
  · intro i sec hsec
    exact (some_ne_none _ hsec.symm).elim

theorem Interleaving.sound {requests start} (hstart : Store.Run ob start)
    (h : Interleaving requests start (Orderly ob) d) : d.Sound ob :=
  h.invariant (Sound ob) (fun _ hd => hd ▸ launch_sound hstart)
    fun _ _ hd hturn => hd.step hturn

/-- In an orderly interleaving the RAM fits if an entry that is being moved is counted once. -/
theorem Interleaving.settled_le {requests start} (hstart : Store.Run ob start)
    (h : Interleaving requests start (Orderly ob) d) :
    d.settled.held (fun r => r.ram.toNat) ≤ ob.ram.toNat :=
  (h.sound hstart).accounts.held_le

end Pool

/-- In an orderly interleaving the RAM of the committed and the allocated entries fits into the
onboarded RAM whenever no `AllocateResources` is between its two writes. -/
theorem ram_within_onboarded [DecidableEq ι] [Cores κ] {onboarded : Resources κ}
    {requests : ι → Request κ} {start : Store κ} (hstart : Store.Run onboarded start)
    {d : Pool ι κ} (h : Pool.Interleaving requests start (Pool.Orderly onboarded) d)
    (hmoving : d.moving = none) :
    d.store.held (fun r => r.ram.toNat) ≤ onboarded.ram.toNat := by
  have hheld := h.settled_le hstart
  rwa [Pool.settled, hmoving] at hheld

/-- A call outside, or else the call that holds `committedLock` or `allocationLock`. -/
inductive Pick (n : Nat)
  | outside (i : Fin n)
  | committed
  | allocation

def Pick.turn {n : Nat} : Pick n → Turn (Fin n) Hundredths
  | .outside i => .outside i
  | .committed => .committed sampleCall
  | .allocation => .allocation sampleCall

def Pool.take {n : Nat} (d : Pool (Fin n) Hundredths) (pick : Pick n) : Pool (Fin n) Hundredths :=
  d.step pick.turn

def Pool.Tidy {n : Nat} (d : Pool (Fin n) Hundredths) : Pick n → Prop
  | .allocation => d.Counted ∧ d.Present
  | _ => True

instance {n : Nat} (d : Pool (Fin n) Hundredths) : ∀ pick, Decidable (d.Tidy pick)
  | .allocation => inferInstanceAs (Decidable (_ ∧ _))
  | .outside _ | .committed => inferInstanceAs (Decidable True)

def afterTurns {n : Nat} (requests : Fin n → Request Hundredths) (picks : List (Pick n)) :
    Pool (Fin n) Hundredths :=
  picks.foldl Pool.take (.launch requests .new)

theorem interleaving_afterTurns {n} (requests : Fin n → Request Hundredths) (picks : List (Pick n))
    (h : Reach.Passes Pool.Tidy Pool.take (Pool.launch requests .new) picks) :
    Pool.Interleaving requests .new (Pool.Orderly sampleOnboarded) (afterTurns requests picks) := by
  suffices hd : ∀ d, Pool.Interleaving requests .new (Pool.Orderly sampleOnboarded) d →
      Reach.Passes Pool.Tidy Pool.take d picks →
        Pool.Interleaving requests .new (Pool.Orderly sampleOnboarded)
          (picks.foldl Pool.take d) from
    hd _ (.init rfl) h
  clear h
  induction picks with
  | nil => exact fun _ hd _ => hd
  | cons pick rest ih =>
    intro d hd hpass
    refine ih _ (.step pick.turn hd ?_) hpass.2
    cases pick with
    | outside i => trivial
    | committed => exact sampleCall_finds
    | allocation => exact ⟨hpass.1.1, fun _ => hpass.1.2⟩

def sampleRequests : Fin 4 → Request Hundredths
  | 0 => sampleCommit "a" 10 []
  | 1 => .allocate (ascii "a")
  | 2 => sampleCommit "b" 10 []
  | 3 => .uncommit (ascii "a")

def firstCommit : List (Pick 4) :=
  [.outside 0, .outside 0, .committed, .committed, .committed, .committed, .committed, .committed]

def countedTurns : List (Pick 4) :=
  firstCommit ++ [.outside 2, .outside 2, .committed, .committed, .outside 1, .outside 1,
    .allocation, .allocation, .allocation, .committed, .allocation, .committed, .allocation]

def overlookedTurns : List (Pick 4) :=
  firstCommit ++ [.outside 2, .outside 2, .committed, .committed, .outside 1, .outside 1,
    .allocation, .allocation, .allocation, .allocation, .allocation, .committed, .committed,
    .committed]

/-- The entry is uncommitted after it was read and before it is stored. -/
def staleTurns : List (Pick 4) :=
  firstCommit ++ [.outside 1, .outside 1, .allocation, .allocation, .outside 3, .outside 3,
    .committed, .committed, .committed, .outside 2, .outside 2, .committed, .committed, .committed,
    .committed, .committed, .allocation, .allocation, .allocation]

/-- `AllocateResources` alone, before it deletes the committed entry. -/
def movingTurns : List (Pick 4) :=
  firstCommit ++ [.outside 1, .outside 1, .allocation, .allocation, .allocation]

theorem ram_within_onboarded_counted :
    (afterTurns sampleRequests countedTurns).store.held (fun r => r.ram.toNat) = 10 ∧
      (afterTurns sampleRequests countedTurns).store.held (fun r => r.ram.toNat) ≤ 16 := by
  have h := ram_within_onboarded (.init (.inl rfl))
    (interleaving_afterTurns sampleRequests countedTurns (by decide)) rfl
  exact ⟨by decide, h⟩

/-- Twenty of the sixteen bytes are given away: twice with no call left under a mutex, and once
between the two writes of a call that runs alone. -/
theorem ram_overcommitted : sampleOnboarded.ram = 16 ∧
    ((afterTurns sampleRequests overlookedTurns).committedLock = none ∧
      (afterTurns sampleRequests overlookedTurns).allocationLock = none ∧
      (afterTurns sampleRequests overlookedTurns).store.held (fun r => r.ram.toNat) = 20) ∧
    ((afterTurns sampleRequests staleTurns).committedLock = none ∧
      (afterTurns sampleRequests staleTurns).allocationLock = none ∧
      (afterTurns sampleRequests staleTurns).store.held (fun r => r.ram.toNat) = 20) ∧
    Reach.Passes Pool.Tidy Pool.take (.launch sampleRequests .new) movingTurns ∧
      (afterTurns sampleRequests movingTurns).moving = some (ascii "a") ∧
      (afterTurns sampleRequests movingTurns).store.held (fun r => r.ram.toNat) = 20 :=
  ⟨rfl, ⟨rfl, rfl, by decide⟩, ⟨rfl, rfl, by decide⟩, by decide, rfl, by decide⟩

end DMS.Resources
