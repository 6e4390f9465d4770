import DMS.Core.Reach
import DMS.Resources.Manager

/-! # Memory and disk space are not handed out twice

The two maps of the store together hold a quantity for every weight of resources, and a request
moves weight between them or takes it out, except for a commitment that passed the check. The
sizes that the check adds up wrap around at `2 ^ 64`.
-/

namespace DMS.Resources

open DMS.Types Store GoMap Resources

variable {κ : Type}

/-- What the committed and the allocated resources weigh together. -/
def Store.held (w : Resources κ → Nat) (s : Store κ) : Nat :=
  s.committedResources.total (fun c => w c.resources) + s.allocations.total (fun a => w a.resources)

/-- Committed resources are stored under the ID that they carry, and so are allocated
ones. -/
structure Store.Keyed (s : Store κ) : Prop where
  committed : ∀ id c, s.committedResources.lookup id = some c → c.allocationID = id
  allocated : ∀ id a, s.allocations.lookup id = some a → a.allocationID = id

section Held

variable {s : Store κ} {w : Resources κ → Nat} {id : GoString} {c : CommittedResources κ}

theorem held_commit (hfresh : c.allocationID ∉ s.committedResources) :
    (s.commit c).held w = s.held w + w c.resources := by
  have h := total_insert_of_not_mem (w := fun c => w c.resources) (v := c) hfresh
  unfold held commit
  dsimp only at h ⊢
  omega

theorem held_clear_le : (s.clear id).held w ≤ s.held w := by
  have h := total_erase_le (fun c => w c.resources) s.committedResources id
  unfold held clear
  dsimp only
  omega

theorem held_drop_le : (s.drop id).held w ≤ s.held w := by
  have h := total_erase_le (fun a => w a.resources) s.allocations id
  unfold held drop
  dsimp only
  omega

theorem held_move (hc : s.committedResources.lookup id = some c) (hfresh : id ∉ s.allocations) :
    ((s.allocate ⟨id, c.resources⟩).clear id).held w = s.held w := by
  have h := total_erase (fun c => w c.resources) s.committedResources id
  rw [weightAt_of_lookup hc] at h
  have h' := total_insert_of_not_mem (w := fun a => w a.resources) (v := ⟨id, c.resources⟩) hfresh
  unfold held clear allocate
  dsimp only at h h' ⊢
  omega

end Held

section Keyed

variable {s : Store κ} {id : GoString}

theorem Store.Keyed.commit (h : s.Keyed) (c : CommittedResources κ) : (s.commit c).Keyed where
  committed := GoMap.forall_lookup_insert h.committed rfl
  allocated := h.allocated

theorem Store.Keyed.clear (h : s.Keyed) : (s.clear id).Keyed where
  committed id' c hc := h.committed id' c (GoMap.lookup_of_erase hc).2
  allocated := h.allocated

theorem Store.Keyed.allocate (h : s.Keyed) (a : ResourceAllocation κ) : (s.allocate a).Keyed where
  committed := h.committed
  allocated := GoMap.forall_lookup_insert h.allocated rfl

theorem Store.Keyed.drop (h : s.Keyed) : (s.drop id).Keyed where
  committed := h.committed
  allocated id' a ha := h.allocated id' a (GoMap.lookup_of_erase ha).2

end Keyed

section Requests

variable [Cores κ] {s : Store κ} {call : Call κ} {req : Request κ} {w : Resources κ → Nat}

theorem checkCapacity_maps (s : Store κ) (call : Call κ) (r : Resources κ) :
    ∃ ob, (s.checkCapacity call r).1 = { s with onboardedResources := ob } := by
  rcases checkCapacity_cases s call r with ⟨e, he⟩ | ⟨o, _, heq⟩
  · exact ⟨s.onboardedResources, by rw [he]⟩
  · exact ⟨_, by rw [heq]; rfl⟩

theorem held_checkCapacity (r : Resources κ) : (s.checkCapacity call r).1.held w = s.held w := by
  obtain ⟨ob, heq⟩ := checkCapacity_maps s call r
  rw [heq]
  rfl

theorem Store.Keyed.checkCapacity (h : s.Keyed) (r : Resources κ) :
    (s.checkCapacity call r).1.Keyed := by
  obtain ⟨ob, heq⟩ := checkCapacity_maps s call r
  rw [heq]
  exact ⟨h.committed, h.allocated⟩

theorem Store.Keyed.effect {s'} (h : s.Keyed) (heff : s.Effect call req s') : s'.Keyed := by
  cases heff with
  | refused => exact h
  | checked c => exact h.checkCapacity c.resources
  | committed c => exact (h.checkCapacity c.resources).commit c
  | uncommitted id => exact h.clear
  | allocated id c => exact (h.allocate _).clear
  | deallocated id => exact h.drop

theorem held_effect {s'} (hkeyed : s.Keyed) (heff : s.Effect call req s') :
    s'.held w ≤ s.held w ∨ ∃ c, req = .commit c ∧
      (s.checkCapacity call c.resources).2 = .ok () ∧ s'.held w = s.held w + w c.resources := by
  cases heff with
  | refused => exact .inl (le_refl _)
  | checked c => exact .inl (le_of_eq (held_checkCapacity _))
  | committed c hfresh hfits =>
    refine .inr ⟨c, rfl, hfits, ?_⟩
    obtain ⟨ob, heq⟩ := checkCapacity_maps s call c.resources
    rw [heq]
    exact held_commit hfresh
  | uncommitted id => exact .inl held_clear_le
  | allocated id c hc hfresh =>
    rw [hkeyed.committed id c hc] at hfresh
    exact .inl (le_of_eq (held_move hc hfresh))
  | deallocated id => exact .inl held_drop_le

end Requests

section Sizes

variable [Cores κ] {o total committed r : Resources κ} {z : Size}

theorem freeOf_ok (h : (freeOf o total committed).2 = .ok ()) (z : Size) :
    ((freeOf o total committed).1.size z).toNat + (committed.size z).toNat +
      (total.size z).toNat = (o.size z).toNat := by
  unfold freeOf at h ⊢
  split at h
  · simp at h
  rename_i free u hfree
  have hallocated := subtract_ok_size (congrArg Prod.snd hfree) z
  rw [hfree] at hallocated
  dsimp only at h hallocated ⊢
  split at h
  · simp at h
  rename_i free' u' hfree'
  have hcommitted := subtract_ok_size (congrArg Prod.snd hfree') z
  rw [hfree'] at hcommitted
  dsimp only at hcommitted ⊢
  omega

theorem assess_ok (h : (assess o total committed r).2 = .ok ()) (z : Size) :
    (r.size z).toNat + (committed.size z).toNat + (total.size z).toNat ≤ (o.size z).toNat := by
  unfold assess at h
  split at h
  · simp at h
  rename_i free u hfree
  have hrest := freeOf_ok (congrArg Prod.snd hfree) z
  rw [hfree] at hrest
  dsimp only at hrest
  split at h
  · simp at h
  rename_i left u' hleft
  have hresources := subtract_ok_size (congrArg Prod.snd hleft) z
  omega

end Sizes

def bytes (z : Size) (r : Resources κ) : Nat := (r.size z).toNat

section Totals

variable [Cores κ] {s : Store κ} {z : Size} {bound : UInt64}

theorem foldl_visit_size {V : Type} (part : V → Resources κ) (m : GoMap GoString V)
    (order : RangeOrder) (h : (m.total fun v => bytes z (part v)) ≤ bound.toNat) :
    (((order.visit m.entries).foldl (fun total e => total.add (part e.2))
      Resources.zero).size z).toNat = m.total fun v => bytes z (part v) := by
  have hfit := bound.toNat_lt
  have hsum := sum_visit order (fun v => bytes z (part v)) m
  rw [foldl_add_size]
  unfold bytes at h hsum ⊢
  simp only [zero_size, UInt64.toNat_zero, hsum]
  omega

theorem getTotalAllocation_size (order : RangeOrder) (h : s.held (bytes z) ≤ bound.toNat) :
    ((s.getTotalAllocation order).size z).toNat =
      s.allocations.total fun a => bytes z a.resources :=
  foldl_visit_size _ _ order (le_trans (Nat.le_add_left _ _) h)

theorem getTotalCommitted_size (order : RangeOrder) (h : s.held (bytes z) ≤ bound.toNat) :
    ((s.getTotalCommitted order).size z).toNat =
      s.committedResources.total fun c => bytes z c.resources :=
  foldl_visit_size _ _ order (le_trans (Nat.le_add_right _ _) h)

end Totals

/-- The database has no other onboarded resources than these. -/
def Call.Finds (onboarded : Resources κ) (call : Call κ) : Prop :=
  ∀ o, call.get = .ok o → o = onboarded

/-- A manager that nothing was asked of yet, with or without the onboarded resources
in its store. -/
def Store.Initial (onboarded : Resources κ) (s : Store κ) : Prop :=
  s = .new ∨ s = { Store.new with onboardedResources := some onboarded }

def Store.Run [Cores κ] (onboarded : Resources κ) : Store κ → Prop :=
  Reach (Store.Initial onboarded) (fun _ (step : Call κ × Request κ) => step.1.Finds onboarded)
    fun s step => (s.exec step.1 step.2).1

/-- The sizes in the store are the onboarded ones, and the maps hold at most these. -/
structure Store.Within (onboarded : Resources κ) (s : Store κ) : Prop where
  keyed : s.Keyed
  sizes : ∀ o, s.onboardedResources = some o → ∀ z, o.size z = onboarded.size z
  held_le : ∀ z, s.held (bytes z) ≤ bytes z onboarded

section Runs

variable [Cores κ] {ob : Resources κ} {s : Store κ} {call : Call κ}

attribute [local simp] Store.new

omit [Cores κ] in
theorem Store.Initial.within (h : Store.Initial ob s) : s.Within ob := by
  rcases h with rfl | rfl
  · exact ⟨⟨by simp, by simp⟩, by simp, fun z => Nat.zero_le _⟩
  refine ⟨⟨by simp, by simp⟩, ?_, fun z => Nat.zero_le _⟩
  intro o ho z
  rw [← Option.some.inj ho]

section Within

variable (h : s.Within ob) (hcall : call.Finds ob)

include h hcall

omit [Cores κ] in
theorem Store.Within.onboards {o} (ho : s.Onboards call.get o) (z : Size) :
    o.size z = ob.size z := by
  rcases ho with hstored | ⟨_, hget⟩
  · exact h.sizes o hstored z
  · rw [hcall o hget]

theorem Store.Within.checkCapacity (r : Resources κ) : (s.checkCapacity call r).1.Within ob where
  keyed := h.keyed.checkCapacity r
  held_le z := by
    rw [held_checkCapacity]
    exact h.held_le z
  sizes o' ho' z := by
    rcases checkCapacity_cases s call r with ⟨e, he⟩ | ⟨o, ho, heq⟩
    · rw [he] at ho'
      exact h.sizes o' ho' z
    rw [heq] at ho'
    rw [← h.onboards hcall ho z, ← Option.some.inj ho']
    cases z <;> rfl

theorem Store.Within.fits {r} (hok : (s.checkCapacity call r).2 = .ok ()) (z : Size) :
    s.held (bytes z) + bytes z r ≤ bytes z ob := by
  rcases checkCapacity_cases s call r with ⟨e, he⟩ | ⟨o, ho, heq⟩
  · simp [he] at hok
  rw [heq] at hok
  have hroom := assess_ok hok z
  rw [h.onboards hcall ho z, getTotalAllocation_size _ (h.held_le z),
    getTotalCommitted_size _ (h.held_le z)] at hroom
  unfold held
  unfold bytes at hroom ⊢
  omega

theorem Store.Within.exec (req : Request κ) : (s.exec call req).1.Within ob := by
  have heff := exec_effect s call req
  refine ⟨h.keyed.effect heff, ?_, ?_⟩
  · generalize (s.exec call req).1 = s' at heff
    cases heff with
    | refused | uncommitted | allocated | deallocated => exact h.sizes
    | checked c | committed c => exact (h.checkCapacity hcall c.resources).sizes
  intro z
  rcases held_effect h.keyed heff with hle | ⟨c, _, hfits, heq⟩
  · exact le_trans hle (h.held_le z)
  · rw [heq]
    exact h.fits hcall hfits z

theorem Store.Within.getFreeResources {free}
    (hok : (s.getFreeResources call).2 = .ok free) (z : Size) :
    bytes z free + s.held (bytes z) = bytes z ob := by
  rcases getFreeResources_cases s call with ⟨e, he⟩ | ⟨o, ho, heq⟩
  · simp [he] at hok
  rw [heq] at hok
  cases hres : (freeOf o (s.getTotalAllocation call.order) (s.getTotalCommitted call.order)).2
  with
  | error e => simp [hres, Except.map] at hok
  | ok u =>
    simp only [hres, Except.map, Except.ok.injEq] at hok
    have hrest := freeOf_ok hres z
    rw [hok, h.onboards hcall ho z, getTotalAllocation_size _ (h.held_le z),
      getTotalCommitted_size _ (h.held_le z)] at hrest
    unfold held
    unfold bytes at hrest ⊢
    omega

end Within

theorem Store.Run.within (h : Store.Run ob s) : s.Within ob :=
  h.invariant (Store.Within ob) (fun _ hs => hs.within)
    fun _ step hs hcall => hs.exec hcall step.2

end Runs

/-- The RAM and the disk space of the committed and the allocated entries fit into what is
onboarded, an allocation has one entry in either map, and the subtractions of unsigned sizes are
those of the numbers. -/
theorem sizes_within_onboarded [Cores κ] {onboarded : Resources κ} {s : Store κ}
    (h : Store.Run onboarded s) : (s.held (fun r => r.ram.toNat) ≤ onboarded.ram.toNat ∧
      s.held (fun r => r.disk.toNat) ≤ onboarded.disk.toNat) ∧
    (∀ id, (s.committedResources.entries.filter fun e => e.2.allocationID = id).length ≤ 1 ∧
      (s.allocations.entries.filter fun e => e.2.allocationID = id).length ≤ 1) ∧
    (∀ call, call.Finds onboarded → ∀ free, (s.getFreeResources call).2 = .ok free →
      free.ram.toNat + s.held (fun r => r.ram.toNat) = onboarded.ram.toNat ∧
      free.disk.toNat + s.held (fun r => r.disk.toNat) = onboarded.disk.toNat) ∧
    ∀ (fault : UInt64 → UInt64 → Underflow κ) (own other : UInt64),
      (subtractSize fault own other).1.toNat =
        if own.toNat < other.toNat then own.toNat else own.toNat - other.toNat := by
  have hwithin := h.within
  refine ⟨⟨hwithin.held_le .ram, hwithin.held_le .disk⟩, ?_, ?_, subtractSize_exact⟩
  · intro id
    exact ⟨length_filter_key_le_one hwithin.keyed.committed id,
      length_filter_key_le_one hwithin.keyed.allocated id⟩
  · intro call hcall free hfree
    exact ⟨hwithin.getFreeResources hcall hfree .ram, hwithin.getFreeResources hcall hfree .disk⟩

def sampleOnboarded : Resources Hundredths :=
  ⟨⟨800⟩, [⟨0, "Tesla T4", 16⟩, ⟨1, "A100", 40⟩], 16, 40⟩

def sampleCall : Call Hundredths := ⟨.ok sampleOnboarded, .ok (), .ok (), .ok (), .stored⟩

theorem sampleCall_finds : sampleCall.Finds sampleOnboarded := by
  intro o ho
  exact (Except.ok.inj ho).symm

def sampleCommit (id : String) (ram : UInt64) (gpus : List GPU) : Request Hundredths :=
  .commit ⟨⟨⟨100⟩, gpus, ram, 8⟩, ascii id⟩

def afterRequests (requests : List (Request Hundredths)) : Store Hundredths :=
  requests.foldl (fun s request => (s.exec sampleCall request).1) .new

theorem run_afterRequests (requests : List (Request Hundredths)) :
    Store.Run sampleOnboarded (afterRequests requests) := by
  suffices h : ∀ s, Store.Run sampleOnboarded s → Store.Run sampleOnboarded
      (requests.foldl (fun s req => (s.exec sampleCall req).1) s) from
    h _ (.init (.inl rfl))
  induction requests with
  | nil => exact fun _ hs => hs
  | cons req rest ih => exact fun _ hs => ih _ (.step (sampleCall, req) hs sampleCall_finds)

/-- An allocation that is committed again while it is allocated counts twice, and the
third commitment is refused. -/
theorem sizes_within_onboarded_again :
    let s := afterRequests [sampleCommit "a" 10 [], .allocate (ascii "a"), sampleCommit "a" 6 [],
      sampleCommit "b" 1 []]
    s.held (fun r => r.ram.toNat) = 16 ∧ s.held (fun r => r.ram.toNat) ≤ 16 ∧
      s.held (fun r => r.disk.toNat) ≤ 40 := by
  have h := sizes_within_onboarded (run_afterRequests [sampleCommit "a" 10 [],
    .allocate (ascii "a"), sampleCommit "a" 6 [], sampleCommit "b" 1 []])
  exact ⟨by decide, h.1.1, h.1.2⟩

end DMS.Resources
