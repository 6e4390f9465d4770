import Mathlib.Data.Finset.SDiff

/-! # Ledgers of exclusive resources

A ledger says who holds each resource. A component that hands resources out keeps a list for each
holder and a set of the resources in use; `Books` says that the two are what the ledger says, and
`Balanced` the same without naming the ledger.
-/

namespace DMS

open Option

/-- Who holds a resource, if anybody does. -/
def Ledger (α ι : Type) := α → Option ι

namespace Ledger

variable {α ι : Type} {l : Ledger α ι} {listed listed' : ι → List α}
  {used : Finset α} {i : ι} {xs : List α}

def empty : Ledger α ι := fun _ => none

structure Books (l : Ledger α ι) (listed : ι → List α) (used : Finset α) : Prop where
  mem_listed : ∀ i x, x ∈ listed i ↔ l x = some i
  mem_used : ∀ x, x ∈ used ↔ l x ≠ none

/-- Every resource in use is listed for exactly one holder, and every listed
resource is in use. -/
structure Balanced (listed : ι → List α) (used : Finset α) : Prop where
  holder : ∀ x ∈ used, ∃! i, x ∈ listed i
  inUse : ∀ i, ∀ x ∈ listed i, x ∈ used

theorem Books.balanced (h : Books l listed used) : Balanced listed used where
  holder x hx := by
    obtain ⟨i, hi⟩ := ne_none_iff_exists'.mp ((h.mem_used x).mp hx)
    refine ⟨i, (h.mem_listed i x).mpr hi, ?_⟩
    intro j hj
    have hj' := (h.mem_listed j x).mp hj
    rw [hi] at hj'
    exact (some.inj hj').symm
  inUse i x hx := by
    apply (h.mem_used x).mpr
    rw [(h.mem_listed i x).mp hx]
    exact some_ne_none i

theorem Balanced.books (h : Balanced listed used) : ∃ l, Books l listed used := by
  classical
  refine ⟨fun x => if hx : ∃ i, x ∈ listed i then some hx.choose else none, ⟨?_, ?_⟩⟩
  · intro i x
    constructor
    · intro hx
      have hex : ∃ i, x ∈ listed i := ⟨i, hx⟩
      rw [dif_pos hex]
      exact congrArg some ((h.holder x (h.inUse i x hx)).unique hex.choose_spec hx)
    intro hx
    split at hx
    · next hex => exact some.inj hx ▸ hex.choose_spec
    · simp at hx
  intro x
  constructor
  · intro hx
    rw [dif_pos (h.holder x hx).exists]
    exact some_ne_none _
  intro hx
  split at hx
  · next hex => exact h.inUse _ x hex.choose_spec
  · exact absurd rfl hx

theorem books_empty (hlisted : ∀ i, listed i = []) : Books empty listed ∅ where
  mem_listed i x := by simp [hlisted i, empty]
  mem_used x := by simp [empty]

variable [DecidableEq α] [DecidableEq ι]

def grant (l : Ledger α ι) (i : ι) (xs : List α) : Ledger α ι :=
  fun x => if x ∈ xs then some i else l x

def revoke (l : Ledger α ι) (i : ι) : Ledger α ι := fun x => if l x = some i then none else l x

omit [DecidableEq ι] in
@[simp] theorem grant_nil (l : Ledger α ι) (i : ι) : l.grant i [] = l := by
  funext x
  simp [grant]

theorem Books.grant (h : Books l listed used) (hfree : ∀ x ∈ xs, x ∉ used) (hnone : listed i = [])
    (hlisted : ∀ j, listed' j = if j = i then xs else listed j) :
    Books (l.grant i xs) listed' (used ∪ xs.toFinset) where
  mem_listed j x := by
    have hold : x ∈ xs → l x = none := by
      intro hx
      by_contra hne
      exact hfree x hx ((h.mem_used x).mpr hne)
    have hnot : l x ≠ some i := by
      intro hx
      have hmem := (h.mem_listed i x).mpr hx
      rw [hnone] at hmem
      exact List.not_mem_nil hmem
    rw [Ledger.grant, hlisted j]
    by_cases hx : x ∈ xs
    · by_cases hj : j = i
      · simp [hj, hx]
      · have hne : i ≠ j := fun heq => hj heq.symm
        simp [hj, hne, h.mem_listed j x, hold hx]
    rw [if_neg hx]
    by_cases hj : j = i
    · simp [hj, hx, hnot]
    · rw [if_neg hj]
      exact h.mem_listed j x
  mem_used x := by
    unfold Ledger.grant
    by_cases hx : x ∈ xs
    · simp [hx]
    · simp [hx, h.mem_used x]

theorem Books.revoke (h : Books l listed used)
    (hlisted : ∀ j, listed' j = if j = i then [] else listed j) :
    Books (l.revoke i) listed' (used \ (listed i).toFinset) where
  mem_listed j x := by
    rw [Ledger.revoke, hlisted j]
    by_cases hj : j = i
    · by_cases hx : l x = some i
      · simp [hj, hx]
      · simp [hj, hx]
    rw [if_neg hj, h.mem_listed j x]
    by_cases hx : l x = some i
    · have hne : i ≠ j := fun heq => hj heq.symm
      simp [hx, hne]
    · simp [hx]
  mem_used x := by
    rw [Ledger.revoke, Finset.mem_sdiff, List.mem_toFinset, h.mem_used x, h.mem_listed i x]
    by_cases hx : l x = some i
    · simp [hx]
    · simp [hx]

theorem Balanced.not_overwrite (h : Balanced listed used) (hfree : ∀ x ∈ xs, x ∉ used)
    (hsome : listed i ≠ []) (hlisted : ∀ j, listed' j = if j = i then xs else listed j) :
    ¬Balanced listed' (used ∪ xs.toFinset) := by
  intro hafter
  obtain ⟨x, hx⟩ := List.exists_mem_of_ne_nil _ hsome
  have hused := h.inUse i x hx
  obtain ⟨j, hj, _⟩ := hafter.holder x (Finset.mem_union_left _ hused)
  simp only [hlisted j] at hj
  split at hj
  · exact hfree x hj hused
  · next hne => exact hne ((h.holder x hused).unique hj hx)

end Ledger

end DMS
