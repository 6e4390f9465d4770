import Mathlib.Data.List.Perm.Basic

/-! # Paging through a list by offsets

A reader asks for a window of a list, sees the elements that pass a test, and asks again from the
old offset plus the number seen, as long as that stays below the length of the list.
-/

namespace DMS.Paging

open List

variable {α β : Type} (shown : α → Option β) (size : Nat) (l : List α)

def page (offset : Nat) : List β := ((l.drop offset).take size).filterMap shown

/-- All pages from an offset on; `none` when there are more than `fuel` of them. -/
def collect : Nat → Nat → Option (List β)
  | 0, _ => none
  | fuel + 1, offset =>
    let seen := page shown size l offset
    if offset + seen.length < l.length then
      (collect fuel (offset + seen.length)).map (seen ++ ·)
    else some seen

def Complete : Prop :=
  ∃ fuel seen, collect shown size l fuel 0 = some seen ∧ seen.Perm (l.filterMap shown)

variable {shown size l}

theorem length_page_le (offset : Nat) : (page shown size l offset).length ≤ l.length - offset := by
  calc (page shown size l offset).length
      ≤ ((l.drop offset).take size).length := length_filterMap_le ..
    _ ≤ (l.drop offset).length := length_take_le' ..
    _ = l.length - offset := length_drop

theorem collect_length {fuel offset seen} (hle : offset ≤ l.length)
    (h : collect shown size l fuel offset = some seen) : offset + seen.length = l.length := by
  induction fuel generalizing offset seen with
  | zero => simp [collect] at h
  | succ fuel ih =>
    have hpage : (page shown size l offset).length ≤ l.length - offset := length_page_le offset
    unfold collect at h
    dsimp only at h
    split at h
    · next hmore =>
      obtain ⟨rest, hrest, rfl⟩ := Option.map_eq_some_iff.mp h
      have htail := ih (by omega) hrest
      rw [length_append]
      omega
    · obtain rfl := Option.some.inj h
      omega

theorem collect_of_all (hsize : 1 ≤ size) (hall : ∀ a ∈ l, (shown a).isSome) {fuel offset}
    (hle : offset ≤ l.length) (hfuel : l.length - offset < fuel) :
    collect shown size l fuel offset = some ((l.drop offset).filterMap shown) := by
  induction fuel generalizing offset with
  | zero => omega
  | succ fuel ih =>
    have hlen : (page shown size l offset).length = min size (l.length - offset) := by
      have hkeep : ∀ a ∈ (l.drop offset).take size, (shown a).isSome := fun a ha =>
        hall a (mem_of_mem_drop (mem_of_mem_take ha))
      rw [page, length_filterMap_eq_countP, countP_eq_length.mpr hkeep, length_take, length_drop]
    unfold collect
    dsimp only
    split
    · next hmore =>
      rw [ih (by omega) (by omega), Option.map_some, hlen]
      have hcut : offset + min size (l.length - offset) = offset + size := by omega
      rw [hcut, page, ← filterMap_append, ← drop_drop, take_append_drop]
    have hshort : (l.drop offset).length ≤ size := by
      rw [length_drop]
      omega
    rw [page, take_of_length_le hshort]

theorem complete_iff (hsize : 1 ≤ size) : Complete shown size l ↔ ∀ a ∈ l, (shown a).isSome := by
  constructor
  · rintro ⟨fuel, seen, hseen, hperm⟩
    have hlen := collect_length (Nat.zero_le _) hseen
    rw [Nat.zero_add, hperm.length_eq, length_filterMap_eq_countP] at hlen
    exact countP_eq_length.mp hlen
  · intro hall
    exact ⟨l.length + 1, _, collect_of_all hsize hall (Nat.zero_le _) (by omega), List.Perm.refl _⟩

end DMS.Paging
