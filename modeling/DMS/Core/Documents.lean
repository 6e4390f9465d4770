import Mathlib.Data.List.Nodup

/-! # Documents under identifiers

A collection of documents in which the database gives each new document an identifier of its
own. Updates and deletions name the identifier, and do nothing when it is not there.
-/

namespace DMS

structure Documents (D : Type) where
  docs : List (Nat × D)
  next : Nat
  fresh : ∀ e ∈ docs, e.1 < next
  nodup : (docs.map Prod.fst).Nodup

namespace Documents

variable {D : Type}

def empty : Documents D := ⟨[], 0, fun _ h => absurd h List.not_mem_nil, List.nodup_nil⟩

variable {i : Nat} {x : D} {s : Documents D}

theorem eq_of_mem (s : Documents D) {y} (hx : (i, x) ∈ s.docs) (hy : (i, y) ∈ s.docs) : x = y :=
  congrArg Prod.snd (List.inj_on_of_nodup_map s.nodup hx hy rfl)

def create (s : Documents D) (d : D) : Documents D where
  docs := s.docs ++ [(s.next, d)]
  next := s.next + 1
  fresh := by
    intro e he
    rcases List.mem_append.mp he with he | he
    · exact Nat.lt_succ_of_lt (s.fresh e he)
    · rw [List.mem_singleton.mp he]
      exact Nat.lt_succ_self _
  nodup := by
    rw [List.map_append]
    refine List.nodup_append'.mpr ⟨s.nodup, List.nodup_singleton _, ?_⟩
    intro i hi hnew
    obtain ⟨e, he, rfl⟩ := List.mem_map.mp hi
    have hlt := s.fresh e he
    have heq : e.1 = s.next := List.mem_singleton.mp hnew
    omega

def update (s : Documents D) (i : Nat) (d : D) : Documents D where
  docs := s.docs.map fun e => if e.1 = i then (i, d) else e
  next := s.next
  fresh := by
    intro e he
    obtain ⟨e', he', rfl⟩ := List.mem_map.mp he
    have hlt := s.fresh e' he'
    split
    · next heq => exact heq ▸ hlt
    · exact hlt
  nodup := by
    have hsame : (s.docs.map fun e => if e.1 = i then (i, d) else e).map Prod.fst =
        s.docs.map Prod.fst := by
      rw [List.map_map]
      refine List.map_congr_left fun e _ => ?_
      show (if e.1 = i then (i, d) else e).1 = e.1
      split
      · next heq => exact heq.symm
      · rfl
    rw [hsame]
    exact s.nodup

def delete (s : Documents D) (i : Nat) : Documents D where
  docs := s.docs.filter fun e => e.1 ≠ i
  next := s.next
  fresh := fun e he => s.fresh e (List.mem_of_mem_filter he)
  nodup := s.nodup.sublist (List.filter_sublist.map Prod.fst)

theorem mem_create {d} : (i, x) ∈ (s.create d).docs ↔ (i, x) ∈ s.docs ∨ i = s.next ∧ x = d := by
  simp [create]

theorem mem_update {k d} : (i, x) ∈ (s.update k d).docs ↔
      (i ≠ k ∧ (i, x) ∈ s.docs) ∨ i = k ∧ x = d ∧ ∃ y, (k, y) ∈ s.docs := by
  constructor
  · intro h
    obtain ⟨⟨j, y⟩, hy, heq⟩ := List.mem_map.mp h
    by_cases hj : j = k
    · subst hj
      simp only [if_true] at heq
      cases heq
      exact .inr ⟨rfl, rfl, y, hy⟩
    simp only [hj, if_false] at heq
    cases heq
    exact .inl ⟨hj, hy⟩
  rintro (⟨hi, hx⟩ | ⟨rfl, rfl, y, hy⟩)
  · exact List.mem_map.mpr ⟨(i, x), hx, if_neg hi⟩
  · exact List.mem_map.mpr ⟨(i, y), hy, if_pos rfl⟩

theorem mem_delete {k} : (i, x) ∈ (s.delete k).docs ↔ (i, x) ∈ s.docs ∧ i ≠ k := by
  simp [delete]

end Documents

end DMS
