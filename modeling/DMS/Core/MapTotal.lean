import DMS.Core.GoMap
import Mathlib.Algebra.GroupWithZero.Nat

/-! # Totals over the entries of a map

What the entries of a map weigh together. An entry that goes in adds its own weight, one that is
deleted takes it away, and the order of a `range` loop plays no part.
-/

namespace DMS.GoMap

open List AList

variable {K V W : Type} [DecidableEq K] {w : V → Nat} {m : GoMap K V} {k : K} {v : V}

def total (w : V → Nat) (m : GoMap K V) : Nat := (m.entries.map fun e => w e.2).sum

def weightAt (w : V → Nat) (m : GoMap K V) (k : K) : Nat := (m.lookup k).elim 0 w

theorem weightAt_of_lookup (h : m.lookup k = some v) : m.weightAt w k = w v := by
  simp [weightAt, h]

theorem weightAt_insert (k' : K) :
    weightAt w (m.insert k v) k' = if k' = k then w v else m.weightAt w k' := by
  unfold weightAt
  split
  · next h => subst h; simp
  · next h => rw [lookup_insert_ne h]

theorem weightAt_erase (k' : K) :
    weightAt w (m.erase k) k' = if k' = k then 0 else m.weightAt w k' := by
  unfold weightAt
  split
  · next h => subst h; simp
  · next h => rw [lookup_erase_ne h]

theorem total_insert_of_not_mem (h : k ∉ m) : total w (m.insert k v) = total w m + w v := by
  rw [total, entries_insert_of_notMem h]
  exact Nat.add_comm _ _

theorem entries_perm_erase (m : GoMap K V) (k : K) :
    m.entries.Perm ((m.lookup k).toList.map (fun v => ⟨k, v⟩) ++ (m.erase k).entries) := by
  by_cases hk : k ∈ m.keys
  · obtain ⟨v, pre, after, hbefore, hentries, herase⟩ := exists_of_kerase hk
    have hlookup : m.lookup k = some v := by
      apply mem_lookup_iff.mpr
      simp [hentries]
    have hrest : (m.erase k).entries = pre ++ after := herase
    rw [hlookup, hrest, hentries]
    exact perm_middle
  have hsame : m.erase k = m := AList.ext (kerase_of_notMem_keys hk)
  rw [hsame, lookup_eq_none.mpr hk]
  exact .refl _

theorem total_erase (w : V → Nat) (m : GoMap K V) (k : K) :
    total w (m.erase k) + m.weightAt w k = total w m := by
  have hsplit := ((entries_perm_erase m k).map fun e : Sigma fun _ : K => V => w e.2).sum_nat
  rw [map_append, sum_append] at hsplit
  unfold total weightAt
  rw [hsplit, Nat.add_comm]
  congr 1
  cases m.lookup k with
  | none => rfl
  | some v => simp

theorem total_insert (w : V → Nat) (m : GoMap K V) (k : K) (v : V) :
    total w (m.insert k v) = total w (m.erase k) + w v := by
  have h := total_erase w (m.insert k v) k
  rw [weightAt_insert, if_pos rfl] at h
  have hsame : (m.insert k v).erase k = m.erase k := by
    apply AList.ext
    exact kerase_cons_eq rfl
  rw [← h, hsame]

theorem total_erase_le (w : V → Nat) (m : GoMap K V) (k : K) : total w (m.erase k) ≤ total w m := by
  have h := total_erase w m k
  omega

theorem total_le_total {w'} (m : GoMap K V) :
    ∀ m' : GoMap K W, (∀ k, m.weightAt w k ≤ m'.weightAt w' k) → total w m ≤ total w' m' := by
  induction m using insertRec with
  | H0 =>
    intro m' _
    exact Nat.zero_le _
  | IH k v m hk ih =>
    intro m' h
    have hhead := h k
    rw [weightAt_insert, if_pos rfl] at hhead
    have hrest : total w m ≤ total w' (m'.erase k) := by
      apply ih
      intro k'
      have hk' := h k'
      rw [weightAt_insert] at hk'
      rw [weightAt_erase]
      split at hk'
      · next heq =>
        subst heq
        rw [weightAt, lookup_eq_none.mpr hk]
        exact Nat.zero_le _
      rename_i hne
      rw [if_neg hne]
      exact hk'
    have herase := total_erase w' m' k
    rw [total_insert_of_not_mem hk]
    omega

omit [DecidableEq K] in
theorem sum_visit (order : RangeOrder) (w : V → Nat) (m : GoMap K V) :
    ((order.visit m.entries).map fun e => w e.2).sum = total w m :=
  ((order.perm m.entries).map fun e => w e.2).sum_nat

theorem length_filter_key_le_one {key : V → K}
    (h : ∀ k v, m.lookup k = some v → key v = k) (k : K) :
    (m.entries.filter fun e => key e.2 = k).length ≤ 1 := by
  have hkeys : ((m.entries.filter fun e => key e.2 = k).map Sigma.fst).Nodup :=
    m.keys_nodup.sublist (filter_sublist.map _)
  have hsame : ∀ k' ∈ (m.entries.filter fun e => key e.2 = k).map Sigma.fst, k' = k := by
    intro k' hk'
    obtain ⟨e, he, rfl⟩ := mem_map.mp hk'
    have hmem := mem_filter.mp he
    have hkey := h e.1 e.2 (mem_lookup_iff.mpr hmem.1)
    rw [← hkey]
    exact of_decide_eq_true hmem.2
  rwa [eq_replicate_of_mem hsame, nodup_replicate, length_map] at hkeys

theorem filter_filterMap_entries {f} {key : W → K}
    (h : ∀ k v x, m.lookup k = some v → f v = some x → key x = k) (k : K) :
    ((m.entries.filterMap fun e => f e.2).filter (key · = k)).Perm
      ((m.lookup k).bind f).toList := by
  have hrest : ((m.erase k).entries.filterMap fun e => f e.2).filter (key · = k) = [] := by
    apply filter_eq_nil_iff.mpr
    intro x hx
    obtain ⟨e, he, hx⟩ := mem_filterMap.mp hx
    obtain ⟨hne, hlookup⟩ := lookup_of_erase (mem_lookup_iff.mpr he)
    simpa [h _ _ _ hlookup hx] using hne
  have hsplit := ((entries_perm_erase m k).filterMap fun e => f e.2).filter (key · = k)
  rw [filterMap_append, filter_append, hrest] at hsplit
  refine hsplit.trans (.of_eq ?_)
  cases hv : m.lookup k with
  | none => rfl
  | some v =>
    cases hx : f v with
    | none => simp [hx]
    | some x => simp [hx, h k v x hv hx]

def elements (f : V → List W) (m : GoMap K V) : List W := m.entries.flatMap fun e => f e.2

theorem elements_insert_append {f} (empty : V) (hempty : f empty = [])
    (m : GoMap K V) (k : K) {v} {x : W} (h : f v = f ((m.lookup k).getD empty) ++ [x]) :
    (elements f (m.insert k v)).Perm (elements f m ++ [x]) := by
  have hold : f ((m.lookup k).getD empty) =
      ((m.lookup k).toList.map fun v => (⟨k, v⟩ : Sigma fun _ : K => V)).flatMap
        fun e => f e.2 := by
    cases m.lookup k <;> simp [hempty]
  have hinsert : elements f (m.insert k v) = f v ++ elements f (m.erase k) := rfl
  have herase := (entries_perm_erase m k).flatMap_right fun e => f e.2
  rw [flatMap_append, ← hold] at herase
  rw [hinsert, h, append_assoc]
  exact (perm_append_comm.append_left _).trans (by
    rw [← append_assoc]
    exact herase.symm.append_right _)

omit [DecidableEq K] in
theorem elements_visit (order : RangeOrder) (f : V → List W) (m : GoMap K V) :
    ((order.visit m.entries).flatMap fun e => f e.2).Perm (elements f m) :=
  (order.perm m.entries).flatMap_right _

end DMS.GoMap
