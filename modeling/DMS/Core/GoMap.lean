import Mathlib.Data.List.AList
import Mathlib.Data.List.Rotate

/-! # Finite maps ranged over in an unspecified order

A map is an association list without repeated keys. A `range` loop visits the
keys in an order that the run chooses; the only thing known about the order is
that it is a permutation of the keys, and `RangeOrder` carries that fact.
-/

namespace DMS

open AList

/-- The order in which one call ranges over maps. -/
structure RangeOrder where
  visit : {α : Type} → List α → List α
  perm : ∀ {α : Type} (keys : List α), (visit keys).Perm keys

namespace RangeOrder

def stored : RangeOrder where
  visit keys := keys
  perm keys := List.Perm.refl keys

theorem mem_visit {α : Type} (order : RangeOrder) {keys} {k : α} :
    k ∈ order.visit keys ↔ k ∈ keys :=
  (order.perm keys).mem_iff

theorem nodup_visit {α : Type} (order : RangeOrder) {keys : List α} (h : keys.Nodup) :
    (order.visit keys).Nodup :=
  (order.perm keys).nodup_iff.mpr h

theorem exists_shuffle {α : Type} {a l} (h : a ∈ l) :
    ∃ (sh : RangeOrder) (rest : List α), sh.visit l = a :: rest := by
  obtain ⟨pre, after, rfl⟩ := List.append_of_mem h
  refine ⟨⟨fun keys => keys.rotate pre.length, fun keys => List.rotate_perm keys _⟩,
    after ++ pre, ?_⟩
  show (pre ++ a :: after).rotate pre.length = a :: (after ++ pre)
  rw [List.rotate_append_length_eq, List.cons_append]

end RangeOrder

abbrev GoMap (K V : Type) := AList fun _ : K => V

namespace GoMap

variable {K V A : Type} [DecidableEq K]

/-- Visit the given keys; replace the value of a key that is present by `f`, or
delete the key when `f` gives nothing. -/
def rangeUpdate (f : K → V → Option V) : List K → GoMap K V → GoMap K V
  | [], m => m
  | k :: ks, m =>
    match m.lookup k with
    | none => rangeUpdate f ks m
    | some v =>
      match f k v with
      | none => rangeUpdate f ks (m.erase k)
      | some v' => rangeUpdate f ks (m.insert k v')

variable {k k' : K} {m : GoMap K V} {a : A} {v : V} {l : List (K × V)}

theorem lookup_rangeUpdate_of_not_mem (f : K → V → Option V) {ks}
    (hk : k ∉ ks) (m : GoMap K V) : (rangeUpdate f ks m).lookup k = m.lookup k := by
  induction ks generalizing m with
  | nil => rfl
  | cons a ks ih =>
    have hne : k ≠ a := by intro h; exact hk (by simp [h])
    have htail : k ∉ ks := by intro h; exact hk (by simp [h])
    unfold rangeUpdate
    split
    · exact ih htail m
    split
    · rw [ih htail, lookup_erase_ne hne]
    · rw [ih htail, lookup_insert_ne hne]

theorem lookup_rangeUpdate_of_mem (f : K → V → Option V) {ks : List K} (hnodup : ks.Nodup)
    (hk : k ∈ ks) (m : GoMap K V) : (rangeUpdate f ks m).lookup k = (m.lookup k).bind (f k) := by
  induction ks generalizing m with
  | nil => simp at hk
  | cons a ks ih =>
    obtain ⟨ha, hrest⟩ := List.nodup_cons.mp hnodup
    by_cases hka : k = a
    · subst hka
      unfold rangeUpdate
      split
      · next hnone => rw [lookup_rangeUpdate_of_not_mem f ha, hnone]; rfl
      rename_i v hv
      split
      · next hf =>
        rw [lookup_rangeUpdate_of_not_mem f ha, lookup_erase, hv]
        exact hf.symm
      rename_i v' hf
      rw [lookup_rangeUpdate_of_not_mem f ha, lookup_insert, hv]
      exact hf.symm
    have hmem : k ∈ ks := by simpa [hka] using hk
    unfold rangeUpdate
    split
    · exact ih hrest hmem m
    split
    · rw [ih hrest hmem, lookup_erase_ne hka]
    · rw [ih hrest hmem, lookup_insert_ne hka]

theorem lookup_rangeUpdate (f : K → V → Option V) (order : RangeOrder) (m : GoMap K V) (k : K) :
    (rangeUpdate f (order.visit m.keys) m).lookup k = (m.lookup k).bind (f k) := by
  by_cases hk : k ∈ m.keys
  · exact lookup_rangeUpdate_of_mem f (order.nodup_visit m.keys_nodup) (order.mem_visit.mpr hk) m
  rw [lookup_rangeUpdate_of_not_mem f (fun h => hk (order.mem_visit.mp h))]
  rw [lookup_eq_none.mpr hk]
  rfl

def list (m : GoMap K (List A)) (k : K) : List A := (m.lookup k).getD []

@[simp] theorem list_empty (k : K) : list (∅ : GoMap K (List A)) k = [] := by
  simp [list]

theorem list_insert (m : GoMap K (List A)) (k k' : K) (l : List A) :
    list (m.insert k l) k' = if k' = k then l else m.list k' := by
  unfold list
  split
  · next h => subst h; simp
  · next h => rw [lookup_insert_ne h]

theorem list_erase (m : GoMap K (List A)) (k k' : K) :
    list (m.erase k) k' = if k' = k then [] else m.list k' := by
  unfold list
  split
  · next h => subst h; simp
  · next h => rw [lookup_erase_ne h]

theorem list_of_lookup {m : GoMap K (List A)} {l} (h : m.lookup k = some l) : m.list k = l := by
  simp [list, h]

/-- `m[k] = append(m[k], a)` -/
def push (m : GoMap K (List A)) (k : K) (a : A) : GoMap K (List A) := m.insert k (m.list k ++ [a])

theorem list_push (m : GoMap K (List A)) (k k' : K) (a : A) :
    list (m.push k a) k' = if k' = k then m.list k ++ [a] else m.list k' :=
  list_insert ..

theorem mem_list_push {m : GoMap K (List A)} {a'} :
    a' ∈ list (m.push k a) k' ↔ a' ∈ m.list k' ∨ a' = a ∧ k' = k := by
  rw [list_push]
  split <;> next h => simp [h]

theorem forall_list_push {m : GoMap K (List A)} {P : K → A → Prop}
    (h : ∀ k, ∀ a ∈ m.list k, P k a) (ha : P k a) : ∀ k', ∀ a' ∈ list (m.push k a) k', P k' a' := by
  intro k' a' hmem
  rcases mem_list_push.mp hmem with hmem | ⟨rfl, rfl⟩
  · exact h k' a' hmem
  · exact ha

theorem mem_push {m : GoMap K (List A)} : k' ∈ m.push k a ↔ k' = k ∨ k' ∈ m := AList.mem_insert ..

theorem list_push_ne_nil {m : GoMap K (List A)} (h : ∀ k ∈ m, m.list k ≠ []) (k : K) (a : A) :
    ∀ k' ∈ m.push k a, list (m.push k a) k' ≠ [] := by
  intro k' hk'
  rw [list_push]
  split
  · simp
  · next hne => exact h k' ((mem_push.mp hk').resolve_left hne)

theorem mem_keys_of_mem_list {m : GoMap K (List A)} (h : a ∈ m.list k) : k ∈ m.keys := by
  by_contra hk
  simp [list, lookup_eq_none.mpr hk] at h

theorem mem_of_lookup (h : m.lookup k = some v) : k ∈ m := AList.lookup_isSome.mp (by rw [h]; rfl)

theorem exists_lookup (h : k ∈ m) : ∃ v, m.lookup k = some v :=
  Option.isSome_iff_exists.mp (lookup_isSome.mpr h)

theorem lookup_insert_cases {w} (h : (m.insert k v).lookup k' = some w) :
    (k' = k ∧ w = v) ∨ k' ≠ k ∧ m.lookup k' = some w := by
  by_cases hk : k' = k
  · subst hk
    rw [lookup_insert] at h
    exact .inl ⟨rfl, (Option.some.inj h).symm⟩
  · rw [lookup_insert_ne hk] at h
    exact .inr ⟨hk, h⟩

theorem forall_lookup_insert {P : K → V → Prop} (h : ∀ k v, m.lookup k = some v → P k v)
    (hv : P k v) : ∀ k' v', (m.insert k v).lookup k' = some v' → P k' v' := by
  intro k' v' hlookup
  rcases lookup_insert_cases hlookup with ⟨rfl, rfl⟩ | ⟨_, hold⟩
  · exact hv
  · exact h k' v' hold

theorem lookup_of_erase (h : (m.erase k).lookup k' = some v) : k' ≠ k ∧ m.lookup k' = some v := by
  have hne : k' ≠ k := by
    rintro rfl
    simp at h
  exact ⟨hne, (lookup_erase_ne hne).symm.trans h⟩

theorem exists_mem_entries {P : K → V → Prop} :
    (∃ e ∈ m.entries, P e.1 e.2) ↔ ∃ k v, m.lookup k = some v ∧ P k v := by
  constructor
  · rintro ⟨⟨k, v⟩, he, h⟩
    exact ⟨k, v, mem_lookup_iff.mpr he, h⟩
  · rintro ⟨k, v, hl, h⟩
    exact ⟨⟨k, v⟩, mem_lookup_iff.mp hl, h⟩

def mapValues {W : Type} (f : K → V → W) (m : GoMap K V) : GoMap K W :=
  ⟨m.entries.map fun e => ⟨e.1, f e.1 e.2⟩, by
    have h := m.nodupKeys
    simp only [List.NodupKeys, List.keys, List.map_map] at h ⊢
    exact h⟩

theorem lookup_mapValues {W : Type} (f : K → V → W) (m : GoMap K V) (k : K) :
    (m.mapValues f).lookup k = (m.lookup k).map (f k) := by
  obtain ⟨es, hnodup⟩ := m
  simp only [mapValues, lookup]
  clear hnodup
  induction es with
  | nil => rfl
  | cons e es ih =>
    obtain ⟨k', v⟩ := e
    by_cases hk : k = k'
    · subst hk
      simp [List.dlookup_cons_eq]
    · rw [List.map_cons, List.dlookup_cons_ne _ _ hk, List.dlookup_cons_ne _ _ hk]
      exact ih

theorem mem_mapValues {W : Type} {f : K → V → W} : k ∈ m.mapValues f ↔ k ∈ m := by
  rw [← lookup_isSome, ← lookup_isSome, lookup_mapValues, Option.isSome_map]

def select (p : K → V → Bool) (m : GoMap K V) : GoMap K V :=
  ⟨m.entries.filter fun e => p e.1 e.2, List.NodupKeys.sublist List.filter_sublist m.nodupKeys⟩

theorem lookup_select {p : K → V → Bool} :
    (m.select p).lookup k = some v ↔ m.lookup k = some v ∧ p k v = true :=
  mem_lookup_iff.trans (List.mem_filter.trans (and_congr_left' mem_lookup_iff.symm))

def insertAll (l : List (K × V)) (m : GoMap K V) : GoMap K V :=
  l.foldl (fun m e => m.insert e.1 e.2) m

theorem lookup_insertAll_of_not_mem
    (h : ∀ v, (k, v) ∉ l) : (insertAll l m).lookup k = m.lookup k := by
  induction l generalizing m with
  | nil => rfl
  | cons e l ih =>
    have hne : k ≠ e.1 := by
      intro hk
      exact h e.2 (by simp [hk])
    have htail := ih (m := m.insert e.1 e.2) fun v hv => h v (.tail _ hv)
    exact htail.trans (lookup_insert_ne hne)

theorem lookup_insertAll_of_mem
    (h : (k, v) ∈ l) : ∃ v', (k, v') ∈ l ∧ (insertAll l m).lookup k = some v' := by
  induction l generalizing m v with
  | nil => simp at h
  | cons e l ih =>
    by_cases htail : ∃ v', (k, v') ∈ l
    · obtain ⟨v', hv'⟩ := htail
      obtain ⟨v'', hv'', hlookup⟩ := ih hv'
      exact ⟨v'', .tail _ hv'', hlookup⟩
    have hout : ∀ v', (k, v') ∉ l := fun v' hv' => htail ⟨v', hv'⟩
    have he : (k, v) = e := (List.mem_cons.mp h).resolve_right (hout v)
    subst he
    refine ⟨v, .head _, ?_⟩
    exact (lookup_insertAll_of_not_mem hout).trans (lookup_insert m)

theorem lookup_insertAll_of_unique (h : (k, v) ∈ l) (hunique : ∀ v', (k, v') ∈ l → v' = v) :
    (insertAll l m).lookup k = some v := by
  obtain ⟨v', hv', hlookup⟩ := lookup_insertAll_of_mem h
  rw [hlookup, hunique v' hv']

theorem lookup_insertAll_cases
    (h : (insertAll l m).lookup k = some v) : (k, v) ∈ l ∨ m.lookup k = some v := by
  by_cases hin : ∃ v', (k, v') ∈ l
  · obtain ⟨v', hv'⟩ := hin
    obtain ⟨v'', hv'', hlookup⟩ := lookup_insertAll_of_mem hv'
    cases hlookup.symm.trans h
    exact .inl hv''
  · rw [lookup_insertAll_of_not_mem fun v' hv' => hin ⟨v', hv'⟩] at h
    exact .inr h

theorem mem_insertAll : k ∈ insertAll l m ↔ k ∈ m ∨ ∃ v, (k, v) ∈ l := by
  by_cases h : ∃ v, (k, v) ∈ l
  · obtain ⟨v, hv⟩ := h
    obtain ⟨v', -, hlookup⟩ := lookup_insertAll_of_mem hv
    rw [← lookup_isSome, hlookup]
    simp only [Option.isSome_some, true_iff]
    exact .inr ⟨v, hv⟩
  have hout : ∀ v, (k, v) ∉ l := fun v hv => h ⟨v, hv⟩
  rw [← lookup_isSome, lookup_insertAll_of_not_mem hout, lookup_isSome]
  simp [h]

theorem erase_insert (v : V) (h : k ∉ m) : (m.insert k v).erase k = m := by
  refine AList.ext ?_
  change List.kerase k (insert k v m).entries = m.entries
  rw [entries_insert_of_notMem h]
  exact List.kerase_cons_eq rfl

def eraseAll (ks : List K) (m : GoMap K V) : GoMap K V := ks.foldl (fun m k => m.erase k) m

theorem lookup_eraseAll (ks : List K) (m : GoMap K V) (k : K) :
    (eraseAll ks m).lookup k = if k ∈ ks then none else m.lookup k := by
  induction ks generalizing m with
  | nil => rfl
  | cons k' ks ih =>
    have htail := ih (m.erase k')
    by_cases hk : k = k'
    · subst hk
      rw [lookup_erase, ite_self] at htail
      rw [if_pos (.head _)]
      exact htail
    rw [lookup_erase_ne hk] at htail
    simp only [List.mem_cons, hk, false_or]
    exact htail

theorem foldl_iff_exists {S A : Type} (Q : S → Prop) (P : A → Prop) {step}
    (hstep : ∀ s a, Q (step s a) ↔ Q s ∨ P a) (l : List A) (s : S) :
    Q (l.foldl step s) ↔ Q s ∨ ∃ a ∈ l, P a := by
  induction l generalizing s with
  | nil => simp
  | cons a l ih => rw [List.foldl_cons, ih, hstep, List.exists_mem_cons_iff, or_assoc]

theorem foldl_assign {S A W : Type} (proj : S → W) (P : A → Prop) [DecidablePred P] (w : W)
    {step} (l : List A)
    (hstep : ∀ s, ∀ a ∈ l, proj (step s a) = if P a then w else proj s) (s : S) :
    proj (l.foldl step s) = if ∃ a ∈ l, P a then w else proj s := by
  induction l generalizing s with
  | nil => simp
  | cons a l ih =>
    have htail := ih (fun s a ha => hstep s a (.tail _ ha)) (step s a)
    rw [hstep s a (.head _)] at htail
    refine htail.trans ?_
    by_cases ha : P a
    · simp [ha]
    · simp [ha]

omit [DecidableEq K] in
theorem exists_mem_pairs : (∃ v, (k, v) ∈ m.entries.map fun e => (e.1, e.2)) ↔ k ∈ m := by
  rw [mem_keys, keys]
  simp [List.mem_keys]

theorem lookup_insertAll_entries (m m' : GoMap K V) (k : K) :
    (insertAll (m.entries.map fun e => (e.1, e.2)) m').lookup k =
      (m.lookup k).or (m'.lookup k) := by
  have hpair : ∀ v, (k, v) ∈ m.entries.map (fun e => (e.1, e.2)) ↔ m.lookup k = some v := by
    intro v
    rw [← Option.mem_def, mem_lookup_iff]
    simp [Sigma.exists]
  cases hl : m.lookup k with
  | none =>
    refine lookup_insertAll_of_not_mem fun v hv => ?_
    rw [hpair, hl] at hv
    cases hv
  | some v =>
    refine lookup_insertAll_of_unique ((hpair v).mpr hl) fun v' hv' => ?_
    rw [hpair, hl] at hv'
    exact (Option.some.inj hv').symm

/-- A loop over the entries of one map whose turns each touch their own key of another
map. The order of the loop does not matter. -/
theorem lookup_foldl_entries {S W : Type} (proj : S → GoMap K W)
    (step : S → (Σ _, V) → S) (act : K → V → Option W → Option W)
    (hstep : ∀ s k v k', (proj (step s ⟨k, v⟩)).lookup k' =
      if k' = k then act k v ((proj s).lookup k) else (proj s).lookup k')
    {c : GoMap K V} {l : List (Σ _, V)} (hl : l.Perm c.entries) (s : S) (k : K) :
    (proj (l.foldl step s)).lookup k = match c.lookup k with
      | none => (proj s).lookup k
      | some v => act k v ((proj s).lookup k) := by
  have hnodup : l.NodupKeys := (List.perm_nodupKeys hl).mpr c.nodupKeys
  have hlookup : c.lookup k = l.dlookup k := (List.perm_dlookup k hnodup hl).symm
  rw [hlookup]
  clear hl hlookup c
  induction l generalizing s with
  | nil => rfl
  | cons e l ih =>
    obtain ⟨k', v⟩ := e
    obtain ⟨hout, hrest⟩ := List.nodupKeys_cons.mp hnodup
    rw [List.foldl_cons, ih (step s ⟨k', v⟩) hrest, hstep]
    by_cases hk : k = k'
    · subst hk
      have hnone : l.dlookup k = none := List.dlookup_eq_none.mpr hout
      rw [List.dlookup_cons_eq, hnone, if_pos rfl]
    · rw [List.dlookup_cons_ne _ _ hk, if_neg hk]

/-- Two maps with the same entries, in whatever order they were stored. -/
def Same (m m' : GoMap K V) : Prop := ∀ k, m.lookup k = m'.lookup k

namespace Same

theorem refl (m : GoMap K V) : Same m m := fun _ => rfl

theorem erase_iff {m : GoMap K V} {k} : Same (m.erase k) m ↔ k ∉ m := by
  constructor
  · intro h
    rw [← lookup_eq_none, ← h k, lookup_erase]
  intro hk k'
  by_cases hkk : k' = k
  · rw [hkk, lookup_erase, lookup_eq_none.mpr hk]
  · exact lookup_erase_ne hkk

theorem erase_insert_iff {m : GoMap K V} {k v} : Same ((m.insert k v).erase k) m ↔ k ∉ m := by
  have herase : ∀ k', ((m.insert k v).erase k).lookup k' = (m.erase k).lookup k' := by
    intro k'
    by_cases hkk : k' = k
    · rw [hkk, lookup_erase, lookup_erase]
    · rw [lookup_erase_ne hkk, lookup_erase_ne hkk, lookup_insert_ne hkk]
  rw [← erase_iff]
  unfold Same
  simp [herase]

theorem not_mem {m m' : GoMap K V} {k : K} (h : Same m m') (hk : k ∉ m') : k ∉ m := by
  rw [← lookup_eq_none, h k, lookup_eq_none.mpr hk]

end Same

theorem forall_lookup {P : V → Prop} (h : ∀ e ∈ m.entries, P e.2) (k : K) (v : V)
    (hv : m.lookup k = some v) : P v :=
  h ⟨k, v⟩ (mem_lookup_iff.mp hv)

theorem forall_mem_list {m : GoMap K (List A)} {P : A → Prop}
    (h : ∀ e ∈ m.entries, ∀ a ∈ e.2, P a) (k : K) : ∀ a ∈ m.list k, P a := by
  intro a ha
  cases hl : m.lookup k with
  | none => simp [list, hl] at ha
  | some l =>
    rw [list_of_lookup hl] at ha
    exact h ⟨k, l⟩ (mem_lookup_iff.mp hl) a ha

end GoMap

end DMS
