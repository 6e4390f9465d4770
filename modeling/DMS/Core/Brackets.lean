import Mathlib.Data.List.Nodup

/-! # Bracketed marks

A list of marks, each of which opens or closes a key. The marks of every key alternate,
beginning with one that opens it.
-/

namespace DMS

open List

/-- The marks alternate after a mark `last`. -/
def Alternates : Bool → List Bool → Prop
  | _, [] => True
  | last, mark :: marks => mark ≠ last ∧ Alternates mark marks

instance decidableAlternates : ∀ last marks, Decidable (Alternates last marks)
  | _, [] => inferInstanceAs (Decidable True)
  | last, mark :: marks =>
    have := decidableAlternates mark marks
    inferInstanceAs (Decidable (mark ≠ last ∧ Alternates mark marks))

theorem alternates_append {last marks more} : Alternates last (marks ++ more) ↔
      Alternates last marks ∧ Alternates (marks.getLastD last) more := by
  induction marks generalizing last with
  | nil => exact (and_iff_right trivial).symm
  | cons mark marks ih =>
    have hlast : (mark :: marks).getLastD last = marks.getLastD mark := by
      cases marks <;> rfl
    rw [hlast]
    show mark ≠ last ∧ Alternates mark (marks ++ more) ↔ _
    rw [ih, ← and_assoc]
    rfl

theorem alternates_replicate {last mark} (n : Nat) :
    Alternates last (List.replicate n mark) ↔ n ≤ 1 ∧ (n = 1 → mark ≠ last) := by
  match n with
  | 0 => exact ⟨fun _ => ⟨by omega, by omega⟩, fun _ => trivial⟩
  | 1 => exact ⟨fun h => ⟨by omega, fun _ => h.1⟩, fun h => ⟨h.2 rfl, trivial⟩⟩
  | n + 2 => exact ⟨fun h => absurd rfl h.2.1, fun h => absurd h.1 (by omega)⟩

namespace Brackets

variable {K : Type} [DecidableEq K]

/-- The marks of one key: `true` opens it and `false` closes it. -/
def marksOf (k : K) (l : List (K × Bool)) : List Bool := (l.filter (·.1 = k)).map (·.2)

def opened (l : List (K × Bool)) (k : K) : Bool := (marksOf k l).getLastD false

def WellBracketed (l : List (K × Bool)) : Prop := ∀ k, Alternates false (marksOf k l)

def block (mark : Bool) (keys : List K) : List (K × Bool) := keys.map (·, mark)

theorem marksOf_append (k : K) (l m : List (K × Bool)) :
    marksOf k (l ++ m) = marksOf k l ++ marksOf k m := by
  simp [marksOf]

theorem marksOf_block (k : K) (mark : Bool) (keys : List K) :
    marksOf k (block mark keys) = List.replicate (keys.count k) mark := by
  induction keys with
  | nil => rfl
  | cons key keys ih =>
    by_cases hkey : key = k
    · subst hkey
      rw [count_cons_self, replicate_succ, ← ih]
      simp [marksOf, block]
    · rw [count_cons_of_ne hkey, ← ih]
      simp [marksOf, block, hkey]

omit [DecidableEq K] in
theorem block_append (mark : Bool) (keys more : List K) :
    block mark (keys ++ more) = block mark keys ++ block mark more :=
  map_append

theorem opened_append_block (l : List (K × Bool)) (mark : Bool) (keys : List K) (k : K) :
    opened (l ++ block mark keys) k = if k ∈ keys then mark else opened l k := by
  unfold opened
  rw [marksOf_append, marksOf_block]
  split
  · next hmem =>
    have hpos : 0 < keys.count k := count_pos_iff.mpr hmem
    obtain ⟨n, hn⟩ := Nat.exists_eq_succ_of_ne_zero (Nat.ne_of_gt hpos)
    rw [hn, replicate_succ', ← append_assoc, getLastD_concat]
  · next hmem =>
    rw [count_eq_zero.mpr hmem, replicate_zero, append_nil]

/-- A block of equal marks may follow when no key is named twice and each one is marked
otherwise so far. -/
theorem wellBracketed_append_block {l} (h : WellBracketed l) (mark : Bool) (keys : List K) :
    WellBracketed (l ++ block mark keys) ↔ keys.Nodup ∧ ∀ k ∈ keys, opened l k ≠ mark := by
  have hkey (k : K) : Alternates false (marksOf k (l ++ block mark keys)) ↔
      keys.count k ≤ 1 ∧ (keys.count k = 1 → mark ≠ opened l k) := by
    rw [marksOf_append, marksOf_block, alternates_append, alternates_replicate]
    exact and_iff_right (h k)
  unfold WellBracketed
  simp only [hkey]
  rw [forall_and, ← nodup_iff_count_le_one]
  refine and_congr_right fun hnodup => forall_congr' fun k => ?_
  constructor
  · intro hmark hmem heq
    exact hmark (count_eq_one_of_mem hnodup hmem) heq.symm
  · intro hmark hcount heq
    exact hmark (count_pos_iff.mp (by omega)) heq.symm

theorem closed_append_block {l} (h : WellBracketed l) (keys : List K) :
    (WellBracketed (l ++ block false keys) ∧ ∀ k, opened (l ++ block false keys) k = false) ↔
      keys.Nodup ∧ ∀ k, k ∈ keys ↔ opened l k = true := by
  simp only [wellBracketed_append_block h, opened_append_block, and_assoc]
  refine and_congr_right fun _ => ?_
  constructor
  · rintro ⟨hopen, hclosed⟩ k
    refine ⟨fun hmem => by simpa using hopen k hmem, fun hk => ?_⟩
    by_contra hmem
    have hk' := hclosed k
    rw [if_neg hmem, hk] at hk'
    cases hk'
  intro hiff
  refine ⟨fun k hmem => by simp [(hiff k).mp hmem], fun k => ?_⟩
  split
  · rfl
  · next hmem => simpa using fun hk => hmem ((hiff k).mpr hk)

end Brackets

end DMS
