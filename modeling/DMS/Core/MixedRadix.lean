import Mathlib.Algebra.BigOperators.Group.List.Lemmas
import Mathlib.Algebra.Ring.Nat
import Mathlib.Data.Set.Function

/-! # Numbers in mixed radix

The digits of a number for a list of radices, the least significant one first. Below the
product of the radices a number and its digits determine each other.
-/

namespace DMS

def radixDigits : List Nat → Nat → List Nat
  | [], _ => []
  | r :: rs, n => n % r :: radixDigits rs (n / r)

def ofRadix : List Nat → List Nat → Nat
  | r :: rs, d :: ds => d + r * ofRadix rs ds
  | _, _ => 0

variable {rs ds : List Nat} {n : Nat}

theorem radixDigits_lt (hpos : ∀ r ∈ rs, 0 < r) (n : Nat) :
    List.Forall₂ (· < ·) (radixDigits rs n) rs := by
  induction rs generalizing n with
  | nil => exact .nil
  | cons r rs ih =>
    refine .cons (Nat.mod_lt n (hpos r (.head _))) (ih ?_ (n / r))
    exact fun r' hr' => hpos r' (.tail _ hr')

theorem ofRadix_lt (h : List.Forall₂ (· < ·) ds rs) : ofRadix rs ds < rs.prod := by
  induction h with
  | nil => simp [ofRadix]
  | @cons d r ds rs hd _ ih =>
    rw [ofRadix, List.prod_cons]
    have hrest : r * (ofRadix rs ds + 1) ≤ r * rs.prod := Nat.mul_le_mul_left r ih
    rw [Nat.mul_succ] at hrest
    omega

theorem radixDigits_ofRadix (h : List.Forall₂ (· < ·) ds rs) :
    radixDigits rs (ofRadix rs ds) = ds := by
  induction h with
  | nil => rfl
  | @cons d r ds rs hd _ ih =>
    have hr : 0 < r := by omega
    rw [ofRadix, radixDigits, Nat.add_mul_mod_self_left, Nat.mod_eq_of_lt hd,
      Nat.add_mul_div_left _ _ hr, Nat.div_eq_of_lt hd, Nat.zero_add, ih]

theorem ofRadix_radixDigits (h : n < rs.prod) : ofRadix rs (radixDigits rs n) = n := by
  induction rs generalizing n with
  | nil =>
    rw [List.prod_nil, Nat.lt_one_iff] at h
    exact h.symm
  | cons r rs ih =>
    rw [radixDigits, ofRadix, ih (Nat.div_lt_of_lt_mul h), Nat.mod_add_div]

theorem bijOn_radixDigits (hpos : ∀ r ∈ rs, 0 < r) :
    Set.BijOn (radixDigits rs) {n | n < rs.prod} {ds | List.Forall₂ (· < ·) ds rs} := by
  refine ⟨fun n _ => radixDigits_lt hpos n, ?_, ?_⟩
  · intro n hn m hm heq
    rw [← ofRadix_radixDigits hn, ← ofRadix_radixDigits hm, heq]
  · intro ds hds
    exact ⟨ofRadix rs ds, ofRadix_lt hds, radixDigits_ofRadix hds⟩

end DMS
