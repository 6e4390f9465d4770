import DMS.Core.GoValue
import Mathlib.Algebra.Group.Int.Defs
import Mathlib.Algebra.Group.Nat.Defs
import Mathlib.Data.List.Infix

/-! # Texts inside strings

The functions of `strings` and `strconv` that names are put together and taken apart
with. `strings.Split` at one byte is `List.splitOn`.
-/

namespace DMS

open List

def dot : UInt8 := 46

def underscore : UInt8 := 95

/-- `strings.Cut`: what stands before and after the first occurrence of a separator. -/
def cut (sep : GoString) : GoString → Option (GoString × GoString)
  | [] => if sep = [] then some ([], []) else none
  | c :: rest =>
    if sep.isPrefixOf (c :: rest) then some ([], (c :: rest).drop sep.length)
    else (cut sep rest).map fun parts => (c :: parts.1, parts.2)

def digitsValue (digits : GoString) : Option Nat := digits.foldl
    (fun value d => value.bind fun n =>
      if 48 ≤ d ∧ d ≤ 57 then some (10 * n + (d.toNat - 48)) else none)
    (some 0)

/-- `strconv.Atoi` on a machine with 64 bits. -/
def atoi (text : GoString) : Option Int :=
  let (negative, digits) : Bool × GoString :=
    match text with
    | 45 :: digits => (true, digits)
    | 43 :: digits => (false, digits)
    | digits => (false, digits)
  if digits = [] then none
  else (digitsValue digits).bind fun n =>
    let value : Int := if negative then -(n : Int) else n
    if -2 ^ 63 ≤ value ∧ value < 2 ^ 63 then some value else none

/-- `%d` for a number that is not negative. -/
def itoa (n : Nat) : GoString := ascii (Nat.repr n)

theorem itoa_eq (n : Nat) :
    itoa n = (if n < 10 then [] else itoa (n / 10)) ++ [UInt8.ofNat (48 + n % 10)] := by
  have hdigit : ∀ d < 10, UInt8.ofNat d.digitChar.toNat = UInt8.ofNat (48 + d) := by decide
  simp only [itoa, ascii, Nat.toList_repr]
  rw [Nat.toDigits_eq_if (by decide)]
  split
  · next h => simp [hdigit n h, Nat.mod_eq_of_lt h]
  · simp [hdigit _ (Nat.mod_lt n (by decide))]

theorem digitsValue_itoa (n : Nat) :
    digitsValue (itoa n) = some n ∧ ∀ c ∈ itoa n, 48 ≤ c ∧ c ≤ 57 := by
  induction n using Nat.strongRecOn with
  | ind n ih =>
    have hdigit : ∀ d < 10, (48 ≤ UInt8.ofNat (48 + d) ∧ UInt8.ofNat (48 + d) ≤ 57) ∧
        (UInt8.ofNat (48 + d)).toNat - 48 = d := by decide
    obtain ⟨hrange, hvalue⟩ := hdigit _ (Nat.mod_lt n (by decide))
    rw [itoa_eq, digitsValue, foldl_append]
    generalize UInt8.ofNat (48 + n % 10) = d at hrange hvalue
    split
    · next h => simp [hrange, hvalue, Nat.mod_eq_of_lt h]
    · obtain ⟨hinit, hmem⟩ := ih (n / 10) (by omega)
      rw [digitsValue] at hinit
      simp only [hinit, foldl_cons, foldl_nil, Option.bind_some, hrange, hvalue, mem_append,
        mem_singleton]
      refine ⟨by simp; omega, ?_⟩
      rintro c (hc | rfl)
      · exact hmem c hc
      · exact hrange

theorem itoa_injective : Function.Injective itoa := fun m n h => by
  have hvalue := (digitsValue_itoa n).1
  rw [← h, (digitsValue_itoa m).1] at hvalue
  exact Option.some.inj hvalue

theorem atoi_digits {digits : GoString} {n : Nat} (hne : digits ≠ [])
    (hdigits : ∀ c ∈ digits, 48 ≤ c ∧ c ≤ 57) (hvalue : digitsValue digits = some n)
    (hn : n < 2 ^ 63) : atoi digits = some (n : Int) := by
  have hsign : ∀ c ds, c = 43 ∨ c = 45 → digits ≠ c :: ds := by
    rintro c ds hc rfl
    have := hdigits c mem_cons_self
    rcases hc with rfl | rfl <;> exact absurd this (by decide)
  rw [atoi]
  · rw [if_neg hne, hvalue, Option.bind_some, if_neg Bool.false_ne_true, if_pos (by omega)]
  · exact fun ds => hsign 45 ds (.inr rfl)
  · exact fun ds => hsign 43 ds (.inl rfl)

/-- `%d` -/
def decimal (i : Int) : GoString := (if i < 0 then ascii "-" else []) ++ itoa i.natAbs

theorem atoi_decimal {text i} (h : atoi text = some i) : atoi (decimal i) = some i := by
  have hrange : -2 ^ 63 ≤ i ∧ i < 2 ^ 63 := by
    unfold atoi at h
    dsimp only at h
    obtain ⟨-, h⟩ := Option.ite_none_left_eq_some.mp h
    obtain ⟨n, -, h⟩ := Option.bind_eq_some_iff.mp h
    obtain ⟨hrange, h⟩ := Option.ite_none_right_eq_some.mp h
    cases h
    exact hrange
  obtain ⟨hvalue, hdigits⟩ := digitsValue_itoa i.natAbs
  have hne : itoa i.natAbs ≠ [] := by simp [itoa_eq i.natAbs]
  unfold decimal
  split
  · next hi =>
    rw [show ascii "-" = [45] by decide, singleton_append, atoi, if_neg hne, hvalue,
      Option.bind_some, if_pos rfl, if_pos (by omega), Int.ofNat_natAbs_of_nonpos (by omega),
      Int.neg_neg]
  · next hi =>
    rw [nil_append, atoi_digits hne hdigits hvalue (by omega), Int.natAbs_of_nonneg (by omega)]

theorem not_mem_decimal {c : UInt8} (hc : c ≠ 45 ∧ ¬ (48 ≤ c ∧ c ≤ 57)) (i : Int) :
    c ∉ decimal i := by
  rw [decimal, mem_append]
  rintro (h | h)
  · split at h
    · exact hc.1 (by simpa [show ascii "-" = [45] by decide] using h)
    · cases h
  · exact hc.2 ((digitsValue_itoa _).2 c h)

theorem intercalate_append {α : Type} {sep : List α} {A B : List (List α)} (hA : A ≠ [])
    (hB : B ≠ []) : sep.intercalate (A ++ B) = sep.intercalate A ++ sep ++ sep.intercalate B := by
  induction A with
  | nil => exact absurd rfl hA
  | cons l A ih =>
    cases A with
    | nil => simp [intercalate_cons_of_ne_nil hB]
    | cons l' A =>
      have hrest := ih (cons_ne_nil l' A)
      simp_all [intercalate_cons_cons]

variable {c : UInt8}

theorem not_mem_of_splitOn_length {text : GoString}
    (h : (text.splitOn c).length = 1) : c ∉ text := by
  intro hc
  obtain ⟨pre, after, rfl⟩ := append_of_mem hc
  have hpos : ∀ t : GoString, 0 < (t.splitOn c).length := fun t =>
    length_pos_iff.mpr (splitOn_ne_nil c t)
  have h1 := hpos pre
  have h2 := hpos after
  rw [splitOn_append_cons_self, length_append] at h
  omega

/-- A text that is put together from two parts with a separator has no more parts exactly
when neither part has the separator. -/
theorem splitOn_length_two {x y : GoString} :
    ((x ++ c :: y).splitOn c).length = 2 ↔ c ∉ x ∧ c ∉ y := by
  have hpos : ∀ t : GoString, 0 < (t.splitOn c).length := fun t =>
    length_pos_iff.mpr (splitOn_ne_nil c t)
  constructor
  · intro h
    have h1 := hpos x
    have h2 := hpos y
    rw [splitOn_append_cons_self, length_append] at h
    exact ⟨not_mem_of_splitOn_length (by omega), not_mem_of_splitOn_length (by omega)⟩
  rintro ⟨hx, hy⟩
  rw [splitOn_append_cons_self, splitOn_eq_singleton hx, splitOn_eq_singleton hy]
  rfl

theorem splitOn_two_parts {x y : GoString} (hx : c ∉ x) (hy : c ∉ y) :
    (x ++ c :: y).splitOn c = [x, y] := by
  rw [splitOn_append_cons_self, splitOn_eq_singleton hx, splitOn_eq_singleton hy]
  rfl

theorem mem_splitOn {d} {s : GoString} (hc : c ∈ s) (hne : c ≠ d) :
    ∃ part ∈ s.splitOn d, c ∈ part := by
  by_cases hd : d ∈ s
  · obtain ⟨x, y, rfl⟩ := append_of_mem hd
    rw [splitOn_append_cons_self]
    rcases mem_append.mp hc with hx | hy
    · obtain ⟨part, hpart, hin⟩ := mem_splitOn hx hne
      exact ⟨part, mem_append_left _ hpart, hin⟩
    rcases mem_cons.mp hy with rfl | hy
    · exact absurd rfl hne
    · obtain ⟨part, hpart, hin⟩ := mem_splitOn hy hne
      exact ⟨part, mem_append_right _ hpart, hin⟩
  · exact ⟨s, by rw [splitOn_eq_singleton hd]; exact mem_singleton_self s, hc⟩
termination_by s.length

theorem not_mem_of_mem_splitOn {s part : GoString} (h : part ∈ s.splitOn c) : c ∉ part := by
  by_cases hc : c ∈ s
  · obtain ⟨x, y, rfl⟩ := append_of_mem hc
    rw [splitOn_append_cons_self] at h
    rcases mem_append.mp h with hx | hy
    · exact not_mem_of_mem_splitOn hx
    · exact not_mem_of_mem_splitOn hy
  rw [splitOn_eq_singleton hc, mem_singleton] at h
  rw [h]
  exact hc
termination_by s.length

variable {sep : GoString}

theorem cut_nil (hne : sep ≠ []) : cut sep [] = none := if_neg hne

theorem cut_cons (sep : GoString) (c : UInt8) (rest : GoString) :
    cut sep (c :: rest) = if sep.isPrefixOf (c :: rest) then some ([], (c :: rest).drop sep.length)
      else (cut sep rest).map fun parts => (c :: parts.1, parts.2) := rfl

theorem cut_eq_some {s x y} (h : cut sep s = some (x, y)) : s = x ++ (sep ++ y) := by
  induction s generalizing x with
  | nil =>
    rw [cut] at h
    split at h
    · next hsep =>
      cases h
      rw [hsep]
      rfl
    · cases h
  | cons c rest ih =>
    rw [cut_cons] at h
    split at h
    · next hpre =>
      cases h
      have hsplit := isPrefixOf_iff_prefix.mp hpre
      exact (prefix_iff_eq_append.mp hsplit).symm
    obtain ⟨⟨x', y'⟩, hrest, ⟨⟩⟩ := Option.map_eq_some_iff.mp h
    rw [ih hrest]
    rfl

theorem isPrefixOf_append_cons (hsep : c ∉ sep) (x y : GoString) :
    sep.isPrefixOf (x ++ c :: y) = sep.isPrefixOf x := by
  induction x generalizing sep with
  | nil =>
    cases sep with
    | nil => rfl
    | cons d sep =>
      have hd : (d == c) = false := beq_eq_false_iff_ne.mpr (ne_of_not_mem_cons hsep).symm
      change (d == c && sep.isPrefixOf y) = false
      rw [hd, Bool.false_and]
  | cons a x ih =>
    cases sep with
    | nil => rfl
    | cons d sep =>
      have hrest : sep.isPrefixOf (x ++ c :: y) = sep.isPrefixOf x := ih fun h => hsep (.tail _ h)
      change (d == a && sep.isPrefixOf (x ++ c :: y)) = (d == a && sep.isPrefixOf x)
      rw [hrest]

/-- Two texts with a byte between them that the separator does not have are cut in the
first one, or in the second one when the first has no separator. -/
theorem cut_append_cons (hsep : c ∉ sep) (hne : sep ≠ []) (x y : GoString) :
    cut sep (x ++ c :: y) = match cut sep x with
      | some parts => some (parts.1, parts.2 ++ c :: y)
      | none => (cut sep y).map fun parts => (x ++ c :: parts.1, parts.2) := by
  induction x with
  | nil =>
    have hnil : sep.isPrefixOf [] = false := by
      cases sep with
      | nil => exact absurd rfl hne
      | cons d sep => rfl
    have hpre := isPrefixOf_append_cons hsep [] y
    rw [nil_append] at hpre ⊢
    rw [cut_cons, hpre, hnil, cut_nil hne]
    rfl
  | cons a x ih =>
    have hpre := isPrefixOf_append_cons hsep (a :: x) y
    rw [cons_append] at hpre ⊢
    rw [cut_cons, cut_cons, hpre]
    split
    · next hin =>
      have hwhole := isPrefixOf_iff_prefix.mp hin
      have hlen := hwhole.length_le
      rw [← cons_append, drop_append_of_le_length hlen]
    rw [ih]
    cases cut sep x with
    | some parts => rfl
    | none =>
      cases cut sep y with
      | none | some parts => rfl

theorem cut_append_ne_none (x sep y : GoString) : cut sep (x ++ (sep ++ y)) ≠ none := by
  induction x with
  | nil =>
    cases sep with
    | nil => cases y <;> simp [cut]
    | cons c sep =>
      rw [nil_append, cons_append, cut_cons]
      simp
  | cons a x ih =>
    rw [cons_append, cut_cons]
    split
    · simp
    · simpa using ih

theorem cut_eq_none_of_not_mem {s} {c} (hc : c ∈ sep) (hs : c ∉ s) : cut sep s = none := by
  refine Option.eq_none_iff_forall_ne_some.mpr fun parts hparts => hs ?_
  rw [cut_eq_some hparts]
  simp [hc]

/-- A separator is the first one when there is none that ends before it does. -/
theorem cut_append_iff (hne : sep ≠ []) (x y : GoString) :
    cut sep (x ++ (sep ++ y)) = some (x, y) ↔ cut sep (x ++ sep.dropLast) = none := by
  induction x with
  | nil =>
    obtain ⟨d, rest, rfl⟩ := exists_cons_of_ne_nil hne
    have hshort : cut (d :: rest) (d :: rest).dropLast = none := by
      refine Option.eq_none_iff_forall_ne_some.mpr fun parts hparts => ?_
      have hlength := congrArg length (cut_eq_some hparts)
      simp at hlength
      omega
    simp [hshort, cut_cons]
  | cons a x ih =>
    have hpre : sep.isPrefixOf (a :: (x ++ (sep ++ y))) =
        sep.isPrefixOf (a :: (x ++ sep.dropLast)) := by
      have hsplit : a :: (x ++ (sep ++ y)) =
          (a :: (x ++ sep.dropLast)) ++ (sep.getLast hne :: y) := by
        conv_lhs => rw [← dropLast_append_getLast hne]
        simp
      rw [Bool.eq_iff_iff, isPrefixOf_iff_prefix, isPrefixOf_iff_prefix, hsplit]
      exact isPrefix_append_of_length (by simp; omega)
    rw [cons_append, cons_append, cut_cons, cut_cons, hpre]
    split
    · simp
    · simpa [Option.map_eq_some_iff] using ih

theorem cut_singleton {x} (hx : c ∉ x) (y : GoString) : cut [c] (x ++ c :: y) = some (x, y) := by
  refine (cut_append_iff (cons_ne_nil c []) x y).mpr (cut_eq_none_of_not_mem (.head _) ?_)
  rwa [dropLast_singleton, append_nil]

/-- What stands before and after the last occurrence of a byte. -/
def cutLast (c : UInt8) : GoString → Option (GoString × GoString)
  | [] => none
  | d :: rest =>
    match cutLast c rest with
    | some parts => some (d :: parts.1, parts.2)
    | none => if d = c then some ([], rest) else none

theorem cutLast_eq_none {s} : cutLast c s = none ↔ c ∉ s := by
  induction s with
  | nil => simp [cutLast]
  | cons d rest ih =>
    rw [cutLast, mem_cons, not_or, ← ih]
    cases cutLast c rest with
    | some parts => simp
    | none => simp [eq_comm]

theorem cutLast_eq_some {s pre after} (h : cutLast c s = some (pre, after)) : c ∉ after := by
  induction s generalizing pre with
  | nil => cases h
  | cons d rest ih =>
    rw [cutLast] at h
    cases hrest : cutLast c rest with
    | some parts =>
      rw [hrest] at h
      cases h
      exact ih hrest
    | none =>
      rw [hrest] at h
      obtain ⟨-, ⟨⟩⟩ := Option.ite_none_right_eq_some.mp h
      exact cutLast_eq_none.mp hrest

theorem cutLast_append (x : GoString) {y : GoString} (h : c ∉ y) :
    cutLast c (x ++ c :: y) = some (x, y) := by
  induction x with
  | nil =>
    rw [nil_append, cutLast, cutLast_eq_none.mpr h]
    exact if_pos rfl
  | cons d x ih => rw [cons_append, cutLast, ih]

example : cut (ascii "-standby-") (ascii "db-standby-01") = some (ascii "db", ascii "01") ∧
    atoi (ascii "01") = some 1 ∧ atoi (ascii "-") = none ∧ itoa 12 = ascii "12" := by decide

end DMS
