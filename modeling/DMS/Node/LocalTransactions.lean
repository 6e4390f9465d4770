import DMS.Core.GoTime
import DMS.Core.Paging
import Mathlib.Data.List.Sort

/-! # Listing local transactions

`handleListLocalTransactions` of `dms/node/behaviors_contract.go`. The end of a page is the
sum of two integers of the request, which wraps around in 64 bits. The page then ends before
it starts, and the slice expression panics.
-/

namespace DMS.Node

open List Paging

/-- What the order of a listing depends on, and what is only read by the filters. -/
structure LocalTransaction (ρ : Type) where
  status : GoString
  createdAt : Int
  rest : ρ

/-- `matching` are the filters of the request. -/
structure LocalTransactionsRequest (ρ : Type) where
  matching : LocalTransaction ρ → Bool
  sortBy : GoString
  offset : Int
  limit : Int

structure LocalTransactionsResponse (α : Type) where
  transactions : List α
  total : Int
  hasMore : Bool
  nextOffset : Int

/-- `strings.ToLower` and `strings.TrimSpace` -/
structure TextCase where
  toLower : GoString → GoString
  trimSpace : GoString → GoString

variable {α ρ : Type} (t : TextCase)

def txSortLess (field : GoString) (left right : LocalTransaction ρ) : Bool :=
  if field = ascii "status" then t.toLower left.status < t.toLower right.status
  else left.createdAt < right.createdAt

def sortLocalTransactions (sortBy : GoString) (txs : List (LocalTransaction ρ)) :
    List (LocalTransaction ρ) :=
  let trimmed := t.trimSpace sortBy
  let field := if (ascii "-").isPrefixOf trimmed then trimmed.drop 1 else trimmed
  txs.insertionSort fun left right =>
    if (ascii "-").isPrefixOf sortBy then !txSortLess t field left right
    else !txSortLess t field right left

/-- `none` is the panic of the slice expression. -/
def paginateLocalTransactions (txs : List α) (offset limit : Int) : Option (List α) :=
  let offset := max offset 0
  if txs.length ≤ offset then some []
  else if limit ≤ 0 then some (txs.drop offset.toNat)
  else
    let last := min (int64 (offset + limit)) txs.length
    if last < offset then none else some ((txs.drop offset.toNat).take (last - offset).toNat)

/-- What follows the filters and the sort. -/
def respond (txs : List α) (offset limit : Int) : Option (LocalTransactionsResponse α) :=
  (paginateLocalTransactions txs offset limit).map fun page =>
    let next := int64 (offset + page.length)
    let hasMore : Bool := 0 < limit ∧ next < txs.length
    ⟨page, txs.length, hasMore, if hasMore then next else 0⟩

def handleListLocalTransactions (txs : List (LocalTransaction ρ))
    (req : LocalTransactionsRequest ρ) :
    Option (LocalTransactionsResponse (LocalTransaction ρ)) :=
  respond (sortLocalTransactions t req.sortBy (txs.filter req.matching)) req.offset req.limit

/-- Asking again from the next offset for as long as there is more. -/
def followOffsets (list : Int → Option (LocalTransactionsResponse α)) :
    Nat → Int → Option (List α)
  | 0, _ => none
  | calls + 1, offset =>
    (list offset).bind fun resp =>
      if resp.hasMore then (followOffsets list calls resp.nextOffset).map (resp.transactions ++ ·)
      else some resp.transactions

variable {txs : List α}

theorem int64_cases {n : Int} (hn : 0 ≤ n) (hlt : n < 2 ^ 64) :
    n < 2 ^ 63 ∧ int64 n = n ∨ 2 ^ 63 ≤ n ∧ int64 n = n - 2 ^ 64 := by
  rw [int64, Int.bmod_def]
  omega

theorem int64_of_lt {n : Int} (hn : 0 ≤ n) (hlt : n < 2 ^ 63) : int64 n = n := by
  have hint := @int64_cases n hn (by omega)
  omega

theorem respond_isSome {off limit : Int} (hlen : txs.length ≤ 2 ^ 60) (hlimit : limit < 2 ^ 63) :
    (respond txs off limit).isSome = true ↔
      ¬ (0 < off ∧ off < txs.length ∧ 0 < limit ∧ 2 ^ 63 ≤ off + limit) := by
  rw [respond, Option.isSome_map, paginateLocalTransactions]
  dsimp only
  split
  · simp
    omega
  split
  · simp
    omega
  have hint := @int64_cases (max off 0 + limit) (by omega) (by omega)
  split <;> simp <;> omega

variable {size : Nat} (hsize : 1 ≤ size)

include hsize

theorem paginate_eq_page {off : Nat} (hsum : off + size < 2 ^ 63) :
    paginateLocalTransactions txs off size = some (page some size txs off) := by
  unfold paginateLocalTransactions page
  dsimp only
  rw [filterMap_some, Int.max_eq_left (by omega)]
  split
  · rw [drop_eq_nil_of_le (by omega), take_nil]
  rw [if_neg (by omega), int64_of_lt (by omega) (by omega), if_neg (by omega), Option.some.injEq,
    Int.toNat_natCast, take_eq_take_iff, length_drop]
  omega

theorem followOffsets_eq_collect (hlen : txs.length ≤ 2 ^ 60) (hsize' : size < 2 ^ 63) (calls : Nat)
    {off : Nat} (hoffset : off = 0 ∨ off + size ≤ 2 ^ 61) :
    followOffsets (fun off => respond txs off size) calls off =
      collect some size txs calls off := by
  induction calls generalizing off with
  | zero => rfl
  | succ calls ih =>
    have hseen : (page some size txs off).length = min size (txs.length - off) := by
      rw [page, filterMap_some, length_take, length_drop]
    unfold followOffsets collect respond
    dsimp only
    rw [paginate_eq_page hsize (by omega), Option.map_some, Option.bind_some,
      int64_of_lt (by omega) (by omega)]
    generalize page some size txs off = seen at hseen ⊢
    by_cases hmore : off + seen.length < txs.length
    · have hnext := @ih (off + seen.length) (.inr (by omega))
      have htest : 0 < (size : Int) ∧ (off : Int) + seen.length < txs.length := by omega
      rw [if_pos hmore, ← hnext, decide_eq_true htest, if_pos rfl, if_pos rfl, Int.natCast_add]
      rfl
    have htest : ¬ (0 < (size : Int) ∧ (off : Int) + seen.length < txs.length) := by omega
    rw [if_neg hmore, decide_eq_false htest]
    rfl

omit hsize

/-- A slice of pointers has at most `2 ^ 60` elements. The handler answers unless a later page
ends after the last integer, and paging from the start lists every match exactly once. -/
theorem local_transactions_paged_iff (txs : List (LocalTransaction ρ))
    (req : LocalTransactionsRequest ρ) (hlen : txs.length ≤ 2 ^ 60) (hlimit : req.limit < 2 ^ 63) :
    ((handleListLocalTransactions t txs req).isSome = true ↔
      ¬ (0 < req.offset ∧ req.offset < (txs.filter req.matching).length ∧ 0 < req.limit ∧
        2 ^ 63 ≤ req.offset + req.limit)) ∧ (1 ≤ req.limit → ∃ calls seen,
      followOffsets (fun offset => handleListLocalTransactions t txs { req with offset }) calls 0 =
        some seen ∧ seen.Perm (txs.filter req.matching)) := by
  have hperm : (sortLocalTransactions t req.sortBy (txs.filter req.matching)).Perm
    (txs.filter req.matching) := perm_insertionSort ..
  have hsorted := (length_filter_le req.matching txs).trans hlen
  rw [← hperm.length_eq] at hsorted ⊢
  refine ⟨respond_isSome hsorted hlimit, ?_⟩
  intro hone
  obtain ⟨size, hsize⟩ := Int.eq_ofNat_of_zero_le (show 0 ≤ req.limit by omega)
  obtain ⟨calls, seen, hseen, hall⟩ : Complete some size
    (sortLocalTransactions t req.sortBy (txs.filter req.matching)) :=
    (complete_iff (by omega)).mpr fun _ _ => rfl
  refine ⟨calls, seen, ?_, hall.trans (by rwa [filterMap_some])⟩
  rw [← hseen, ← followOffsets_eq_collect (by omega) hsorted (by omega) calls (.inl rfl), ← hsize]
  rfl

def twoTransactions : List (LocalTransaction Unit) := [⟨[], 1, ()⟩, ⟨[], 2, ()⟩]

def sampleListing (offset limit : Int) : LocalTransactionsRequest Unit :=
  ⟨fun _ => true, [], offset, limit⟩

theorem local_transactions_listed :
    (handleListLocalTransactions ⟨id, id⟩ twoTransactions (sampleListing 1 1)).isSome = true :=
  (local_transactions_paged_iff ⟨id, id⟩ twoTransactions (sampleListing 1 1) (by decide)
    (by decide)).1.mpr (by decide)

theorem second_page_panics :
    handleListLocalTransactions ⟨id, id⟩ twoTransactions (sampleListing 1 (2 ^ 63 - 1)) = none :=
  by rfl

end DMS.Node
