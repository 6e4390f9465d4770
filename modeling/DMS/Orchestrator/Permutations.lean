import DMS.Core.MixedRadix
import DMS.Orchestrator.BidRound
import Mathlib.Algebra.BigOperators.Ring.List
import Mathlib.Algebra.Ring.Int.Defs
import Mathlib.Data.Nat.Size

/-! # The candidates that can be drawn

The two generators of `makeCandidateDeployments`. An index is a number in mixed radix whose
digits are the places of the chosen bids; the small generator computes the weights of the
digits in `int64`, which is exact unless there are as many as `2 ^ 63` combinations.
-/

namespace DMS.Orchestrator

open Jobs List

def combinations (bids : GoMap GoString (List Bid)) : Nat :=
  (bids.entries.map fun e => e.2.length).prod

/-- The places of the bids that an index chooses. -/
def selections (index : Int) (ps : List Permutator) : List Nat :=
  ps.map fun p => ((index.tdiv p.mod).tmod p.bids.length).toNat

def chosen : List (GoString × List Bid) → List Nat → GoString → Option Bid
  | (node, bids) :: rest, d :: ds, n => if n = node then bids[d]? else chosen rest ds n
  | _, _, _ => none

/-- One of the bids for every node. -/
structure Combination (bids : GoMap GoString (List Bid)) (candidate : Candidate) : Prop where
  nodes : ∀ n, n ∈ candidate ↔ n ∈ bids
  listed : ∀ n b, candidate.lookup n = some b → b ∈ bids.list n

/-- `crand.Read` fills as many bytes as the number of combinations takes. -/
def randomBytes (modulus : Nat) : Nat := (modulus.size + 7) / 8

section Layout

variable {order : RangeOrder} {shuffle : GoString → RangeOrder} {cfg : EnsembleConfig}
  {bids : GoMap GoString (List Bid)} {g : Generator} {lists : List (GoString × List Bid)}

theorem lengths_layout (order : RangeOrder) (shuffle : GoString → RangeOrder)
    (bids : GoMap GoString (List Bid)) : ((layout order shuffle bids).map fun e => e.2.length).Perm
      (bids.entries.map fun e => e.2.length) := by
  rw [layout, map_map]
  have hlength : ∀ e ∈ order.visit bids.entries,
      ((fun e : GoString × List Bid => e.2.length) ∘ fun e => (e.1, (shuffle e.1).visit e.2)) e =
        e.2.length := fun e _ => ((shuffle e.1).perm e.2).length_eq
  rw [map_congr_left hlength]
  exact (order.perm bids.entries).map _

theorem prod_layout : ((layout order shuffle bids).map fun e => e.2.length).prod =
    combinations bids := (lengths_layout order shuffle bids).prod_eq

theorem generator_eq (hg : makeCandidateDeployments order shuffle cfg bids = some g) :
    g = ⟨g.big, (permutators g.big (layout order shuffle bids) 1).1, if g.big then maxPermutations
      else min (permutators false (layout order shuffle bids) 1).2 maxPermutations⟩ ∧
    (g.big = true ↔ ((layout order shuffle bids).map fun e => bitsOf e.2.length).sum > 63) := by
  unfold makeCandidateDeployments at hg
  split at hg
  · simp at hg
  obtain rfl := Option.some.inj hg
  have hbits (l : List (GoString × List Bid)) :
      l.foldl (fun bits e => bits + bitsOf e.2.length) 0 =
        (l.map fun e => bitsOf e.2.length).sum := by
    rw [sum_eq_foldl, foldl_map]
  rw [← layout, hbits]
  by_cases hbig : ((layout order shuffle bids).map fun e => bitsOf e.2.length).sum > 63
  · simp [hbig]
  · simp [hbig]

theorem prod_le_bits (hpos : ∀ e ∈ lists, 0 < e.2.length) :
    ∃ b : Nat, (lists.map fun e => bitsOf e.2.length).sum = b ∧
      (lists.map fun e => e.2.length).prod ≤ 2 ^ b := by
  induction lists with
  | nil => exact ⟨0, rfl, Nat.le_refl 1⟩
  | cons e rest ih =>
    obtain ⟨b, hsum, hle⟩ := ih fun e he => hpos e (.tail _ he)
    refine ⟨Nat.clog 2 e.2.length + b, ?_, ?_⟩
    · rw [map_cons, sum_cons, hsum, bitsOf, if_neg (hpos e (.head _)).ne', Int.natCast_add]
    · rw [Nat.pow_add]
      exact Nat.mul_le_mul (Nat.le_pow_clog (by decide) _) hle

theorem bmod_of_lt {n : Nat} (h : n < 2 ^ 63) : (n : Int).bmod (2 ^ 64) = n := by
  apply Int.bmod_eq_of_le <;> omega

theorem permutators_modulus (lists : List (GoString × List Bid)) {m : Int}
    (hm : m.bmod (2 ^ 64) = m) :
    (permutators false lists m).2 = (m * (lists.map fun e => e.2.length).prod).bmod (2 ^ 64) := by
  induction lists generalizing m with
  | nil => simpa [permutators] using hm.symm
  | cons e rest ih =>
    have hscale : (scale false m e.2.length).bmod (2 ^ 64) = scale false m e.2.length := by
      simp [scale]
    show (permutators false rest (scale false m e.2.length)).2 = _
    rw [ih hscale]
    simp [scale, Int.bmod_mul_bmod, map_cons, prod_cons, Int.mul_assoc]

/-- Both generators decode an index alike. Where a weight of the small one has overflowed, the
lists that are left have one bid each. -/
theorem selections_permutators (index : Nat) {big : Bool} {m : Int} {w : Nat}
    (hpos : ∀ e ∈ lists, 0 < e.2.length) (hm : m = w ∨ ∀ e ∈ lists, e.2.length = 1)
    (hbig : big = true ∨ w * (lists.map fun e => e.2.length).prod ≤ 2 ^ 63) :
    selections index (permutators big lists m).1 =
      radixDigits (lists.map fun e => e.2.length) (index / w) := by
  induction lists generalizing m w with
  | nil => rfl
  | cons e rest ih =>
    have hrest := fun e he => hpos e (.tail _ he)
    rw [map_cons, prod_cons, ← Nat.mul_assoc] at hbig
    show ((((index : Int).tdiv m).tmod e.2.length).toNat) ::
      selections index (permutators big rest (scale big m e.2.length)).1 = _
    have htail : scale big m e.2.length = w * e.2.length ∨ ∀ e ∈ rest, e.2.length = 1 := by
      rcases hm with rfl | hone
      · by_cases hfits : big = true ∨ w * e.2.length < 2 ^ 63
        · refine .inl ?_
          rw [scale, ← Int.natCast_mul]
          rcases hfits with rfl | hlt
          · rfl
          · rw [bmod_of_lt hlt, ite_self]
        -- There are `2 ^ 63` combinations already, and nothing is left to multiply.
        obtain ⟨hsmall, hlt⟩ := not_or.mp hfits
        have hle := hbig.resolve_left hsmall
        have hprod : (rest.map fun e => e.2.length).prod = 1 := by
          have hpos := prod_ne_zero (by
            intro hzero
            obtain ⟨e, he, hnil⟩ := mem_map.mp hzero
            exact (hrest e he).ne' hnil)
          have hmul := Nat.mul_le_mul_right (rest.map fun e => e.2.length).prod (Nat.not_lt.mp hlt)
          omega
        refine .inr fun e he => Nat.dvd_one.mp ?_
        rw [← hprod]
        exact dvd_prod (mem_map_of_mem he)
      · exact .inr fun e he => hone e (.tail _ he)
    rw [ih hrest htail hbig, map_cons, radixDigits, Nat.div_div_eq_div_mul]
    congr 1
    rcases hm with rfl | hone
    · rw [← Int.ofNat_tdiv, ← Int.ofNat_tmod, Int.toNat_natCast]
    · rw [hone e (.head _), Nat.mod_one]
      simp [Int.tmod_one]

theorem getPermutation_chosen (index : Int) {ps} (hpos : ∀ p ∈ ps, p.bids ≠ []) :
    ∃ c, getPermutation index ps = some c ∧ ∀ n, c.lookup n =
      chosen (ps.map fun p => (p.node, p.bids)) (selections index ps) n := by
  induction ps with
  | nil => exact ⟨∅, rfl, fun n => rfl⟩
  | cons p ps ih =>
    obtain ⟨c, hperm, hlookup⟩ := ih fun p hp => hpos p (.tail _ hp)
    obtain ⟨bid, hbid⟩ : ∃ bid,
        p.bids[((index.tdiv p.mod).tmod p.bids.length).toNat]? = some bid := by
      have hlength := length_pos_iff.mpr (hpos p (.head _))
      have hlt := Int.tmod_lt_of_pos (index.tdiv p.mod) (Int.natCast_pos.mpr hlength)
      exact ⟨_, getElem?_eq_getElem (by omega)⟩
    refine ⟨c.insert p.node bid, ?_, ?_⟩
    · rw [getPermutation, hbid, hperm]
    intro n
    rw [selections, map_cons, map_cons, chosen, hbid]
    split
    · next hn => rw [hn, AList.lookup_insert]
    · next hn => exact (AList.lookup_insert_ne hn).trans (hlookup n)

variable (hbids : ∀ n ∈ bids, bids.list n ≠ [])
  (hg : makeCandidateDeployments order shuffle cfg bids = some g)

include hbids in
theorem layout_pos : ∀ e ∈ layout order shuffle bids, 0 < e.2.length := by
  intro e he
  obtain ⟨hn, hperm⟩ := mem_layout he
  rw [hperm.length_eq]
  exact length_pos_iff.mpr (hbids e.1 hn)

include hbids hg

theorem combinations_le (hsmall : g.big = false) : combinations bids ≤ 2 ^ 63 := by
  have hpos : ∀ e ∈ layout order shuffle bids, 0 < e.2.length := layout_pos hbids
  obtain ⟨b, hsum, hle⟩ := prod_le_bits hpos
  have hbits := (generator_eq hg).2.not.mp (by simp [hsmall])
  rw [prod_layout] at hle
  exact hle.trans (Nat.pow_le_pow_right (by decide) (by omega))

theorem decodes {big} (hbig : big = true ∨ g.big = false) (index : Nat) :
    selections index (permutators big (layout order shuffle bids) 1).1 =
      radixDigits ((layout order shuffle bids).map fun e => e.2.length) index := by
  refine (selections_permutators index (layout_pos hbids) (.inl rfl) ?_).trans (by rw [Nat.div_one])
  rw [prod_layout, Nat.one_mul]
  exact hbig.imp_right fun hsmall => combinations_le hbids hg hsmall

theorem generator_selections (index : Nat) : selections index g.permutators =
    radixDigits ((layout order shuffle bids).map fun e => e.2.length) index := by
  rw [(generator_eq hg).1]
  exact decodes hbids hg (Bool.eq_false_or_eq_true g.big) index

theorem generator_chosen (index : Int) :
    ∃ c, getPermutation index g.permutators = some c ∧ ∀ n, c.lookup n =
      chosen (layout order shuffle bids) (selections index g.permutators) n := by
  rw [← generator_lists hg]
  apply getPermutation_chosen
  intro p hp
  have hmem : (p.node, p.bids) ∈ layout order shuffle bids := by
    rw [← generator_lists hg]
    exact mem_map_of_mem hp
  exact length_pos_iff.mp (layout_pos hbids _ hmem)

theorem generator_modulus (hsmall : g.big = false) (hlt : combinations bids < 2 ^ 63) :
    (permutators false (layout order shuffle bids) 1).2 = combinations bids ∧
      g.nperm = min (combinations bids : Int) maxPermutations ∧ 0 < combinations bids := by
  have hmodulus : (permutators false (layout order shuffle bids) 1).2 = combinations bids := by
    rw [permutators_modulus _ (by decide), prod_layout, Int.one_mul, bmod_of_lt hlt]
  refine ⟨hmodulus, ?_, ?_⟩
  · rw [(generator_eq hg).1, hmodulus]
    simp [hsmall]
  refine Nat.pos_of_ne_zero ?_
  refine prod_ne_zero fun hzero => ?_
  obtain ⟨e, he, hnil⟩ := mem_map.mp ((lengths_layout order shuffle bids).mem_iff.mpr hzero)
  exact (layout_pos hbids e he).ne' hnil

omit hbids hg

variable {candidate : Candidate}

theorem nextCandidate_of_draw {c draws left index} (hindex : g.index (draws left) = some index)
    (hperm : getPermutation index g.permutators = some candidate)
    (hcheck : checkPermutationEdgeConstraints c cfg candidate = true) :
    nextCandidate c cfg draws g (left + 1) = some (some (candidate, left)) := by
  simp [nextCandidate, hindex, hperm, hcheck]

theorem check_congr (c : Coordinator) (cfg : EnsembleConfig) {candidate' : Candidate}
    (h : GoMap.Same candidate candidate') : checkPermutationEdgeConstraints c cfg candidate =
      checkPermutationEdgeConstraints c cfg candidate' := by
  unfold checkPermutationEdgeConstraints
  simp [h _]

theorem Combination.places (h : Combination bids candidate)
    (order : RangeOrder) (shuffle : GoString → RangeOrder) :
    ∃ ds, List.Forall₂ (· < ·) ds ((layout order shuffle bids).map fun e => e.2.length) ∧
      ∀ n, chosen (layout order shuffle bids) ds n = candidate.lookup n := by
  have hpick : ∀ e ∈ layout order shuffle bids, ∃ b ∈ e.2, candidate.lookup e.1 = some b := by
    intro e he
    obtain ⟨hn, hperm⟩ := mem_layout he
    obtain ⟨b, hb⟩ := GoMap.exists_lookup ((h.nodes e.1).mpr hn)
    exact ⟨b, hperm.mem_iff.mpr (h.listed e.1 b hb), hb⟩
  have hplaces : ∀ lists, (∀ e ∈ lists, ∃ b ∈ e.2, candidate.lookup e.1 = some b) →
      ∃ ds, List.Forall₂ (· < ·) ds (lists.map fun e => e.2.length) ∧ ∀ n,
        chosen lists ds n = if n ∈ lists.map Prod.fst then candidate.lookup n else none := by
    intro lists
    induction lists with
    | nil => exact fun _ => ⟨[], .nil, fun n => rfl⟩
    | cons e rest ih =>
      intro hpick
      obtain ⟨ds, hds, hchosen⟩ := ih fun e he => hpick e (.tail _ he)
      obtain ⟨b, hb, hlookup⟩ := hpick e (.head _)
      obtain ⟨d, hd, hget⟩ := getElem_of_mem hb
      refine ⟨d :: ds, .cons hd hds, ?_⟩
      intro n
      by_cases hn : n = e.1
      · subst hn
        simp [chosen, getElem?_eq_getElem hd, hget, hlookup]
      · rw [chosen, if_neg hn, hchosen n, map_cons]
        simp only [mem_cons, hn, false_or]
  obtain ⟨ds, hds, hchosen⟩ := hplaces _ hpick
  refine ⟨ds, hds, fun n => (hchosen n).trans ?_⟩
  split
  · rfl
  rename_i hn
  rw [mem_nodes_layout, ← h.nodes] at hn
  exact (AList.lookup_eq_none.mpr hn).symm

include hbids hg

theorem combination_iff (candidate : Candidate) : Combination bids candidate ↔
    ∃ index < combinations bids, ∃ perm, getPermutation index g.permutators = some perm ∧
      GoMap.Same perm candidate := by
  constructor
  · intro h
    obtain ⟨ds, hds, hchosen⟩ := h.places order shuffle
    refine ⟨ofRadix ((layout order shuffle bids).map fun e => e.2.length) ds, ?_, ?_⟩
    · rw [← prod_layout]
      exact ofRadix_lt hds
    obtain ⟨perm, hperm, hlookup⟩ := generator_chosen hbids hg
      (ofRadix ((layout order shuffle bids).map fun e => e.2.length) ds)
    refine ⟨perm, hperm, fun n => ?_⟩
    rw [hlookup, generator_selections hbids hg, radixDigits_ofRadix hds, hchosen]
  rintro ⟨index, _, perm, hperm, hsame⟩
  obtain ⟨hnodes, hlisted⟩ := candidate_of_generator hg hperm
  constructor
  · intro n
    rw [← hnodes, ← AList.lookup_isSome, ← AList.lookup_isSome, hsame n]
  · intro n b hb
    exact hlisted n b ((hsame n).trans hb)

theorem index_drawn (hreach : g.big = true ∨ (combinations bids : Int) ≤ maxPermutations)
    {index} (hindex : index < combinations bids) :
    (index < if g.big then 256 ^ randomBytes (combinations bids) else g.nperm.toNat) ∧
      g.index (some index) = some (index : Int) ∧ ∃ left, g.nperm.toNat = left + 1 := by
  cases hbig : g.big with
  | true =>
    refine ⟨?_, by simp [Generator.index, hbig], ?_⟩
    · calc
        index < 2 ^ (combinations bids).size := hindex.trans (Nat.lt_size_self _)
        _ ≤ 2 ^ (8 * randomBytes (combinations bids)) :=
          Nat.pow_le_pow_right (by decide) (by unfold randomBytes; omega)
        _ = 256 ^ randomBytes (combinations bids) := Nat.pow_mul ..
    · rw [(generator_eq hg).1, hbig]
      exact ⟨999999, rfl⟩
  | false =>
    have hle := hreach.resolve_left (by simp [hbig])
    have hmax : maxPermutations = 1000000 := rfl
    obtain ⟨_, hnperm, hpos⟩ := generator_modulus hbids hg hbig (by omega)
    rw [min_eq_left hle] at hnperm
    refine ⟨by simpa [hnperm] using hindex, ?_, combinations bids - 1, by omega⟩
    rw [Generator.index, hbig, hnperm, Option.getD_some, ← Int.ofNat_tmod, Nat.mod_eq_of_lt hindex]
    rfl

/-- What the small generator needs is that the number of combinations is not `2 ^ 63`, which
takes 63 bits and does not fit an `int64`. -/
theorem int64_product_iff (hsmall : g.big = false) :
    ((permutators false (layout order shuffle bids) 1).2 = combinations bids ∧
      0 < (permutators false (layout order shuffle bids) 1).2 ∧
      (cfg.edges = [] → ∀ c draws, ∃ candidate left,
        nextCandidate c cfg draws g g.nperm.toNat = some (some (candidate, left)))) ↔
    combinations bids ≠ 2 ^ 63 := by
  constructor
  · rintro ⟨hmodulus, hpos, _⟩ heq
    rw [permutators_modulus _ (by decide), prod_layout, heq] at hpos
    exact absurd hpos (by decide)
  intro hne
  have hlt := lt_of_le_of_ne (combinations_le hbids hg hsmall) hne
  obtain ⟨hmodulus, hnperm, hpos⟩ := generator_modulus hbids hg hsmall hlt
  rw [hmodulus]
  refine ⟨rfl, Int.natCast_pos.mpr hpos, fun hedges c draws => ?_⟩
  obtain ⟨left, hleft⟩ : ∃ left, g.nperm.toNat = left + 1 := by
    refine ⟨g.nperm.toNat - 1, ?_⟩
    have hmax : 0 < maxPermutations := by decide
    omega
  obtain ⟨candidate, hperm, _⟩ := generator_chosen hbids hg
    (((draws left).getD 0 : Int).tmod g.nperm)
  refine ⟨candidate, left, ?_⟩
  rw [hleft]
  refine nextCandidate_of_draw ?_ hperm ?_
  · simp [Generator.index, hsmall]
  · simp [checkPermutationEdgeConstraints, hedges]

/-- The generators decode an index in mixed radix, so every combination that passes the check
can be drawn, and nothing else is returned. -/
theorem generators_draw_all : (∀ big, (big = true ∨ g.big = false) → ∀ index : Nat,
      selections index (permutators big (layout order shuffle bids) 1).1 =
        radixDigits ((layout order shuffle bids).map fun e => e.2.length) index) ∧
    Set.BijOn (fun index : Nat => selections index g.permutators)
      {index | index < combinations bids}
      {ds | List.Forall₂ (· < ·) ds ((layout order shuffle bids).map fun e => e.2.length)} ∧
    (∀ index : Nat, ∃ perm, getPermutation index g.permutators = some perm ∧ ∀ n,
      perm.lookup n = chosen (layout order shuffle bids) (selections index g.permutators) n) ∧
    (∀ candidate, Combination bids candidate ↔ ∃ index < combinations bids, ∃ perm,
      getPermutation index g.permutators = some perm ∧ GoMap.Same perm candidate) ∧
    ((g.big = true ∨ (combinations bids : Int) ≤ maxPermutations) →
      ∀ c candidate, Combination bids candidate →
        checkPermutationEdgeConstraints c cfg candidate = true →
        ∃ draw, (draw < if g.big then 256 ^ randomBytes (combinations bids) else g.nperm.toNat) ∧
          ∃ perm left, GoMap.Same perm candidate ∧
            nextCandidate c cfg (fun _ => some draw) g g.nperm.toNat = some (some (perm, left))) ∧
    ∀ c draws left perm left', nextCandidate c cfg draws g left = some (some (perm, left')) →
      Combination bids perm ∧ checkPermutationEdgeConstraints c cfg perm = true := by
  refine ⟨fun big hbig => decodes hbids hg hbig, ?_, fun index => generator_chosen hbids hg index,
    combination_iff hbids hg, ?_, ?_⟩
  · have hpos : ∀ r ∈ (layout order shuffle bids).map fun e => e.2.length, 0 < r := by
      intro r hr
      obtain ⟨e, he, rfl⟩ := mem_map.mp hr
      exact layout_pos hbids e he
    have hbij := bijOn_radixDigits hpos
    rw [prod_layout] at hbij
    exact hbij.congr fun index _ => (generator_selections hbids hg index).symm
  · intro hreach c candidate hcandidate hcheck
    obtain ⟨index, hindex, perm, hperm, hsame⟩ := (combination_iff hbids hg candidate).mp hcandidate
    obtain ⟨hdraw, hdrawn, left, hleft⟩ := index_drawn hbids hg hreach hindex
    refine ⟨index, hdraw, perm, left, hsame, ?_⟩
    rw [hleft]
    exact nextCandidate_of_draw hdrawn hperm ((check_congr c cfg hsame).trans hcheck)
  intro c draws left perm left' h
  obtain ⟨⟨index, hperm⟩, hcheck⟩ := nextCandidate_permutation h
  obtain ⟨hnodes, hlisted⟩ := candidate_of_generator hg hperm
  exact ⟨⟨hnodes, hlisted⟩, hcheck⟩

end Layout

def eightBids (nodes : Nat) : GoMap GoString (List Bid) := (List.range nodes).foldl
    (fun m i => m.insert [i.toUInt8] (List.replicate 8 (sampleBid "node" "peer"))) ∅

def sampleGenerator (nodes : Nat) : Option Generator :=
  makeCandidateDeployments .stored (fun _ => .stored)
    (sampleEnsemble [("node", "", nodes - 1)] []) (eightBids nodes)

theorem int64_product_one : ∃ g, sampleGenerator 1 = some g ∧ g.big = false ∧
      ((permutators false (layout .stored (fun _ => .stored) (eightBids 1)) 1).2 =
          combinations (eightBids 1) ∧
        0 < (permutators false (layout .stored (fun _ => .stored) (eightBids 1)) 1).2 ∧
        ((sampleEnsemble [("node", "", 0)] []).edges = [] → ∀ c draws, ∃ candidate left,
          nextCandidate c (sampleEnsemble [("node", "", 0)] []) draws g g.nperm.toNat =
            some (some (candidate, left)))) := by
  obtain ⟨g, hg⟩ := Option.isSome_iff_exists.mp
    (show (sampleGenerator 1).isSome = true by decide +kernel)
  have hbig : (sampleGenerator 1).map Generator.big = some false := by decide +kernel
  rw [hg, Option.map_some, Option.some.injEq] at hbig
  exact ⟨g, hg, hbig, (int64_product_iff (by decide) hg hbig).mpr (by decide)⟩

/-- Twenty-one nodes with eight bids each take 63 bits, and no candidate is offered. -/
theorem int64_product_overflows : ∃ g, sampleGenerator 21 = some g ∧ g.big = false ∧
      (∀ n ∈ (eightBids 21).keys, ((eightBids 21).list n).length = 8) ∧
      (sampleEnsemble [("node", "", 20)] []).edges = [] ∧
      (permutators false (layout .stored (fun _ => .stored) (eightBids 21)) 1).2 = -2 ^ 63 ∧
      ∀ c draws, nextCandidate c (sampleEnsemble [("node", "", 20)] []) draws g g.nperm.toNat =
        some none := by
  obtain ⟨g, hg⟩ := Option.isSome_iff_exists.mp
    (show (sampleGenerator 21).isSome = true by decide +kernel)
  have hboth : (sampleGenerator 21).map (fun g => (g.big, g.nperm.toNat)) = some (false, 0) := by
    decide +kernel
  rw [hg, Option.map_some, Option.some.injEq, Prod.mk.injEq] at hboth
  refine ⟨g, hg, hboth.1, by decide +kernel, rfl, by decide +kernel, fun c draws => ?_⟩
  rw [hboth.2, nextCandidate]

theorem generators_draw_eight :
    ∃ g, sampleGenerator 1 = some g ∧ Set.BijOn (fun index : Nat => selections index g.permutators)
        {index | index < combinations (eightBids 1)} {ds | List.Forall₂ (· < ·) ds
          ((layout .stored (fun _ => .stored) (eightBids 1)).map fun e => e.2.length)} := by
  obtain ⟨g, hg⟩ := Option.isSome_iff_exists.mp
    (show (sampleGenerator 1).isSome = true by decide +kernel)
  exact ⟨g, hg, (generators_draw_all (by decide) hg).2.1⟩

end DMS.Orchestrator
