import DMS.Ucan.Verify

/-! # The depth of a side chain

A require token admits chains that its subject anchors. `AllowAction` compares its depth limit
with the distance of the anchored link, counted from zero at the token that is shown; `verify`
compares the limit of a token with the depth at which it appears itself.
-/

namespace DMS.Ucan

open Did Option

namespace Token

/-- The token at distance `k` is the last one of the chain that `did` issued. -/
structure Topmost (t : Token) (did : DID) (k : Nat) : Prop where
  issued : ∃ q, t.lineage[k]? = some q ∧ q ≠ .foreign ∧ q.issuer = did
  last : ∀ j q, t.lineage[j]? = some q → q ≠ .foreign → q.issuer = did → j ≤ k

variable {t rt : Token} {did : DID} {k : Nat}

theorem Topmost.unique {j} (hj : t.Topmost did j) (hk : t.Topmost did k) : j = k := by
  obtain ⟨q, hq, hqf, hqd⟩ := hj.issued
  obtain ⟨r, hr, hrf, hrd⟩ := hk.issued
  exact Nat.le_antisymm (hk.last j q hq hqf hqd) (hj.last k r hr hrf hrd)

theorem Topmost.link {chain : Token} (h : chain.Topmost did k)
    (b : TokenBody) : (link b chain).Topmost did (k + 1) := by
  obtain ⟨q, hq, hqf, hqd⟩ := h.issued
  refine ⟨⟨q, by simpa [lineage] using hq, hqf, hqd⟩, ?_⟩
  intro j r hr hrf hrd
  cases j with
  | zero => exact Nat.zero_le _
  | succ j =>
    have hle := h.last j r (by simpa [lineage] using hr) hrf hrd
    omega

theorem anchorDepth_isSome : (t.anchorDepth did).isSome = t.anchor did := by
  induction t with
  | foreign => rfl
  | root b =>
    simp only [anchorDepth, anchor]
    split <;> simp_all
  | link b chain ih =>
    rw [anchorDepth, anchor, ← ih]
    cases chain.anchorDepth did with
    | some d => simp
    | none =>
      dsimp only
      split <;> simp_all

theorem topmost_of_anchorDepth (h : t.anchorDepth did = some k) : t.Topmost did k := by
  induction t generalizing k with
  | foreign => simp [anchorDepth] at h
  | root b =>
    obtain ⟨hissuer, rfl⟩ : b.issuer = did ∧ 0 = k := by simpa [anchorDepth] using h
    refine ⟨⟨root b, rfl, by simp, hissuer⟩, ?_⟩
    intro j q hq _ _
    cases j with
    | zero => exact Nat.le_refl 0
    | succ j => simp [lineage] at hq
  | link b chain ih =>
    rw [anchorDepth] at h
    cases hchain : chain.anchorDepth did with
    | some chainDepth =>
      rw [hchain] at h
      obtain rfl : chainDepth + 1 = k := some.inj h
      exact (ih hchain).link b
    | none =>
      rw [hchain] at h
      obtain ⟨hissuer, rfl⟩ : b.issuer = did ∧ 0 = k := by simpa using h
      refine ⟨⟨.link b chain, rfl, by simp, hissuer⟩, ?_⟩
      -- nothing of the chain was issued by `did`, or its depth would have been found
      have hanchor : chain.anchor did ≠ true := by
        rw [← anchorDepth_isSome, hchain]
        simp
      intro j q hq hqf hqd
      cases j with
      | zero => exact Nat.le_refl 0
      | succ j =>
        have hmem : q ∈ chain.lineage := List.mem_of_getElem? (by simpa [lineage] using hq)
        exact absurd (anchor_iff.mpr ⟨q, hmem, hqf, hqd⟩) hanchor

theorem anchorDepth_eq_some : t.anchorDepth did = some k ↔ t.Topmost did k := by
  constructor
  · exact topmost_of_anchorDepth
  intro h
  obtain ⟨q, hq, hqf, hqd⟩ := h.issued
  have hanchor : t.anchor did = true := anchor_iff.mpr ⟨q, List.mem_of_getElem? hq, hqf, hqd⟩
  rw [← anchorDepth_isSome] at hanchor
  obtain ⟨j, hj⟩ := isSome_iff_exists.mp hanchor
  rw [hj, (topmost_of_anchorDepth hj).unique h]

/-- The depth limit of `rt` as `verify` would apply it to the link that `rt` admits. -/
def WithinChainLimit (rt ot : Token) : Prop := ∃ k, ot.Topmost rt.subject k ∧ k + 1 ≤ rt.depth

structure Covers (rt ot : Token) : Prop where
  delegates : rt.action = .delegate
  outlives : rt.expireBefore ot.expire = false
  audience : rt.audienceAllows ot.audience = true
  capability : Capability.allImplied rt.capability ot.capability = true
  topic : Capability.allImplied rt.topic ot.topic = true

theorem allowAction_iff_topmost {ot} (hdepth : 0 < rt.depth) :
    rt.allowAction ot = true ↔ Covers rt ot ∧ ∃ k, ot.Topmost rt.subject k ∧ k ≤ rt.depth := by
  have hwithin : ∀ k, withinDepth rt.body k = true ↔ k ≤ rt.depth := by
    intro k
    rw [withinDepth_iff]
    change rt.depth = 0 ∨ k ≤ rt.depth ↔ _
    omega
  rw [allowAction_iff, ← anchorDepth_isSome]
  constructor
  · rintro ⟨hact, hexp, hsome, hlimit, haud, hcap, htopic⟩
    obtain ⟨k, hk⟩ := isSome_iff_exists.mp hsome
    exact ⟨⟨hact, hexp, haud, hcap, htopic⟩, k, anchorDepth_eq_some.mp hk,
      (hwithin k).mp (hlimit k hk)⟩
  rintro ⟨hcovers, k, htop, hle⟩
  have hk := anchorDepth_eq_some.mpr htop
  refine ⟨hcovers.delegates, hcovers.outlives, by rw [hk]; rfl, ?_, hcovers.audience,
    hcovers.capability, hcovers.topic⟩
  intro j hj
  obtain rfl : k = j := some.inj (hk.symm.trans hj)
  exact (hwithin k).mpr hle

/-- The two limits differ at one place: a chain whose topmost link lies at a distance of
exactly the limit is admitted, and `verify` would refuse it. -/
theorem allowAction_within_iff {rt : Token} (hdepth : 0 < rt.depth) (ot : Token) :
    (rt.allowAction ot = true → WithinChainLimit rt ot) ↔
      ¬ (Covers rt ot ∧ ot.Topmost rt.subject rt.depth) := by
  rw [allowAction_iff_topmost hdepth]
  constructor
  · rintro h ⟨hcovers, htop⟩
    obtain ⟨k, hk, hle⟩ := h ⟨hcovers, rt.depth, htop, Nat.le_refl _⟩
    have heq := hk.unique htop
    omega
  rintro h ⟨hcovers, k, htop, hle⟩
  refine ⟨k, htop, ?_⟩
  have hne : k ≠ rt.depth := by
    rintro rfl
    exact h ⟨hcovers, htop⟩
  omega

end Token

/-- Admits chains of `did:a` with a depth of at most one. -/
def sideToken : Token :=
  .sealed (.root ⟨.delegate, ⟨ascii "did:r"⟩, ⟨ascii "did:a"⟩, .zero, [], [⟨ascii "/dms"⟩], [1], 30,
    1, []⟩)

/-- `did:a` delegates to `did:b`, which issues the invocation. -/
def sideLink : Token :=
  .sealed (.root ⟨.delegate, ⟨ascii "did:a"⟩, ⟨ascii "did:b"⟩, .zero, [], [⟨ascii "/dms"⟩], [2], 30,
    0, []⟩)

def sideInvocation : Token :=
  .sealed (.link ⟨.invoke, ⟨ascii "did:b"⟩, ⟨ascii "did:c"⟩, .zero, [], [⟨ascii "/dms"⟩], [3],
    20, 0, []⟩ sideLink)

def selfInvocation : Token :=
  .sealed (.root ⟨.invoke, ⟨ascii "did:a"⟩, ⟨ascii "did:c"⟩, .zero, [], [⟨ascii "/dms"⟩], [3],
    20, 0, []⟩)

theorem sideToken_within_limit : sideToken.allowAction selfInvocation = true ∧
      Token.WithinChainLimit sideToken selfInvocation := by
  have hadmits : sideToken.allowAction selfInvocation = true := by decide
  refine ⟨hadmits, (Token.allowAction_within_iff (by decide) selfInvocation).mpr ?_ hadmits⟩
  rintro ⟨-, htop⟩
  have hdepth := Token.anchorDepth_eq_some.mpr htop
  exact absurd hdepth (by decide)

/-- The link that `did:a` issued lies at distance one. Chained on the side token, which
has a limit of one, it would put the side token at depth two. -/
theorem sideToken_admits_beyond_limit :
    sideInvocation.verify (samplePlatform fun _ => .ok []) 10 ∅ = .ok () ∧ 0 < sideToken.depth ∧
      sideToken.allowAction sideInvocation = true ∧
      ¬ Token.WithinChainLimit sideToken sideInvocation ∧
      Token.withinDepth sideToken.body 2 = false := by
  refine ⟨by decide, by decide, by decide, ?_, by decide⟩
  rintro ⟨k, htop, hle⟩
  have hk := Token.anchorDepth_eq_some.mpr htop
  have hlimit : sideToken.depth = 1 := by decide
  obtain rfl : 1 = k := some.inj hk
  omega

end DMS.Ucan
