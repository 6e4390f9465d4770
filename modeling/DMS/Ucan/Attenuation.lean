import DMS.Ucan.Verify

/-! # Attenuation along a delegation chain

Verification compares a token with the next one of its chain only. `Narrows` states what one link
guarantees; it is transitive once no path is empty, so that the guarantee reaches every ancestor.
-/

namespace DMS.Ucan.Token

open Did List

structure Named (t : Token) : Prop where
  capability : ∀ c ∈ t.capability, c.text ≠ []
  topic : ∀ c ∈ t.topic, c.text ≠ []

/-- The authority of `child` lies within that of `parent`. -/
structure Narrows (child parent : Token) : Prop where
  named : parent.Named
  capability : Capability.allImplied parent.capability child.capability = true
  topic : Capability.allImplied parent.topic child.topic = true
  audience : parent.audience.empty = false → child.audience = parent.audience
  expire : child.expire ≤ parent.expire

theorem Narrows.trans {a b c} (hab : Narrows a b) (hbc : Narrows b c) : Narrows a c where
  named := hbc.named
  capability := Capability.allImplied_trans hbc.named.capability hbc.capability hab.capability
  topic := Capability.allImplied_trans hbc.named.topic hbc.topic hab.topic
  audience := by
    intro hc
    have hb := hbc.audience hc
    rw [hab.audience (by rw [hb]; exact hc), hb]
  expire := Nat.le_trans hab.expire hbc.expire

instance : Trans Narrows Narrows Narrows := ⟨Narrows.trans⟩

theorem Linked.narrows {child parent : Token} (h : Linked child.body parent)
    (hnamed : parent.Named) (hcap : child.capability ≠ []) : Narrows child parent := by
  obtain ⟨c, hc⟩ := exists_mem_of_ne_nil _ hcap
  obtain ⟨_, _, _, haud, htopic, _⟩ := allowDelegationLink_iff.mp (h.allowed c hc)
  refine ⟨hnamed, h.allImplied, htopic, ?_, ?_⟩
  · intro hne
    rcases audienceAllows_iff.mp haud with hempty | heq
    · rw [hempty] at hne; exact Bool.noConfusion hne
    · exact heq.symm
  · have hmem := expireBefore_eq_false_iff.mp h.outlives parent parent.mem_lineage_self
    exact hmem.2

theorem Linked.capability_ne_nil {child parent : Token} (h : Linked child.body parent)
    (hcap : child.capability ≠ []) : parent.capability ≠ [] := by
  obtain ⟨c, hc⟩ := exists_mem_of_ne_nil _ hcap
  obtain ⟨g, hg, _⟩ := Capability.allImplied_iff.mp h.allImplied c hc
  exact ne_nil_of_mem hg

theorem isChain_narrows {l t}
    (hchain : (t :: l).IsChain fun child parent => Linked child.body parent)
    (hnamed : ∀ q ∈ l, q.Named) (hcap : t.capability ≠ []) : (t :: l).IsChain Narrows := by
  induction l generalizing t with
  | nil => exact isChain_singleton t
  | cons q l ih =>
    obtain ⟨hlink, hrest⟩ := isChain_cons_cons.mp hchain
    have hq : q.Named := hnamed q (by simp)
    refine isChain_cons_cons.mpr ⟨hlink.narrows hq hcap, ?_⟩
    exact ih hrest (fun r hr => hnamed r (by simp [hr])) (hlink.capability_ne_nil hcap)

theorem lineage_eq_cons (t : Token) : t.lineage = t :: t.lineage.tail := by
  cases t <;> rfl

theorem Valid.narrows {p rev} {t : Token} {depth}
    (hvalid : t.Valid p rev depth) (hact : t.action ≠ .revoke) (hcap : t.capability ≠ [])
    (hnamed : ∀ q ∈ t.lineage, q.Named) {q} (hq : q ∈ t.lineage.tail) : Narrows t q := by
  have hchain := hvalid.isChain hact
  rw [lineage_eq_cons] at hchain hnamed
  have hnarrows := isChain_narrows hchain (fun r hr => hnamed r (by simp [hr])) hcap
  exact hnarrows.rel_cons hq

/-- A token that verifies has, at every distance `k` up its chain, an unrevoked delegation that
covers its capabilities and topics, fixes its audience if it names one, outlives it and admits a
chain of that length; and every issuer of the chain is the subject of the next token. -/
theorem verify_attenuates {p : Platform} {now : Nat} {revoke : RevocationSet} {t : Token}
    (hact : t.action ≠ .revoke) (hcap : t.capability ≠ [])
    (hverify : t.verify p now revoke = .ok ()) (hnamed : ∀ q ∈ t.lineage, q.Named) :
    (∀ k anc, 0 < k → t.lineage[k]? = some anc → anc.action = .delegate ∧
      (∀ c ∈ t.capability, ∃ g ∈ anc.capability, g.implies c = true) ∧
      (∀ c ∈ t.topic, ∃ g ∈ anc.topic, g.implies c = true) ∧
      (anc.audience.empty = false → t.audience = anc.audience) ∧ t.expire ≤ anc.expire ∧
      (anc.depth = 0 ∨ k ≤ anc.depth) ∧ revoke.revoked anc.revocationKey = false) ∧
    (∀ k child parent, t.lineage[k]? = some child → t.lineage[k + 1]? = some parent →
      child.issuer = parent.subject) := by
  obtain ⟨_, hvalid⟩ := verify_eq_ok_iff.mp hverify
  constructor
  · intro k anc hk hanc
    have hstands := hvalid.stands hact hanc
    have hmem : anc ∈ t.lineage.tail := by
      obtain ⟨j, rfl⟩ : ∃ j, k = j + 1 := ⟨k - 1, by omega⟩
      apply mem_of_getElem?
      rw [getElem?_tail]
      exact hanc
    have hnarrows := hvalid.narrows hact hcap hnamed hmem
    have hwithin := withinDepth_iff.mp hstands.within
    refine ⟨hstands.delegates hk, Capability.allImplied_iff.mp hnarrows.capability,
      Capability.allImplied_iff.mp hnarrows.topic, hnarrows.audience, hnarrows.expire, ?_,
      hstands.unrevoked⟩
    simpa [depth] using hwithin
  intro k child parent hchild hparent
  obtain ⟨hlt, rfl⟩ := List.getElem?_eq_some_iff.mp hparent
  obtain ⟨_, rfl⟩ := List.getElem?_eq_some_iff.mp hchild
  exact (isChain_iff_getElem.mp (hvalid.isChain hact) k hlt).issuer

/-- A delegation by `did:a` to `did:b`, and an invocation that `did:b` chains on it. -/
def sampleChain : Token :=
  let parent : Token := .sealed (.root
    ⟨.delegate, ⟨ascii "did:a"⟩, ⟨ascii "did:b"⟩, .zero, [], [⟨ascii "/dms"⟩], [1], 20, 1, []⟩)
  .sealed (.link
    ⟨.invoke, ⟨ascii "did:b"⟩, ⟨ascii "did:c"⟩, .zero, [], [⟨ascii "/dms/node"⟩], [2], 10, 0, []⟩
    parent)

theorem sampleChain_attenuates : sampleChain.verify (samplePlatform fun _ => .ok []) 5 ∅ = .ok () ∧
      ∀ anc, sampleChain.lineage[1]? = some anc → anc.action = .delegate := by
  have hverify : sampleChain.verify (samplePlatform fun _ => .ok []) 5 ∅ = .ok () := by decide
  have hnamed : ∀ q ∈ sampleChain.lineage, q.Named := by
    have hcap : ∀ q ∈ sampleChain.lineage, ∀ c ∈ q.capability, c.text ≠ [] := by decide
    have htopic : ∀ q ∈ sampleChain.lineage, ∀ c ∈ q.topic, c.text ≠ [] := by decide
    exact fun q hq => ⟨hcap q hq, htopic q hq⟩
  have h := verify_attenuates (by decide) (by decide) hverify hnamed
  exact ⟨hverify, fun anc hanc => (h.1 1 anc (by decide) hanc).1⟩

end DMS.Ucan.Token
