import DMS.Ucan.Run
import DMS.Ucan.Attenuation

/-! # Authorization soundness

`Require` answers from what `Consume` stored. The invariant of runs is that every
token stored about a subject stands, so that the grant of the anchor, which may sit
anywhere in the chain, covers what the token at its end allows.
-/

namespace DMS.Ucan

open Did Context Capability Token

theorem Token.Valid.anyImplies {p rev} {t : Token} {depth}
    (hvalid : t.Valid p rev depth) (hact : t.action ≠ .revoke)
    (hne : ∀ q ∈ t.lineage, ∀ g ∈ q.capability, g.text ≠ []) {c}
    (hc : Capability.anyImplies t.capability c = true) {q} (hq : q ∈ t.lineage) :
    Capability.anyImplies q.capability c = true := by
  induction t generalizing depth with
  | foreign => exact hvalid.elim
  | root b =>
    obtain rfl : q = .root b := by simpa [lineage] using hq
    exact hc
  | link b chain ih =>
    rcases List.mem_cons.mp hq with rfl | hq
    · exact hc
    obtain ⟨_, _, hlink, hchain⟩ := hvalid.2 hact
    have hchainne := hne chain (by simp [lineage, mem_lineage_self])
    exact ih hchain (by rw [hlink.delegates]; simp) (fun r hr => hne r (by simp [lineage, hr]))
      (anyImplies_trans hchainne hlink.allImplied hc) hq

def SubjectsStand (p : Platform) (w : World) : Prop :=
  ∀ key, ∀ t ∈ w.ctx.held .subject key, t.Valid p ∅ 0

theorem subjectsStand_kept (p : Platform) (guard : World → Label → Prop) :
    Kept p guard (SubjectsStand p) where
  sheds _ _ _ hw _ hsheds key t ht := hw key t (hsheds.mem ht)
  addRoots _ _ _ _ _ _ hw _ _ key t ht := hw key t (mem_subject_addRoots ht)
  removeRoots w _ trust req prov rev hw _ _ key t ht :=
    hw key t ((removeRoots_trims trust req prov rev w.ctx).mem ht)
  consume w call origin capToken hw _ _ key t ht := by
    rcases (consume_absorbs p call origin capToken w.ctx).subject key t ht with ht | ⟨_, hverify⟩
    · exact hw key t ht
    · exact (verify_eq_ok_iff.mp hverify).2.mono fun k hk => by simp [RevocationSet.revoked] at hk
  gcTokens w call hw _ key t ht := hw key t ((gcTokens_trims call w.ctx).mem ht)
  reload _ _ _ _ _ _ _ _ hloaded key t ht := by
    simp [(reloaded_booted hloaded).subject] at ht

def Grounded (ctx : Context) (now : Nat) (anchor : DID) (t : Token) (c : Capability) : Prop :=
  (∃ q ∈ t.lineage, (q.issuer = anchor ∨ q.issuer ∈ ctx.roots) ∧
    ∃ g ∈ q.capability, g.implies c = true) ∨
  (∃ key, ∃ rt ∈ ctx.held .require key, rt.expireBefore now = false ∧
    (∃ q ∈ t.lineage, q.issuer = rt.subject) ∧ ∃ g ∈ rt.capability, g.implies c = true)

theorem requireInvocation_eq_ok {p call anchor sub aud req} {ctx : Context}
    (h : (ctx.requireInvocation p call anchor sub aud req).2 = .ok ()) :
    ∃ did audienceDID, p.fromID sub = .ok did ∧
      p.fromID aud = .ok audienceDID ∧
      (authorize call anchor did (fun t c => t.allowInvocation did audienceDID c)
        req ctx).2 = .ok () := by
  unfold requireInvocation at h
  split at h
  · simp at h
  split at h
  · simp at h
  next did hsubject =>
  split at h
  · simp at h
  next audienceDID haudience =>
  exact ⟨did, audienceDID, wrapLibrary_eq_ok.mp hsubject, wrapLibrary_eq_ok.mp haudience, h⟩

/-- In every state of every run, an admitted invocation rests on an unexpired chain, signed
throughout, that the anchor, a current root or a current side anchor grounds. -/
theorem require_sound {δ : Type} {p : Platform} {codec : ViewCodec δ} (hcodec : codec.Lossless)
    {w : World} (hrun : Run p codec w) (call : Call) (anchor : DID) (subject audience : GoString)
    (require : List Capability)
    (hchain : ∀ key, ∀ t ∈ w.ctx.held .subject key, ∀ q ∈ t.lineage, ∀ g ∈ q.capability,
      g.text ≠ []) (hside : ∀ key, ∀ rt ∈ w.ctx.held .require key, ∀ g ∈ rt.capability, g.text ≠ [])
    (hok : (w.ctx.requireInvocation p call anchor subject audience require).2 = .ok ()) :
    ∃ subjectDID audienceDID, p.fromID subject = .ok subjectDID ∧
      p.fromID audience = .ok audienceDID ∧ ∃ t ∈ w.ctx.held .subject subjectDID, ∃ c ∈ require,
        t.action = .invoke ∧ t.subject = subjectDID ∧
        (t.audience.empty = true ∨ t.audience = audienceDID) ∧
        (∀ q ∈ t.lineage, call.now ≤ q.expire ∧ q.SignatureHolds p) ∧
        Grounded w.ctx call.now anchor t c := by
  have hstand : SubjectsStand p w :=
    (subjectsStand_kept p _).run hcodec (fun call ctx hboot key t ht => by
      simp [hboot.subject] at ht) hrun
  obtain ⟨subjectDID, audienceDID, hsubject, haudience, hadmit⟩ := requireInvocation_eq_ok hok
  obtain ⟨t, ht, hexp, c, hc, hallow, hwhy⟩ := authorize_eq_ok hadmit
  obtain ⟨hinvoke, hsub, haud, hcover⟩ := allowInvocation_iff.mp hallow
  have hvalid := hstand subjectDID t ht
  have hact : t.action ≠ .revoke := by rw [hinvoke]; simp
  have hlive := expireBefore_eq_false_iff.mp hexp
  -- a token of the chain that the given identifier issued covers the capability
  have hgrant : ∀ did, t.anchor did = true →
      ∃ q ∈ t.lineage, q.issuer = did ∧ ∃ g ∈ q.capability, g.implies c = true := by
    intro did hdid
    obtain ⟨q, hq, _, hissuer⟩ := anchor_iff.mp hdid
    exact ⟨q, hq, hissuer, anyImplies_iff.mp
      (hvalid.anyImplies hact (hchain subjectDID t ht) hcover hq)⟩
  refine ⟨subjectDID, audienceDID, hsubject, haudience, t, ht, c, hc, hinvoke, hsub,
    audienceAllows_iff.mp haud, ?_, ?_⟩
  · intro q hq
    obtain ⟨k, hstands⟩ := hvalid.stands_of_mem hact hq
    exact ⟨(hlive q hq).2, hstands.signed⟩
  rcases hwhy with hanchor | ⟨root, hroot, hanchor⟩ | ⟨key, rt, hrt, hrtexp, hadmits⟩
  · obtain ⟨q, hq, hissuer, hg⟩ := hgrant anchor hanchor
    exact .inl ⟨q, hq, .inl hissuer, hg⟩
  · obtain ⟨q, hq, hissuer, hg⟩ := hgrant root hanchor
    exact .inl ⟨q, hq, .inr (by rw [hissuer]; exact hroot), hg⟩
  obtain ⟨_, _, hissued, _, _, hcaps, _⟩ := allowAction_iff.mp hadmits
  obtain ⟨q, hq, hissuer, _⟩ := hgrant rt.subject hissued
  exact .inr ⟨key, rt, hrt, hrtexp, ⟨q, hq, hissuer⟩, anyImplies_iff.mp
    (anyImplies_trans (hside key rt hrt) hcaps hcover)⟩

/-- A node that trusts `did:a` and has consumed an invocation chained on a
delegation by `did:a`. -/
def admittingWorld : World :=
  (sampleWorld (fun _ => .ok [Token.sampleChain]) ⟨ascii "did:x"⟩ [⟨ascii "did:a"⟩] [] []).step
    (samplePlatform fun _ => .ok [Token.sampleChain]) sampleCodec
    ⟨sampleCall 5, .consume ⟨ascii "did:z"⟩ []⟩

theorem admittingWorld_sound :
    ∃ key, ∃ t ∈ admittingWorld.ctx.held .subject key, ∃ c ∈ [⟨ascii "/dms/node"⟩],
      Grounded admittingWorld.ctx 6 ⟨ascii "did:z"⟩ t c := by
  have hrun : Run (samplePlatform fun _ => .ok [sampleChain]) sampleCodec admittingWorld :=
    .step _ (.init (sampleWorld_fresh (by decide))) ⟨⟨by decide, trivial⟩, trivial⟩
  obtain ⟨subjectDID, _, _, _, t, ht, c, hc, _, _, _, _, hgrounded⟩ :=
    require_sound sampleCodec_lossless hrun (sampleCall 6) ⟨ascii "did:z"⟩ (ascii "did:c")
      (ascii "did:x") [⟨ascii "/dms/node"⟩] (GoMap.forall_mem_list (by decide))
      (GoMap.forall_mem_list (by decide)) (by decide)
  exact ⟨subjectDID, t, ht, c, hc, hgrounded⟩

def emptySide : Token :=
  .sealed (.root ⟨.delegate, ⟨ascii "did:c"⟩, ⟨ascii "did:x"⟩, .zero, [], [⟨[]⟩], [1], 20, 0, []⟩)

def rootInvocation : Token :=
  .sealed (.root ⟨.invoke, ⟨ascii "did:x"⟩, ⟨ascii "did:y"⟩, .zero, [], [.root], [2], 10, 0, []⟩)

def emptySideWorld : World :=
  (sampleWorld (fun _ => .ok [rootInvocation]) ⟨ascii "did:c"⟩ [] [emptySide] []).step
    (samplePlatform fun _ => .ok [rootInvocation]) sampleCodec
    ⟨sampleCall 5, .consume ⟨ascii "did:z"⟩ []⟩

/-- The empty path lies above the root path and the root path above everything, but the empty path
not above a capability without a leading separator: the side anchor does not cover the invocation
it admits. -/
theorem emptySideWorld_not_grounded :
    Run (samplePlatform fun _ => .ok [rootInvocation]) sampleCodec emptySideWorld ∧
      (emptySideWorld.ctx.requireInvocation (samplePlatform fun _ => .ok [rootInvocation])
        (sampleCall 5) ⟨ascii "did:z"⟩ (ascii "did:y") (ascii "did:c") [⟨ascii "x"⟩]).2 = .ok () ∧
      (∀ key, ∀ t ∈ emptySideWorld.ctx.held .subject key, ∀ q ∈ t.lineage, ∀ g ∈ q.capability,
        g.text ≠ []) ∧ ∀ key, ∀ t ∈ emptySideWorld.ctx.held .subject key, ∀ c ∈ [⟨ascii "x"⟩],
        ¬ Grounded emptySideWorld.ctx 5 ⟨ascii "did:z"⟩ t c := by
  have hroot : ∀ key, ∀ t ∈ emptySideWorld.ctx.held .subject key, ∀ q ∈ t.lineage,
      ¬ (q.issuer = ⟨ascii "did:z"⟩ ∨ q.issuer ∈ emptySideWorld.ctx.roots) :=
    GoMap.forall_mem_list (by decide)
  have hside : ∀ key, ∀ rt ∈ emptySideWorld.ctx.held .require key, ∀ g ∈ rt.capability,
      g.implies ⟨ascii "x"⟩ = false :=
    GoMap.forall_mem_list (by decide)
  refine ⟨.step _ (.init (sampleWorld_fresh (by decide))) ⟨⟨by decide, trivial⟩, trivial⟩,
    by decide, GoMap.forall_mem_list (by decide), ?_⟩
  intro key t ht c hc hgrounded
  obtain rfl : c = ⟨ascii "x"⟩ := by simpa using hc
  rcases hgrounded with ⟨q, hq, hissuer, _⟩ | ⟨key', rt, hrt, _, _, g, hg, himplies⟩
  · exact hroot key t ht q hq hissuer
  · rw [hside key' rt hrt g hg] at himplies
    exact Bool.noConfusion himplies

end DMS.Ucan
