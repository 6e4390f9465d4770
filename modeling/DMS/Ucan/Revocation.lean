import DMS.Ucan.Mint
import DMS.Ucan.Authorization

/-! # Revocations taking effect

`AddRoots` stores the revocations of a batch, verifies its other tokens, and cleans up the stored
tokens at its very end. A batch that fails in between leaves tokens under revocations that are in
force. `RevocationSafe` is the condition under which nothing revoked is kept.
-/

namespace DMS.Ucan

open Did Context RevocationSet

def Token.Clean (revoke : RevocationSet) (t : Token) : Prop :=
  ∀ q ∈ t.lineage, revoke.revoked q.revocationKey = false

instance (revoke : RevocationSet) (t : Token) : Decidable (t.Clean revoke) :=
  inferInstanceAs (Decidable (∀ q ∈ _, _ = false))

variable {p : Platform} {revoke : RevocationSet} {t : Token} {call : Call}

theorem Token.Valid.clean {depth}
    (h : t.Valid p revoke depth) (hact : t.action ≠ .revoke) : t.Clean revoke := by
  intro q hq
  obtain ⟨k, hstands⟩ := h.stands_of_mem hact hq
  exact hstands.unrevoked

theorem Token.Clean.mono {revoke'} (h : t.Clean revoke')
    (hsub : ∀ key, revoke.revoked key = true → revoke'.revoked key = true) : t.Clean revoke := by
  intro q hq
  by_contra hne
  have hrevoked := hsub _ (by simpa using hne)
  rw [h q hq] at hrevoked
  exact Bool.noConfusion hrevoked

theorem revoked_storeRevocations {accepted key} :
    (storeRevocations accepted revoke).revoked key = true ↔
      revoke.revoked key = true ∨ ∃ r ∈ accepted, r.revocationKey = key := by
  unfold revoked
  rcases lookup_storeRevocations accepted revoke key with ⟨hnone, hlookup⟩ | ⟨r, hr, hkey, hlookup⟩
  · rw [hlookup]
    constructor
    · exact .inl
    rintro (h | ⟨r, hr, hkey⟩)
    · exact h
    · exact absurd hkey (hnone r hr)
  · rw [hlookup]
    exact ⟨fun _ => .inr ⟨r, hr, hkey⟩, fun _ => rfl⟩

theorem Token.Clean.storeRevocations {accepted} (h : t.Clean revoke)
    (hnew : ∀ q ∈ t.lineage, ∀ r ∈ accepted, q.revocationKey ≠ r.revocationKey) :
    t.Clean (Context.storeRevocations accepted revoke) := by
  intro q hq
  by_contra hne
  rcases revoked_storeRevocations.mp (by simpa using hne) with hold | ⟨r, hr, hkey⟩
  · rw [h q hq] at hold
    exact Bool.noConfusion hold
  · exact hnew q hq r hr hkey.symm

def RevocationSafe (p : Platform) (w : World) (l : Label) : Prop :=
  match l.op with
  | .addRoots _ require provide revoke =>
    (Acceptable p l.call require provide revoke w.ctx ∨
      ∀ s key, ∀ t ∈ w.ctx.held s key, ∀ q ∈ t.lineage,
        ∀ r ∈ acceptedRevocations p l.call.now revoke, q.revocationKey ≠ r.revocationKey) ∧
    ∀ t, t.action = .revoke → (t ∈ require ++ provide ∨ ∃ s key, t ∈ w.ctx.held s key) →
      t.Clean (revokedAfter p l.call revoke w.ctx)
  | _ => True

def Unrevoked (w : World) : Prop :=
  ∀ s key, ∀ t ∈ w.ctx.held s key, t.action ≠ .revoke → t.Clean w.ctx.revoke

section AddRoots

variable {p : Platform} {call : Call} {roots : List DID} {req prov rev : List Token}
  {ctx : Context}

theorem clean_of_verify {now rev} {t : Token}
    (h : t.verify p now rev = .ok ()) (hact : t.action ≠ .revoke) : t.Clean rev :=
  (Token.verify_eq_ok_iff.mp h).2.clean hact

theorem clean_addRoots
    (hstored : ∀ s key, ∀ t ∈ ctx.held s key, t.action ≠ .revoke → t.Clean ctx.revoke)
    (hbatch : Acceptable p call req prov rev ctx ∨
      ∀ s key, ∀ t ∈ ctx.held s key, ∀ q ∈ t.lineage,
        ∀ r ∈ acceptedRevocations p call.now rev, q.revocationKey ≠ r.revocationKey) {s key t}
    (ht : t ∈ (ctx.addRoots p call roots req prov rev).1.held s key)
    (hact : t.action ≠ .revoke) : t.Clean (revokedAfter p call rev ctx) := by
  rcases hbatch with hok | hnew
  · exact clean_of_verify (addRoots_verified (addRoots_eq_ok.mpr hok) ht) hact
  rcases addRoots_taken.held s key t ht with ht | ⟨_, _, hverify⟩
  · exact (hstored s key t ht hact).storeRevocations (hnew s key t ht)
  · exact clean_of_verify hverify hact

end AddRoots

theorem unrevoked_kept (p : Platform) : Kept p (RevocationSafe p) Unrevoked where
  sheds w now b hw _ hsheds s key t ht hact := by
    rw [hsheds.revoke]
    exact hw s key t (hsheds.mem ht) hact
  addRoots w call roots req prov revoke hw _ hbatch s key t ht hact := by
    rw [addRoots_taken.revocations]
    exact clean_addRoots hw hbatch.1 ht hact
  removeRoots w call trust req prov revoke hw _ _ s key t ht hact := by
    have hheld := (removeRoots_trims trust req prov revoke w.ctx).mem ht
    refine (hw s key t hheld hact).mono fun k hk => ?_
    simp only [removeRoots_revoke, revoked, Option.isSome_iff_exists] at hk ⊢
    obtain ⟨r, hr⟩ := hk
    exact ⟨r, lookup_foldl_removeRevocation hr⟩
  consume w call origin capToken hw _ _ s key t ht hact := by
    have habsorbs := consume_absorbs p call origin capToken w.ctx
    rw [habsorbs.revoke]
    by_cases hs : s = .subject
    · subst hs
      rcases habsorbs.subject key t ht with ht | ⟨_, hverify⟩
      · exact hw .subject key t ht hact
      · exact clean_of_verify hverify hact
    · exact hw s key t ((habsorbs.anchored s hs key).subset ht) hact
  gcTokens w call hw _ s key t ht hact := by
    have hheld := (gcTokens_trims call w.ctx).mem ht
    refine (hw s key t hheld hact).mono fun k hk => ?_
    simp only [gcTokens, revoked, lookup_gcRevocations] at hk ⊢
    cases hlookup : w.ctx.revoke.lookup k with
    | none => simp [hlookup] at hk
    | some r => rfl
  reload _ _ _ _ _ _ _ _ hloaded _ _ _ ht hact :=
    clean_of_verify ((reloaded_booted hloaded).verified ht) hact

def RestsOn (ctx : Context) (anchor subject : DID) (allow : Token → Capability → Bool)
    (require : List Capability) (Sound : Token → Prop) : Prop :=
  ∃ t ∈ ctx.held .subject subject, Sound t ∧ ∃ c ∈ require, allow t c = true ∧
    (t.anchor anchor = true ∨ (∃ root, root ∈ ctx.roots ∧ t.anchor root = true) ∨
      ∃ key, ∃ rt ∈ ctx.held .require key, Sound rt ∧ rt.allowAction t = true)

theorem Unrevoked.restsOn {w} (hw : Unrevoked w) {anchor sub allow req}
    (hallow : ∀ t c, allow t c = true → t.action ≠ .revoke)
    (h : (authorize call anchor sub allow req w.ctx).2 = .ok ()) :
    RestsOn w.ctx anchor sub allow req (Token.Clean w.ctx.revoke) := by
  obtain ⟨t, ht, _, c, hc, hok, hwhy⟩ := authorize_eq_ok h
  refine ⟨t, ht, hw .subject sub t ht (hallow t c hok), c, hc, hok, ?_⟩
  rcases hwhy with hanchor | hroot | ⟨key, rt, hrt, _, hadmits⟩
  · exact .inl hanchor
  · exact .inr (.inl hroot)
  have hact : rt.action ≠ .revoke := by
    rw [(Token.allowAction_iff.mp hadmits).1]
    simp
  exact .inr (.inr ⟨key, rt, hrt, hw .require key rt hrt hact, hadmits⟩)

theorem requireBroadcast_eq_ok {anchor sub topic req} {ctx : Context}
    (h : (ctx.requireBroadcast p call anchor sub topic req).2 = .ok ()) :
    ∃ did, p.fromID sub = .ok did ∧
      (authorize call anchor did (fun t c => t.allowBroadcast did ⟨topic⟩ c)
        req ctx).2 = .ok () := by
  unfold requireBroadcast at h
  split at h
  · simp at h
  split at h
  · simp at h
  next did hsubject => exact ⟨did, wrapLibrary_eq_ok.mp hsubject, h⟩

theorem Unrevoked.mints {w} (hw : Unrevoked w) {m : Minting}
    {s key token chain} (ht : t ∈ w.ctx.held s key)
    (hmints : m.Mints p call w.ctx.provider t token) (hchain : token.chain? = some chain) :
    chain.Clean w.ctx.revoke := by
  obtain ⟨hdel, htop⟩ := hmints.chain
  obtain rfl : t = chain := Option.some.inj (htop.symm.trans hchain)
  exact hw s key t ht (by rw [hdel]; simp)

section TakesEffect

variable {δ : Type} {p : Platform} {codec : ViewCodec δ} {w : World}

/-- In every run whose batches meet the condition, nothing that is stored after a batch, whatever
it returned, hangs from a revoked token, and no request is admitted and no token minted on the
strength of one. -/
theorem revocation_takes_effect (hcodec : codec.Lossless)
    (hrun : GuardedRun p codec (RevocationSafe p) w) :
    (∀ call roots require provide revoke, w.clock ≤ call.now →
      RevocationSafe p w ⟨call, .addRoots roots require provide revoke⟩ →
      ∀ s key, ∀ t ∈ (w.ctx.addRoots p call roots require provide revoke).1.held s key,
        t.Clean (w.ctx.addRoots p call roots require provide revoke).1.revoke) ∧
    (∀ call anchor subject audience require,
      (w.ctx.requireInvocation p call anchor subject audience require).2 = .ok () →
      ∃ subjectDID audienceDID, RestsOn w.ctx anchor subjectDID
        (fun t c => t.allowInvocation subjectDID audienceDID c) require
        (Token.Clean w.ctx.revoke)) ∧ (∀ call anchor subject topic require,
      (w.ctx.requireBroadcast p call anchor subject topic require).2 = .ok () →
      ∃ subjectDID, RestsOn w.ctx anchor subjectDID
        (fun t c => t.allowBroadcast subjectDID ⟨topic⟩ c) require (Token.Clean w.ctx.revoke)) ∧
    (∀ call subject audience topics expire depth provide selfSign tokens,
      (w.ctx.delegate p call subject audience topics expire depth provide selfSign).2 = .ok tokens →
      ∀ t ∈ tokens, ∀ chain, t.chain? = some chain → chain.Clean w.ctx.revoke) ∧
    (∀ call target subject audience expire provide selfSign tokens,
      (w.ctx.delegateInvocation p call target subject audience expire provide selfSign).2 =
        .ok tokens → ∀ t ∈ tokens, ∀ chain, t.chain? = some chain → chain.Clean w.ctx.revoke) := by
  have hw : Unrevoked w := (unrevoked_kept p).run hcodec
    (fun call ctx hboot s key t ht hact => clean_of_verify (hboot.verified ht) hact) hrun
  refine ⟨?_, ?_, ?_, ?_, ?_⟩
  · intro call roots require provide revoke _ hsafe s key t ht
    rw [addRoots_taken.revocations]
    by_cases hact : t.action = .revoke
    · -- a revocation on a shelf was there before or was offered
      refine hsafe.2 t hact ?_
      rcases addRoots_taken.held s key t ht with hold | ⟨hnew, _⟩
      · exact .inr ⟨s, key, hold⟩
      rcases hnew with ⟨_, hmem⟩ | ⟨_, hmem⟩
      · exact .inl (by simp [hmem])
      · exact .inl (by simp [hmem])
    · exact clean_addRoots hw hsafe.1 ht hact
  · intro call anchor subject audience require h
    obtain ⟨subjectDID, audienceDID, _, _, hadmit⟩ := requireInvocation_eq_ok h
    refine ⟨subjectDID, audienceDID, hw.restsOn ?_ hadmit⟩
    intro t c hallow
    rw [(Token.allowInvocation_iff.mp hallow).1]
    simp
  · intro call anchor subject topic require h
    obtain ⟨subjectDID, _, hadmit⟩ := requireBroadcast_eq_ok h
    refine ⟨subjectDID, hw.restsOn ?_ hadmit⟩
    intro t c hallow
    rw [(Token.allowBroadcast_iff.mp hallow).1]
    simp
  · intro call subject audience topics expire depth provide selfSign tokens h t ht chain hchain
    rcases mem_delegate h ht with ⟨key, u, hu, hmints⟩ | hgrants
    · exact hw.mints hu hmints hchain
    · rw [hgrants.chain] at hchain
      simp at hchain
  intro call target subject audience expire provide selfSign tokens h t ht chain hchain
  rcases mem_delegateInvocation h ht with ⟨u, hu, hmints⟩ | ⟨key, u, hu, hmints⟩ | hgrants
  · exact hw.mints hu hmints hchain
  · exact hw.mints hu hmints hchain
  · rw [hgrants.chain] at hchain
    simp at hchain

end TakesEffect

def sampleRevocation : Token :=
  .sealed (.root ⟨.revoke, ⟨ascii "did:a"⟩, ⟨ascii "did:c"⟩, .zero, [], [⟨ascii "/dms"⟩], [1],
    20, 0, []⟩)

/-- A new context of `did:c` that provides the grant. -/
def providedWorld : World :=
  sampleWorld (fun _ => .ok [sampleGrant]) ⟨ascii "did:c"⟩ [] [] [sampleGrant]

theorem providedWorld_takes_effect :
    (providedWorld.ctx.addRoots grantPlatform (sampleCall 6) [] [] [] [sampleRevocation]).2 =
      .ok () ∧ ∀ s key, ∀ t ∈ (providedWorld.ctx.addRoots grantPlatform (sampleCall 6) [] [] []
        [sampleRevocation]).1.held s key,
      t.Clean (providedWorld.ctx.addRoots grantPlatform (sampleCall 6) [] [] []
        [sampleRevocation]).1.revoke := by
  have hrun : GuardedRun grantPlatform sampleCodec (RevocationSafe grantPlatform) providedWorld :=
    .init (sampleWorld_fresh (by decide))
  refine ⟨by decide, (revocation_takes_effect sampleCodec_lossless hrun).1 (sampleCall 6) [] [] []
    [sampleRevocation] (by decide) ⟨.inl ⟨by decide, by simp⟩, ?_⟩⟩
  intro t hact hmem
  rcases hmem with hmem | ⟨s, key, hmem⟩
  · simp at hmem
  have hall : ∀ s key, ∀ t ∈ providedWorld.ctx.held s key, t.action ≠ .revoke := by
    intro s
    cases s <;> exact GoMap.forall_mem_list (by decide)
  exact absurd hact (hall s key t hmem)

/-- The revocation of the grant comes with a token that is none: the batch is
refused, the revocation is in force, and the grant is still provided. -/
theorem providedWorld_keeps_revoked : Run grantPlatform sampleCodec providedWorld ∧
      (providedWorld.ctx.addRoots grantPlatform (sampleCall 6) [] [] []
        [sampleRevocation, .foreign]).2 = .error ⟨["verify token"], .badToken⟩ ∧
      ∃ t ∈ (providedWorld.ctx.addRoots grantPlatform (sampleCall 6) [] [] []
          [sampleRevocation, .foreign]).1.held .provide ⟨ascii "did:a"⟩,
        ¬ t.Clean (providedWorld.ctx.addRoots grantPlatform (sampleCall 6) [] [] []
          [sampleRevocation, .foreign]).1.revoke := by
  refine ⟨.init (sampleWorld_fresh (by decide)), by decide, sampleGrant, by decide, by decide⟩

end DMS.Ucan
