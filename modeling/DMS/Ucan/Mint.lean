import DMS.Ucan.Delegation

/-! # What a context mints, a verifier accepts

The issuer checks a token before it chains on it (`AllowDelegation`, with the depth counted upwards
from one or two), the verifier checks the finished chain from the leaf.
-/

namespace DMS.Ucan

open Did Token

namespace Token

theorem Valid.of_verifyDepth {p rev} {t : Token} {d d'}
    (h : t.Valid p rev d) (hact : t.action ≠ .revoke) (hdepth : t.verifyDepth d' = true) :
    t.Valid p rev d' := by
  induction t generalizing d d' with
  | foreign => exact h
  | root b =>
    obtain ⟨_, hkey⟩ := h.2 hact
    exact ⟨h.1, fun _ => ⟨hdepth, hkey⟩⟩
  | link b chain ih =>
    obtain ⟨_, hkey, hlink, hchain⟩ := h.2 hact
    obtain ⟨hhere, habove⟩ := Bool.and_eq_true_iff.mp hdepth
    exact ⟨h.1, fun _ =>
      ⟨hhere, hkey, hlink, ih hchain (by rw [hlink.delegates]; simp) habove⟩⟩

theorem withinDepth_zero (b : TokenBody) : withinDepth b 0 = true := withinDepth_iff.mpr (by omega)

@[simp] theorem signatureData_withSignature (p : Platform) (sig : GoString) (t : Token) :
    (t.withSignature sig).signatureData p = t.signatureData p := by
  cases t <;> rfl

@[simp] theorem issuer_withSignature (sig : GoString) (t : Token) :
    (t.withSignature sig).issuer = t.issuer := by
  cases t <;> rfl

end Token

def SignsFor (p : Platform) (provider : Provider) : Prop :=
  ∃ anchor, p.trust.getAnchor provider.did = .ok anchor ∧
    ∀ data sig, provider.sign data = .ok sig → anchor.verify data sig = .ok ()

theorem Token.sign_holds {p pr text} {t t' : Token}
    (h : t.sign p pr text = .ok t') (hsigns : SignsFor p pr)
    (hissuer : t.issuer = pr.did) (hdms : t.body?.isSome = true) :
    ∃ sig, t' = t.withSignature sig ∧ t'.SignatureHolds p := by
  obtain ⟨anchor, hanchor, haccept⟩ := hsigns
  obtain ⟨data, sig, hdata, hsig, rfl⟩ := sign_eq_ok h
  have hfield : (t.withSignature sig).signature = sig := by
    cases t with
    | foreign => simp [body?] at hdms
    | root b | link b chain => rfl
  refine ⟨sig, rfl, anchor, data, by simpa [hissuer] using hanchor, by simpa using hdata, ?_⟩
  rw [hfield]
  exact haccept data sig hsig

/-- The random bytes read in the call do not repeat the nonce of a revoked token
from this issuer to this subject. -/
def FreshNonces (call : Call) (revoke : RevocationSet) (issuer subject : DID) : Prop :=
  ∀ n nonce, call.rand n = .ok nonce →
    revoke.revoked (issuer.uri ++ ascii "#" ++ subject.uri ++ ascii "#" ++ nonce) = false

namespace Minting

variable {p : Platform} {call : Call} {pr : Provider} {m : Minting} {rev : RevocationSet}

structure Good (p : Platform) (now : Nat) (revoke : RevocationSet) (m : Minting) (t : Token) :
    Prop where
  verifies : t.verify p now revoke = .ok ()
  capability : t.capability = m.provide
  usable : m.action = .delegate → t.chain?.isSome = true → t.verifyDepth 1 = true

theorem Mints.good {t token} (h : m.Mints p call pr t token)
    (hsigns : SignsFor p pr) (hfresh : FreshNonces call rev pr.did m.subject)
    (hverify : t.verify p call.now rev = .ok ()) (hexpire : call.now ≤ m.expire t) :
    Good p call.now rev m token := by
  obtain ⟨hexp, hvalid⟩ := verify_eq_ok_iff.mp hverify
  -- any requested capability shows what the issuer-side check established of `t`
  obtain ⟨c₀, hc₀⟩ := List.exists_mem_of_ne_nil _ h.nonempty
  obtain ⟨hdepth, hcheck⟩ := allowDelegation_iff.mp (h.allowed c₀ hc₀)
  obtain ⟨hdel, hout, hsubject, _⟩ := allowDelegationLink_iff.mp hcheck
  obtain ⟨n, hmint⟩ := h.minted
  obtain ⟨nonce, hnonce, hsign⟩ := delegate_eq_ok hmint
  obtain ⟨sig, rfl, hholds⟩ := sign_holds hsign hsigns rfl rfl
  have hone : t.verifyDepth 1 = true := by
    refine verifyDepth_mono ?_ hdepth
    unfold mintDepth
    split <;> omega
  refine ⟨verify_eq_ok_iff.mpr ⟨?_, hholds, fun _ =>
    ⟨withinDepth_zero _, hfresh n nonce hnonce, ?_, ?_⟩⟩, rfl, ?_⟩
  · simp only [withSignature, body, expireBefore, hexp, Bool.or_false, decide_eq_false_iff_not]
    omega
  · refine ⟨hdel, hout, hsubject.symm, fun c hc => ?_⟩
    exact (allowDelegation_iff.mp (h.allowed c hc)).2
  · exact hvalid.of_verifyDepth (by rw [hdel]; simp) hone
  intro hmact _
  rw [hmact] at hdepth
  have hwithin : withinDepth (m.body pr.did nonce t) 1 = true := by
    rw [withinDepth_iff]
    omega
  exact Bool.and_eq_true_iff.mpr ⟨hwithin, hdepth⟩

end Minting

namespace Context

variable {p : Platform} {call : Call} {ctx : Context} {m : Minting}

theorem Grants.good {exp sign token}
    (h : ctx.Grants p call m exp sign token) (hsigns : SignsFor p ctx.provider)
    (hfresh : FreshNonces call ctx.revoke ctx.did m.subject)
    (hexpire : sign ≠ .no → call.now ≤ exp) : m.Good p call.now ctx.revoke token := by
  obtain ⟨hself, n, hgrant⟩ := h
  have hlive := hexpire hself
  obtain ⟨nonce, hnonce, hsign⟩ := Outcome.bind_eq_ok.mp hgrant
  have hnonce := wrapLibrary_eq_ok.mp hnonce
  obtain ⟨sig, rfl, hholds⟩ := sign_holds hsign hsigns rfl rfl
  refine ⟨verify_eq_ok_iff.mpr ⟨?_, hholds, fun _ =>
    ⟨withinDepth_zero _, hfresh n nonce hnonce⟩⟩, rfl, ?_⟩
  · simp only [withSignature, expireBefore, decide_eq_false_iff_not]
    omega
  · intro _ hchain
    simp [withSignature] at hchain

/-- Every token that the three operations return verifies at the time of the call, carries what
was asked for and, when `Delegate` chained it, admits a further invocation below it. -/
theorem minted_tokens_verify (hsigns : SignsFor p ctx.provider)
    (hprovide : ∀ key, ∀ t ∈ ctx.held .provide key, t.verify p call.now ctx.revoke = .ok ())
    (subject audience : DID) (hfresh : FreshNonces call ctx.revoke ctx.did subject)
    (provide : List Capability) (selfSign : SelfSign) (tokens : List Token) :
    (∀ topics expire depth, call.now ≤ expire ∨ (expire = 0 ∧ selfSign = .no) →
      (delegate p call subject audience topics expire depth provide selfSign ctx).2 = .ok tokens →
      ∀ t ∈ tokens, t.verify p call.now ctx.revoke = .ok () ∧ t.capability = provide ∧
        (t.chain?.isSome = true → t.verifyDepth (Token.mintDepth .invoke) = true)) ∧
    (∀ target expire, call.now ≤ expire →
      (∀ t ∈ ctx.held .subject ctx.did, t.verify p call.now ctx.revoke = .ok ()) →
      (delegateInvocation p call target subject audience expire provide selfSign ctx).2 =
        .ok tokens →
      ∀ t ∈ tokens, t.verify p call.now ctx.revoke = .ok () ∧ t.capability = provide) ∧
    (∀ topic expire, call.now ≤ expire →
      (delegateBroadcast p call subject topic expire provide selfSign ctx).2 = .ok tokens →
      ∀ t ∈ tokens, t.verify p call.now ctx.revoke = .ok () ∧ t.capability = provide) := by
  refine ⟨?_, ?_, ?_⟩
  · intro topics expire depth hexpire h t ht
    have hlive : selfSign ≠ .no → call.now ≤ expire := by
      intro hne
      rcases hexpire with hexpire | ⟨_, hno⟩
      · exact hexpire
      · exact absurd hno hne
    have hgood : (Minting.delegation subject audience topics expire depth provide).Good p call.now
        ctx.revoke t := by
      rcases mem_delegate h ht with ⟨key, u, hu, hmints⟩ | hgrants
      · have hverify := hprovide key u hu
        refine hmints.good hsigns hfresh hverify ?_
        show call.now ≤ if expire = 0 then u.expire else expire
        split
        · have hexp := (verify_eq_ok_iff.mp hverify).1
          exact (expireBefore_eq_false_iff.mp hexp u u.mem_lineage_self).2
        · omega
      · exact hgrants.good hsigns hfresh hlive
    exact ⟨hgood.verifies, hgood.capability, hgood.usable rfl⟩
  · intro target expire hexpire hown h t ht
    have hgood : (Minting.invocation subject audience expire provide).Good p call.now ctx.revoke t
    := by
      rcases mem_delegateInvocation h ht with ⟨u, hu, hmints⟩ | ⟨key, u, hu, hmints⟩ | hgrants
      · exact hmints.good hsigns hfresh (hown u hu) hexpire
      · exact hmints.good hsigns hfresh (hprovide key u hu) hexpire
      · exact hgrants.good hsigns hfresh fun _ => hexpire
    exact ⟨hgood.verifies, hgood.capability⟩
  intro topic expire hexpire h t ht
  have hgood : (Minting.broadcast subject topic expire provide).Good p call.now ctx.revoke t := by
    rcases mem_delegateBroadcast h ht with ⟨key, u, hu, hmints⟩ | hgrants
    · exact hmints.good hsigns hfresh (hprovide key u hu) hexpire
    · exact hgrants.good hsigns hfresh fun _ => hexpire
  exact ⟨hgood.verifies, hgood.capability⟩

/-- `did:a` lets `did:c` delegate, for times up to twenty. -/
def sampleGrant : Token :=
  .sealed (.root ⟨.delegate, ⟨ascii "did:a"⟩, ⟨ascii "did:c"⟩, .zero, [], [⟨ascii "/dms"⟩], [1], 20,
    0, []⟩)

def grantPlatform : Platform := samplePlatform fun _ => .ok [sampleGrant]

/-- The context of `did:c` once it was given the grant as a provide token. -/
def providedContext : Context := (addRoots grantPlatform (sampleCall 5) [] [] [sampleGrant] []
    (sampleContext ⟨ascii "did:c"⟩)).1

theorem sampleContext_signsFor (wire : GoString → Except GoString (List Token)) (did : DID) :
    SignsFor (samplePlatform wire) (sampleContext did).provider := by
  refine ⟨_, rfl, fun data sig h => ?_⟩
  obtain rfl : did.uri ++ data = sig := by simpa [sampleContext, blank] using h
  simp [sampleContext, blank]

theorem providedContext_mints :
    ∃ t, (delegateInvocation grantPlatform (sampleCall 5) .zero ⟨ascii "did:d"⟩ .zero 10
        [⟨ascii "/dms"⟩] .no providedContext).2 = .ok [t] ∧
      t.verify grantPlatform 5 providedContext.revoke = .ok () := by
  have hok : (addRoots grantPlatform (sampleCall 5) [] [] [sampleGrant] []
      (sampleContext ⟨ascii "did:c"⟩)).2 = .ok () := by decide
  have hprovide : ∀ key, ∀ t ∈ providedContext.held .provide key,
      t.verify grantPlatform 5 providedContext.revoke = .ok () :=
    fun key t ht => addRoots_verified hok ht
  have hsigns : SignsFor grantPlatform providedContext.provider :=
    sampleContext_signsFor _ ⟨ascii "did:c"⟩
  have hfresh : FreshNonces (sampleCall 5) providedContext.revoke providedContext.did
      ⟨ascii "did:d"⟩ := fun _ _ _ => rfl
  refine ⟨_, rfl, ((minted_tokens_verify hsigns hprovide ⟨ascii "did:d"⟩ .zero hfresh
    [⟨ascii "/dms"⟩] .no [_]).2.1 .zero 10 (by decide) ?_ rfl _ (List.mem_singleton_self _)).1⟩
  exact fun t ht => addRoots_verified hok ht

/-- The context of `did:c` that consumed the grant, trusting `did:a`, and was then
told in one call of the grant's revocation and of a token that is none. The call
fails with the revocation stored and the grant kept. -/
def staleContext : Context :=
  let revocation : Token := .sealed (.root ⟨.revoke, ⟨ascii "did:a"⟩, ⟨ascii "did:c"⟩, .zero, [],
    [⟨ascii "/dms"⟩], [1], 20, 0, []⟩)
  let ctx := (addRoots grantPlatform (sampleCall 5) [⟨ascii "did:a"⟩] [] [] []
    (sampleContext ⟨ascii "did:c"⟩)).1
  let ctx := (consume grantPlatform (sampleCall 5) ⟨ascii "did:a"⟩ [] ctx).1
  (addRoots grantPlatform (sampleCall 5) [] [] [] [revocation, .foreign] ctx).1

/-- An invocation chained on a token about the context itself does not verify
when that token does not, with no provide token to blame. -/
theorem staleContext_mints_revoked : (∀ key, staleContext.held .provide key = []) ∧
      ∃ t, (delegateInvocation grantPlatform (sampleCall 5) ⟨ascii "did:a"⟩ ⟨ascii "did:d"⟩ .zero 10
          [⟨ascii "/dms"⟩] .no staleContext).2 = .ok [t] ∧
        t.verify grantPlatform 5 staleContext.revoke =
          .error ⟨["verify: token has been revoked"], .notAuthorized⟩ := by
  refine ⟨fun _ => rfl, _, rfl, ?_⟩
  decide

end Context

end DMS.Ucan
