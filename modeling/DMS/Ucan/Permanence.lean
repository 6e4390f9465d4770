import DMS.Ucan.Revocation
import Mathlib.Data.List.TakeWhile

/-! # Revocations lasting

A revocation expires with the token it revokes, and collecting, listing and loading
drop revocations that have expired. The invariant is that a revocation that lasts
as long as the token is in force, or that the token has expired itself.
-/

namespace DMS.Ucan

open Did Context Token Option

/-- A revocation is filed under its own key and stands by its signature. -/
structure Filed (p : Platform) (key : GoString) (r : Token) : Prop where
  key : r.revocationKey = key
  action : r.action = .revoke
  signed : r.SignatureHolds p

def RevocationsFiled (p : Platform) (ctx : Context) : Prop :=
  ∀ key r, ctx.revoke.lookup key = some r → Filed p key r

variable {p : Platform} {now : Nat} {r x : Token} {revoke : List Token} {call : Call}
  {ctx : Context} {w : World}

theorem filed_of_accepts (h : acceptsRevocation p now r = true) : Filed p r.revocationKey r := by
  obtain ⟨hact, hverify⟩ := Bool.and_eq_true_iff.mp h
  have hact : r.action = .revoke := by simpa using hact
  have hverify : r.verify p now ∅ = .ok () := by simpa using hverify
  exact ⟨rfl, hact, ((verify_revocation_eq_ok_iff hact).mp hverify).2⟩

theorem accepts_of_mem
    (h : r ∈ acceptedRevocations p now revoke) : acceptsRevocation p now r = true :=
  List.mem_takeWhile_imp h

theorem RevocationsFiled.addRoots {roots req prov} (h : RevocationsFiled p ctx) :
    RevocationsFiled p (ctx.addRoots p call roots req prov revoke).1 := by
  intro key r hr
  rw [addRoots_taken.revocations] at hr
  rcases lookup_storeRevocations (acceptedRevocations p call.now revoke) ctx.revoke key with
    ⟨_, hlookup⟩ | ⟨r', hr', hkey, hlookup⟩
  · exact h key r (hlookup.symm.trans hr)
  obtain rfl : r' = r := some.inj (hlookup.symm.trans hr)
  rw [← hkey]
  exact filed_of_accepts (accepts_of_mem hr')

theorem revocationsFiled_blank (p : Platform) (name : GoString) (pr : Provider) :
    RevocationsFiled p (blank name pr) := by
  intro key r hr
  simp [blank] at hr

theorem Booted.revocationsFiled (h : Booted p call ctx) : RevocationsFiled p ctx := by
  obtain ⟨name, pr, _, _, _, _, _, rfl⟩ := h
  exact (revocationsFiled_blank p name pr).addRoots

theorem RevocationsFiled.mono {a b : Context} (h : RevocationsFiled p a)
    (hsub : ∀ key r, b.revoke.lookup key = some r → a.revoke.lookup key = some r) :
    RevocationsFiled p b :=
  fun key r hr => h key r (hsub key r hr)

theorem lookup_gcTokens {key} : (ctx.gcTokens call).revoke.lookup key = some r ↔
      ctx.revoke.lookup key = some r ∧ r.expireBefore call.now = false := by
  simp [gcTokens, lookup_gcRevocations, filter_eq_some_iff]

theorem revocationsFiled_kept (p : Platform) (guard : World → Label → Prop) :
    Kept p guard fun w => RevocationsFiled p w.ctx where
  sheds _ _ _ hw _ hsheds := hw.mono fun key r hr => by rwa [hsheds.revoke] at hr
  addRoots _ _ _ _ _ _ hw _ _ := hw.addRoots
  removeRoots _ _ _ _ _ _ hw _ _ := hw.mono fun key r hr => by
    rw [removeRoots_revoke] at hr
    exact lookup_foldl_removeRevocation hr
  consume w call origin capToken hw _ _ := hw.mono fun key r hr => by
    rwa [(consume_absorbs p call origin capToken w.ctx).revoke] at hr
  gcTokens _ _ hw _ := hw.mono fun key r hr => (lookup_gcTokens.mp hr).1
  reload _ _ _ _ _ _ _ _ hloaded := (reloaded_booted hloaded).revocationsFiled

/-- The condition on a step under which the revocation of `x` lasts: no removal
names its key, and no revocation that is stored under its key expires before `x`. -/
def KeepsRevocation (p : Platform) (x : Token) (_ : World) (l : Label) : Prop :=
  match l.op with
  | .addRoots _ _ _ revoke =>
    ∀ r ∈ acceptedRevocations p l.call.now revoke, r.revocationKey = x.revocationKey →
      r.expireBefore x.expire = false
  | .removeRoots _ _ _ revoke => ∀ r ∈ revoke, r.revocationKey ≠ x.revocationKey
  | _ => True

/-- A revocation that lasts as long as `x` is in force, or `x` has expired. -/
def Dead (x : Token) (w : World) : Prop :=
  (∃ r, w.ctx.revoke.lookup x.revocationKey = some r ∧ r.expireBefore x.expire = false) ∨
    x.expire < w.clock

theorem Dead.of_revoke_eq {b : Context} (h : Dead x w)
    (hnow : w.clock ≤ now) (hrevoke : b.revoke = w.ctx.revoke) : Dead x ⟨b, now⟩ := by
  rcases h with ⟨r, hr, hlasts⟩ | hexp
  · exact .inl ⟨r, by rw [hrevoke]; exact hr, hlasts⟩
  · exact .inr (Nat.lt_of_lt_of_le hexp hnow)

theorem Dead.addRoots {roots req prov}
    (h : Dead x w ∨ ∃ r ∈ acceptedRevocations p call.now revoke, r.revocationKey = x.revocationKey)
    (hnow : w.clock ≤ call.now)
    (hkeeps : KeepsRevocation p x w ⟨call, .addRoots roots req prov revoke⟩) :
    Dead x ⟨(w.ctx.addRoots p call roots req prov revoke).1, call.now⟩ := by
  rw [Dead, addRoots_taken.revocations]
  rcases lookup_storeRevocations (acceptedRevocations p call.now revoke) w.ctx.revoke
    x.revocationKey with ⟨hnone, hlookup⟩ | ⟨r, hr, hkey, hlookup⟩
  · rcases h with (⟨r, hr, hlasts⟩ | hexp) | ⟨r, hr, hkey⟩
    · exact .inl ⟨r, hlookup.trans hr, hlasts⟩
    · exact .inr (Nat.lt_of_lt_of_le hexp hnow)
    · exact absurd hkey (hnone r hr)
  · exact .inl ⟨r, hlookup, hkeeps r hr hkey⟩

theorem lookup_listed (hfiled : RevocationsFiled p ctx) (saved call : Call) (key : GoString) :
    (storeRevocations (unexpired call.now (ctx.listRoots saved).1.revoke) ∅).lookup key =
      (ctx.revoke.lookup key).filter fun r =>
        !r.expireBefore saved.now && !r.expireBefore call.now := by
  have hmem : ∀ r, r ∈ unexpired call.now (ctx.listRoots saved).1.revoke ↔
      (∃ k, ctx.revoke.lookup k = some r) ∧ r.expireBefore saved.now = false ∧
        r.expireBefore call.now = false := by
    intro r
    simp [unexpired, listRoots_revoke, mem_listRevocations, and_assoc]
  rcases lookup_storeRevocations (unexpired call.now (ctx.listRoots saved).1.revoke) ∅ key with
    ⟨hnone, hlookup⟩ | ⟨r, hr, hkey, hlookup⟩
  · rw [hlookup, AList.lookup_empty, eq_comm, filter_eq_none_iff]
    intro r hr hlive
    simp only [Bool.and_eq_true, Bool.not_eq_true'] at hlive
    exact hnone r ((hmem r).mpr ⟨⟨key, hr⟩, hlive⟩) (hfiled key r hr).key
  obtain ⟨⟨k, hk⟩, hsave, hload⟩ := (hmem r).mp hr
  obtain rfl : k = key := (hfiled k r hk).key.symm.trans hkey
  rw [hlookup, hk]
  simp [Option.filter, hsave, hload]

theorem revokedAfter_blank {name pr} (h : ∀ r ∈ revoke, acceptsRevocation p call.now r = true) :
    revokedAfter p call revoke (blank name pr) = storeRevocations revoke ∅ := by
  rw [revokedAfter, acceptedRevocations, List.takeWhile_eq_self_iff.mpr h]
  rfl

theorem Dead.reload {saved : Call} {loaded pr} (h : Dead x w) (hfiled : RevocationsFiled p w.ctx)
    (hsaved : w.clock ≤ saved.now) (hnow : saved.now ≤ call.now)
    (hloaded : Reloaded p saved call w.ctx loaded pr) : Dead x ⟨loaded, call.now⟩ := by
  by_cases hexp : x.expire < call.now
  · exact .inr hexp
  rcases h with ⟨r, hr, hlasts⟩ | hexp'
  · have hsave : r.expireBefore saved.now = false := expireBefore_mono (by omega) hlasts
    have hload : r.expireBefore call.now = false := expireBefore_mono (by omega) hlasts
    refine .inl ⟨r, ?_, hlasts⟩
    rw [hloaded.loaded, addRoots_taken.revocations,
      revokedAfter_blank (addRoots_eq_ok.mp hloaded.accepted).1, lookup_listed hfiled, hr]
    simp [Option.filter, hsave, hload]
  · exact absurd (Nat.lt_of_lt_of_le hexp' (Nat.le_trans hsaved hnow)) hexp

theorem dead_kept (p : Platform) (x : Token) :
    Kept p (KeepsRevocation p x) fun w => RevocationsFiled p w.ctx ∧ Dead x w where
  sheds w now b hw hnow hsheds :=
    ⟨(revocationsFiled_kept p (KeepsRevocation p x)).sheds w now b hw.1 hnow hsheds,
      hw.2.of_revoke_eq hnow hsheds.revoke⟩
  addRoots _ _ _ _ _ _ hw hnow hkeeps := ⟨hw.1.addRoots, Dead.addRoots (.inl hw.2) hnow hkeeps⟩
  removeRoots w call trust req prov revoke hw hnow hkeeps := by
    refine ⟨(revocationsFiled_kept p (KeepsRevocation p x)).removeRoots w call trust req prov
      revoke hw.1 hnow hkeeps, ?_⟩
    rcases hw.2 with ⟨r, hr, hlasts⟩ | hexp
    · refine .inl ⟨r, ?_, hlasts⟩
      rw [removeRoots_revoke, lookup_foldl_removeRevocation_of_ne hkeeps]
      exact hr
    · exact .inr (Nat.lt_of_lt_of_le hexp hnow)
  consume w call origin capToken hw hnow hkeeps :=
    ⟨(revocationsFiled_kept p (KeepsRevocation p x)).consume w call origin capToken hw.1 hnow
        hkeeps,
      hw.2.of_revoke_eq hnow (consume_absorbs p call origin capToken w.ctx).revoke⟩
  gcTokens w call hw hnow := by
    refine ⟨(revocationsFiled_kept p (KeepsRevocation p x)).gcTokens w call hw.1 hnow, ?_⟩
    by_cases hexp : x.expire < call.now
    · exact .inr hexp
    rcases hw.2 with ⟨r, hr, hlasts⟩ | hexp'
    · exact .inl ⟨r, lookup_gcTokens.mpr ⟨hr, expireBefore_mono (by omega) hlasts⟩, hlasts⟩
    · exact .inr (Nat.lt_of_lt_of_le hexp' hnow)
  reload _ _ _ _ _ hw hsaved hnow hloaded :=
    ⟨(reloaded_booted hloaded).revocationsFiled, hw.2.reload hw.1 hsaved hnow hloaded⟩

theorem revokeToken_eq_ok {issuer : Context}
    (h : issuer.revokeToken p x = .ok r) (hdms : x ≠ .foreign) :
    r.revocationKey = x.revocationKey := by
  obtain ⟨_, hsign⟩ := Outcome.ite_error_eq_ok.mp h
  obtain ⟨_, _, _, _, rfl⟩ := sign_eq_ok hsign
  cases x with
  | foreign => exact absurd rfl hdms
  | root b | link b chain => rfl

section Permanent

variable {δ : Type} {p : Platform} {codec : ViewCodec δ} {x r : Token} {issuer : Context}

/-- Once a revocation has been accepted, no token that hangs from `x` verifies in any later state,
as long as no step removes it or replaces it by one that expires before `x`. -/
theorem revocation_permanent (hcodec : codec.Lossless) {w₀ : World} (hrun : Run p codec w₀)
    (hrevoke : issuer.revokeToken p x = .ok r) (call : Call) (roots : List DID)
    (require provide revoke : List Token) (htime : w₀.clock ≤ call.now)
    (haccepted : r ∈ acceptedRevocations p call.now revoke)
    (hbatch : KeepsRevocation p x w₀ ⟨call, .addRoots roots require provide revoke⟩) {w : World}
    (hlater : Reach (fun w₁ => w₁ = w₀.step p codec ⟨call, .addRoots roots require provide revoke⟩)
      (fun w₁ l => w₁.onTime l ∧ KeepsRevocation p x w₁ l) (World.step p codec) w)
    {now : Nat} (hnow : w.clock ≤ now) {t : Token} (hact : t.action ≠ .revoke)
    (hx : x ∈ t.lineage) : t.verify p now w.ctx.revoke ≠ .ok () := by
  by_cases hdms : x = .foreign
  · intro hverify
    exact (expireBefore_eq_false_iff.mp (verify_eq_ok_iff.mp hverify).1 x hx).1 hdms
  have hfiled : RevocationsFiled p w₀.ctx := (revocationsFiled_kept p _).run hcodec
    (fun _ _ hboot => hboot.revocationsFiled) hrun
  have hkey := revokeToken_eq_ok hrevoke hdms
  have hinv : RevocationsFiled p w.ctx ∧ Dead x w := by
    refine Reach.invariant (fun w => RevocationsFiled p w.ctx ∧ Dead x w) ?_
      (fun w₁ l h hl => (dead_kept p x).step hcodec h hl.1 hl.2) hlater
    rintro w₁ rfl
    exact ⟨hfiled.addRoots, Dead.addRoots (.inr ⟨r, haccepted, hkey⟩) htime hbatch⟩
  intro hverify
  rcases hinv.2 with ⟨r, hr, _⟩ | hexp
  · have hclean := clean_of_verify hverify hact x hx
    simp [RevocationSet.revoked, hr] at hclean
  · have hlive := expireBefore_eq_false_iff.mp (verify_eq_ok_iff.mp hverify).1 x hx
    omega

end Permanent

/-- The context of `did:a`, which issued the sample grant. -/
def granterContext : Context := sampleContext ⟨ascii "did:a"⟩

def revokedWorld : World := providedWorld.step grantPlatform sampleCodec
    ⟨sampleCall 6, .addRoots [] [] [] [sampleRevocation]⟩

theorem sampleGrant_stays_revoked : sampleGrant.verify grantPlatform 10
      (revokedWorld.step grantPlatform sampleCodec ⟨sampleCall 10, .gcTokens⟩).ctx.revoke ≠
        .ok () := by
  have hbatch : KeepsRevocation grantPlatform sampleGrant providedWorld
      ⟨sampleCall 6, .addRoots [] [] [] [sampleRevocation]⟩ := by
    show ∀ r ∈ acceptedRevocations grantPlatform 6 [sampleRevocation],
      r.revocationKey = sampleGrant.revocationKey → r.expireBefore sampleGrant.expire = false
    decide
  have hrevoke : granterContext.revokeToken grantPlatform sampleGrant = .ok sampleRevocation := by
    decide
  have hlater : Reach (fun w => w = revokedWorld)
      (fun w l => w.onTime l ∧ KeepsRevocation grantPlatform sampleGrant w l)
      (World.step grantPlatform sampleCodec)
      (revokedWorld.step grantPlatform sampleCodec ⟨sampleCall 10, .gcTokens⟩) :=
    .step _ (.init rfl) ⟨⟨by decide, trivial⟩, trivial⟩
  exact revocation_permanent sampleCodec_lossless (.init (sampleWorld_fresh (by decide))) hrevoke
    (sampleCall 6) [] [] [] [sampleRevocation] (by decide) (by decide) hbatch hlater
    (Nat.le_refl 10) (by decide) (mem_lineage_self sampleGrant)

/-- The grant with an earlier expiry, and the revocation made for it: the key of a
revocation does not depend on the expiry. -/
def shortGrant : Token :=
  .sealed (.root ⟨.delegate, ⟨ascii "did:a"⟩, ⟨ascii "did:c"⟩, .zero, [], [⟨ascii "/dms"⟩], [1], 8,
    0, []⟩)

def shortRevocation : Token :=
  .sealed (.root ⟨.revoke, ⟨ascii "did:a"⟩, ⟨ascii "did:c"⟩, .zero, [], [⟨ascii "/dms"⟩], [1], 8, 0,
    []⟩)

def chainedRevocation : Token :=
  .sealed (.link ⟨.revoke, ⟨ascii "did:c"⟩, ⟨ascii "did:d"⟩, .zero, [], [], [2], 20, 0, []⟩
    sampleGrant)

/-- The revocation of the grant is accepted. A revocation that hangs from the grant verifies all
the same, and once one with the same key and an earlier expiry has been collected, the grant
verifies again. -/
theorem revocation_lifted :
    granterContext.revokeToken grantPlatform sampleGrant = .ok sampleRevocation ∧
      (providedWorld.ctx.addRoots grantPlatform (sampleCall 6) [] [] [] [sampleRevocation]).2 =
        .ok () ∧ (sampleGrant ∈ chainedRevocation.lineage ∧
        chainedRevocation.verify grantPlatform 6 revokedWorld.ctx.revoke = .ok ()) ∧
      granterContext.revokeToken grantPlatform shortGrant = .ok shortRevocation ∧
      (revokedWorld.ctx.addRoots grantPlatform (sampleCall 7) [] [] [] [shortRevocation]).2 =
        .ok () ∧ sampleGrant.verify grantPlatform 10
        ((revokedWorld.step grantPlatform sampleCodec
          ⟨sampleCall 7, .addRoots [] [] [] [shortRevocation]⟩).step grantPlatform sampleCodec
          ⟨sampleCall 10, .gcTokens⟩).ctx.revoke = .ok () := by
  refine ⟨by decide, by decide, ⟨by decide, by decide⟩, by decide, by decide, by decide⟩

end DMS.Ucan
