import DMS.Ucan.Concurrent
import DMS.Ucan.Permanence

/-! # Who can revoke a token

The revocation key of a token is its issuer, its subject and its nonce with `#` between them, so
that the text before the first `#` is the issuer whenever issuers have none. A stored revocation was
signed by its issuer.
-/

namespace DMS.Ucan

open Did Context List

def hash : UInt8 := 35

/-- The identifier of the issuer has no `#`, as is true of every `did:key` URI. -/
def Token.PlainIssuer (t : Token) : Prop := hash ∉ t.issuer.uri

instance (t : Token) : Decidable t.PlainIssuer := inferInstanceAs (Decidable (_ ∉ _))

variable {t : Token} {p : Platform} {calls : List (Call × Args)}

theorem Token.revocationKey_of_dms (h : t ≠ .foreign) :
    t.revocationKey = t.issuer.uri ++ hash :: (t.subject.uri ++ hash :: t.nonce) := by
  have hsep : ascii "#" = [hash] := by decide
  cases t with
  | foreign => exact absurd rfl h
  | root b | link b chain => simp [revocationKey, hsep, issuer, subject, nonce]

theorem eq_of_append_cons_eq {A : Type} {c} {x y rest rest' : List A} (hx : c ∉ x)
    (hy : c ∉ y) (h : x ++ c :: rest = y ++ c :: rest') : x = y := by
  induction x generalizing y with
  | nil =>
    cases y with
    | nil => rfl
    | cons b y =>
      have hb : c = b := (cons.inj h).1
      exact absurd (hb ▸ (.head _) ..) hy
  | cons a x ih =>
    cases y with
    | nil =>
      have ha : a = c := (cons.inj h).1
      exact absurd (ha ▸ (.head _) ..) hx
    | cons b y =>
      obtain ⟨hab, htail⟩ := cons.inj h
      rw [hab, ih (fun hin => hx (.tail _ hin)) (fun hin => hy (.tail _ hin)) htail]

theorem Token.issuer_eq_of_revocationKey_eq {a b : Token} (ha : a.PlainIssuer)
    (hb : b.PlainIssuer) (h : a.revocationKey = b.revocationKey) : a.issuer = b.issuer := by
  have hforeign : ∀ {t : Token}, t ≠ .foreign → t.revocationKey ≠ revocationKey .foreign := by
    intro t ht hkey
    rw [revocationKey_of_dms ht] at hkey
    exact absurd (congrArg length hkey) (by simp [revocationKey])
  by_cases haf : a = .foreign
  · by_cases hbf : b = .foreign
    · rw [haf, hbf]
    · exact absurd (haf ▸ h).symm (hforeign hbf)
  by_cases hbf : b = .foreign
  · exact absurd (hbf ▸ h) (hforeign haf)
  rw [revocationKey_of_dms haf, revocationKey_of_dms hbf] at h
  have huri := eq_of_append_cons_eq ha hb h
  cases hai : a.issuer
  cases hbi : b.issuer
  rw [hai, hbi] at huri
  exact congrArg DID.mk huri

/-- The state after calls of `AddRoots`, whatever each of them returned. -/
def addRootsAll (p : Platform) (calls : List (Call × Args)) (ctx : Context) : Context :=
  calls.foldl (fun ctx c => (ctx.addRoots p c.1 c.2.roots c.2.require c.2.provide c.2.revoke).1) ctx

def acceptedIn (p : Platform) (calls : List (Call × Args)) : List Token :=
  calls.flatMap fun c => acceptedRevocations p c.1.now c.2.revoke

theorem revoked_addRootsAll {ctx key} : (addRootsAll p calls ctx).revoke.revoked key = true ↔
      ctx.revoke.revoked key = true ∨ ∃ r ∈ acceptedIn p calls, r.revocationKey = key := by
  induction calls generalizing ctx with
  | nil => simp [addRootsAll, acceptedIn]
  | cons c calls ih =>
    obtain ⟨call, args⟩ := c
    change (addRootsAll p calls (ctx.addRoots p call args.roots args.require args.provide
      args.revoke).1).revoke.revoked key = true ↔ _
    rw [ih, addRoots_taken.revocations, revokedAfter, revoked_storeRevocations, or_assoc]
    simp [acceptedIn, flatMap_cons, mem_append, or_and_right, exists_or]

theorem Token.Valid.of_clean {rev revoke' depth} (h : t.Valid p rev depth)
    (hclean : t.Clean revoke') :
    t.Valid p revoke' depth := by
  induction t generalizing depth with
  | foreign => exact h
  | root b =>
    refine ⟨h.1, fun hact => ?_⟩
    exact ⟨(h.2 hact).1, hclean _ (mem_lineage_self _)⟩
  | link b chain ih =>
    refine ⟨h.1, fun hact => ?_⟩
    obtain ⟨hdepth, -, hlink, hchain⟩ := h.2 hact
    refine ⟨hdepth, hclean _ (mem_lineage_self _), hlink, ih hchain ?_⟩
    intro q hq
    exact hclean q (.tail _ hq)

theorem exists_revocation {ctx : Context} {now} (hbefore : t.verify p now ctx.revoke = .ok ())
    (hafter : t.verify p now (addRootsAll p calls ctx).revoke ≠ .ok ()) :
    ∃ r ∈ acceptedIn p calls, ∃ q ∈ t.lineage, r.revocationKey = q.revocationKey := by
  obtain ⟨hlive, hvalid⟩ := Token.verify_eq_ok_iff.mp hbefore
  by_contra hnone
  by_cases hact : t.action = .revoke
  · refine hafter ((verify_revocation_eq_ok_iff hact).mpr ?_)
    exact (verify_revocation_eq_ok_iff hact).mp hbefore
  refine hafter (Token.verify_eq_ok_iff.mpr ⟨hlive, hvalid.of_clean ?_⟩)
  intro q hq
  by_contra hrevoked
  rcases revoked_addRootsAll.mp (by simpa using hrevoked) with hold | ⟨r, hr, hkey⟩
  · rw [hvalid.clean hact q hq] at hold
    exact Bool.noConfusion hold
  · exact hnone ⟨r, hr, q, hq, hkey⟩

/-- Only the issuer of a token of the chain can have revoked it: in every sequence of calls a
chain stops verifying because of a stored revocation with the key of one of its tokens, signed
under the identifier of that token's issuer. -/
theorem revoked_by_issuer (p : Platform) :
    (∀ (calls : List (Call × Args)) (ctx : Context) (t : Token) (now : Nat),
      (∀ q ∈ t.lineage, q.PlainIssuer) → (∀ r ∈ acceptedIn p calls, r.PlainIssuer) →
      t.verify p now ctx.revoke = .ok () →
      t.verify p now (addRootsAll p calls ctx).revoke ≠ .ok () →
      (∃ r ∈ acceptedIn p calls, ∃ q ∈ t.lineage, r.revocationKey = q.revocationKey) ∧
      ∀ r ∈ acceptedIn p calls, ∀ q ∈ t.lineage, r.revocationKey = q.revocationKey →
        r.SignatureHolds p ∧ r.issuer = q.issuer) ∧
    ∀ a b : Token, a.PlainIssuer → b.PlainIssuer → a.revocationKey = b.revocationKey →
      a.issuer = b.issuer := by
  refine ⟨?_, fun a b => Token.issuer_eq_of_revocationKey_eq⟩
  intro calls ctx t now hchain hrevocations hbefore hafter
  refine ⟨exists_revocation hbefore hafter, ?_⟩
  intro r hr q hq hkey
  obtain ⟨c, -, hin⟩ := mem_flatMap.mp hr
  refine ⟨(filed_of_accepts (accepts_of_mem hin)).signed, ?_⟩
  exact Token.issuer_eq_of_revocationKey_eq (hrevocations r hr) (hchain q hq) hkey

/-- The grant of `did:a` and its revocation by `did:a`. -/
theorem sampleGrant_revoked_by_issuer :
    sampleGrant.verify grantPlatform 6 providedWorld.ctx.revoke = .ok () ∧
      sampleGrant.verify grantPlatform 6 (addRootsAll grantPlatform
        [(sampleCall 6, ⟨[], [], [], [sampleRevocation]⟩)] providedWorld.ctx).revoke ≠ .ok () ∧
      ∃ r ∈ acceptedIn grantPlatform [(sampleCall 6, ⟨[], [], [], [sampleRevocation]⟩)],
        ∃ q ∈ sampleGrant.lineage, r.SignatureHolds grantPlatform ∧ r.issuer = q.issuer := by
  have hbefore : sampleGrant.verify grantPlatform 6 providedWorld.ctx.revoke = .ok () := by decide
  have hafter : sampleGrant.verify grantPlatform 6 (addRootsAll grantPlatform
      [(sampleCall 6, ⟨[], [], [], [sampleRevocation]⟩)] providedWorld.ctx).revoke ≠ .ok () := by
    decide
  refine ⟨hbefore, hafter, ?_⟩
  obtain ⟨⟨r, hr, q, hq, hkey⟩, hall⟩ := (revoked_by_issuer grantPlatform).1 _ _ _ _
    (by decide) (by decide) hbefore hafter
  exact ⟨r, hr, q, hq, hall r hr q hq hkey⟩

end DMS.Ucan
