import DMS.Ucan.Token
import Mathlib.Data.List.Chain

/-! # Verification of a token chain

`verify` of `lib/ucan/token.go`. The recursion threads the depth from the leaf
upwards. Its outcome separates into the expiry of the lineage, which is the only
part that reads the clock, and the standing of the chain (`Valid`), which reads
the trust context and the revocation set.
-/

namespace DMS.Ucan

open Did Outcome List

/-- The sentinel errors of `lib/ucan/errors.go`, and errors of other packages. -/
inductive Cause
  | notAuthorized
  | capabilityExpired
  | badToken
  | tooBig
  | library (text : GoString)
deriving DecidableEq, Repr

abbrev Result (α : Type) := Except (GoError Cause) α

/-- An error of another package under one text. -/
def wrapLibrary {α : Type} (text : String) (x : Except GoString α) : Result α :=
  x.mapError fun e => ⟨[text], .library e⟩

theorem wrapLibrary_eq_ok {α : Type} {text x} {a : α} : wrapLibrary text x = .ok a ↔ x = .ok a :=
  mapError_eq_ok

abbrev RevocationSet := GoMap GoString Token

def RevocationSet.revoked (revoke : RevocationSet) (key : GoString) : Bool :=
  (revoke.lookup key).isSome

/-- The packages a capability context calls: identifier resolution, the public
key codec and the JSON codec of tokens. -/
structure Platform where
  trust : TrustContext
  fromID : GoString → Except GoString DID
  marshalToken : Token → Except GoString GoString
  unmarshalTokens : GoString → Except GoString (List Token)

namespace Token

def signaturePrefix : GoString := ascii "dms:token:"

def unsigned : Token → Token
  | .foreign => .foreign
  | .root b => .root { b with signature := [] }
  | .link b chain => .link { b with signature := [] } chain

def signatureData (p : Platform) : Token → Result GoString
  | .foreign => .error (.new .badToken)
  | t =>
    (wrapLibrary "signature data" (p.marshalToken t.unsigned)).map (signaturePrefix ++ ·)

def verifySignature (p : Platform) (t : Token) : Result Unit :=
  (wrapLibrary "verify: anchor" (p.trust.getAnchor t.issuer)).bind fun anchor =>
    ((t.signatureData p).mapError (GoError.wrap "verify: signature data")).bind fun data =>
      wrapLibrary "verify: signature" (anchor.verify data t.signature)

def needCapability (allow : Capability → Bool) : List Capability → List Capability → List Capability
  | [], need => need
  | c :: cs, need =>
    if allow c then
      let need' := need.filter fun oc => !decide (c = oc)
      if need' = [] then need' else needCapability allow cs need'
    else needCapability allow cs need

/-- The unexported `verify`. -/
def verifyAt (p : Platform) (now : Nat) (revoke : RevocationSet) : Token → Nat → Result Unit
  | .foreign, _ => .error (.new .badToken)
  | .root b, depth =>
    if (root b).expireBefore now then .error (.new .capabilityExpired)
    else if b.action = .revoke then (root b).verifySignature p
    else if !withinDepth b depth then .error ⟨["max token depth exceeded"], .notAuthorized⟩
    else if revoke.revoked (root b).revocationKey then
      .error ⟨["verify: token has been revoked"], .notAuthorized⟩
    else (root b).verifySignature p
  | .link b chain, depth =>
    if (link b chain).expireBefore now then .error (.new .capabilityExpired)
    else if b.action = .revoke then (link b chain).verifySignature p
    else if !withinDepth b depth then .error ⟨["max token depth exceeded"], .notAuthorized⟩
    else if revoke.revoked (link b chain).revocationKey then
      .error ⟨["verify: token has been revoked"], .notAuthorized⟩
    else if chain.action ≠ .delegate then
      .error ⟨["verify: chain does not allow delegation"], .notAuthorized⟩
    else if chain.expireBefore b.expire then .error (.new .capabilityExpired)
    else
      (chain.verifyAt p now revoke (depth + 1)).bind fun _ =>
        if !b.issuer.equal chain.subject then
          .error ⟨["verify: issuer/chain subject mismatch"], .notAuthorized⟩
        else if needCapability
            (chain.allowDelegationLink b.issuer b.audience b.topic b.expire)
            b.capability b.capability ≠ [] then
          .error ⟨["verify: capabilities are not allowed by the chain"], .notAuthorized⟩
        else (link b chain).verifySignature p

/-- The exported `Verify`. -/
def verify (p : Platform) (now : Nat) (revoke : RevocationSet) (t : Token) : Result Unit :=
  t.verifyAt p now revoke 0

/-- The signature of `t` holds under the anchor of its issuer. -/
def SignatureHolds (p : Platform) (t : Token) : Prop :=
  ∃ anchor data, p.trust.getAnchor t.issuer = .ok anchor ∧ t.signatureData p = .ok data ∧
    anchor.verify data t.signature = .ok ()

variable {p : Platform} {t : Token} {rev : RevocationSet} {depth : Nat}

theorem verifySignature_eq_ok : t.verifySignature p = .ok () ↔ t.SignatureHolds p := by
  unfold verifySignature SignatureHolds
  simp only [bind_eq_ok, wrapLibrary_eq_ok, mapError_eq_ok]
  constructor
  · rintro ⟨anchor, hanchor, data, hdata, hsig⟩
    exact ⟨anchor, data, hanchor, hdata, hsig⟩
  · rintro ⟨anchor, data, hanchor, hdata, hsig⟩
    exact ⟨anchor, hanchor, data, hdata, hsig⟩

theorem needCapability_eq_filter (allow : Capability → Bool) (cs need : List Capability) :
    needCapability allow cs need = need.filter fun c => !(decide (c ∈ cs) && allow c) := by
  induction cs generalizing need with
  | nil => simp [needCapability]
  | cons a cs ih =>
    unfold needCapability
    split
    · next ha =>
      have hsplit : (need.filter fun c => !(decide (c ∈ a :: cs) && allow c)) =
          (need.filter fun oc => !decide (a = oc)).filter
            fun c => !(decide (c ∈ cs) && allow c) := by
        rw [filter_filter]
        apply filter_congr
        intro c _
        by_cases hc : a = c
        · subst hc; simp [ha]
        · simp [hc, Ne.symm hc]
      rw [hsplit]
      dsimp only
      split
      · next hnil => rw [hnil]; rfl
      · exact ih _
    rename_i ha
    rw [ih]
    apply filter_congr
    intro c _
    by_cases hc : c = a
    · subst hc; simp [ha]
    · simp [hc]

theorem needCapability_eq_nil_iff {allow cs} :
    needCapability allow cs cs = [] ↔ ∀ c ∈ cs, allow c = true := by
  rw [needCapability_eq_filter, filter_eq_nil_iff]
  constructor
  · intro h c hc
    have hcc := h c hc
    simpa [hc] using hcc
  · intro h c hc
    simp [hc, h c hc]

structure Linked (b : TokenBody) (chain : Token) : Prop where
  delegates : chain.action = .delegate
  outlives : chain.expireBefore b.expire = false
  issuer : b.issuer = chain.subject
  allowed : ∀ c ∈ b.capability,
    chain.allowDelegationLink b.issuer b.audience b.topic b.expire c = true

theorem Linked.allImplied {b chain} (h : Linked b chain) :
    Capability.allImplied chain.capability b.capability = true := by
  apply Capability.allImplied_iff.mpr
  intro c hc
  obtain ⟨_, _, _, _, _, hany⟩ := allowDelegationLink_iff.mp (h.allowed c hc)
  exact Capability.anyImplies_iff.mp hany

def Valid (p : Platform) (revoke : RevocationSet) : Token → Nat → Prop
  | .foreign, _ => False
  | .root b, depth =>
    (root b).SignatureHolds p ∧ (b.action ≠ .revoke →
        withinDepth b depth = true ∧ revoke.revoked (root b).revocationKey = false)
  | .link b chain, depth =>
    (link b chain).SignatureHolds p ∧ (b.action ≠ .revoke →
        withinDepth b depth = true ∧ revoke.revoked (link b chain).revocationKey = false ∧
          Linked b chain ∧ chain.Valid p revoke (depth + 1))

/-- The recursive check is the unexpired lineage together with the standing of
the chain; the clock is read by the first half only. -/
theorem verifyAt_eq_ok_iff {now} : t.verifyAt p now rev depth = .ok () ↔
      t.expireBefore now = false ∧ t.Valid p rev depth := by
  induction t generalizing depth with
  | foreign => simp [verifyAt, Valid]
  | root b =>
    unfold verifyAt Valid
    by_cases hact : b.action = .revoke
    · simp [hact, ite_error_eq_ok, verifySignature_eq_ok]
    · simp [hact, ite_error_eq_ok, verifySignature_eq_ok]
      tauto
  | link b chain ih =>
    unfold verifyAt Valid
    by_cases hact : b.action = .revoke
    · simp [hact, ite_error_eq_ok, verifySignature_eq_ok]
    simp only [hact, ite_error_eq_ok, bind_eq_ok, verifySignature_eq_ok, if_false,
      ih, needCapability_eq_nil_iff, ne_eq, not_not, Bool.not_eq_true, Bool.not_eq_true',
      DID.equal_eq_false_iff, not_false_eq_true, forall_const, Bool.not_eq_false, exists_const]
    constructor
    · rintro ⟨hexp, hdepth, hkey, hdel, hout, ⟨_, hvalid⟩, hiss, hallow, hsig⟩
      exact ⟨hexp, hsig, hdepth, hkey, ⟨hdel, hout, hiss, hallow⟩, hvalid⟩
    rintro ⟨hexp, hsig, hdepth, hkey, hlink, hvalid⟩
    have hchain : chain.expireBefore now = false := by
      simp only [expireBefore, Bool.or_eq_false_iff] at hexp
      exact hexp.2
    exact ⟨hexp, hdepth, hkey, hlink.delegates, hlink.outlives, ⟨hchain, hvalid⟩,
      hlink.issuer, hlink.allowed, hsig⟩

theorem verify_eq_ok_iff {now} :
    t.verify p now rev = .ok () ↔ t.expireBefore now = false ∧ t.Valid p rev 0 :=
  verifyAt_eq_ok_iff

theorem Valid.mono {revoke' : RevocationSet}
    (hsub : ∀ key, rev.revoked key = true → revoke'.revoked key = true)
    (h : t.Valid p revoke' depth) : t.Valid p rev depth := by
  have hkeep : ∀ key, revoke'.revoked key = false → rev.revoked key = false := by
    intro key hkey
    by_contra hne
    rw [hsub key (by simpa using hne)] at hkey
    exact Bool.noConfusion hkey
  induction t generalizing depth with
  | foreign => exact h
  | root b =>
    refine ⟨h.1, fun hact => ?_⟩
    obtain ⟨hdepth, hkey⟩ := h.2 hact
    exact ⟨hdepth, hkeep _ hkey⟩
  | link b chain ih =>
    refine ⟨h.1, fun hact => ?_⟩
    obtain ⟨hdepth, hkey, hlink, hchain⟩ := h.2 hact
    exact ⟨hdepth, hkeep _ hkey, hlink, ih hchain⟩

/-- What verification establishes of the token at distance `k` up the chain. -/
structure Stands (p : Platform) (revoke : RevocationSet) (depth k : Nat) (q : Token) : Prop where
  signed : q.SignatureHolds p
  within : withinDepth q.body (depth + k) = true
  unrevoked : revoke.revoked q.revocationKey = false
  delegates : 0 < k → q.action = .delegate

attribute [local simp] lineage

theorem Valid.stands (hvalid : t.Valid p rev depth) (hact : t.action ≠ .revoke) {k q}
    (hq : t.lineage[k]? = some q) : Stands p rev depth k q := by
  induction t generalizing depth k with
  | foreign => exact hvalid.elim
  | root b =>
    obtain ⟨hdepth, hkey⟩ := hvalid.2 hact
    cases k with
    | zero =>
      obtain rfl : root b = q := by simpa using hq
      exact ⟨hvalid.1, hdepth, hkey, fun h => absurd h (by omega)⟩
    | succ k => simp at hq
  | link b chain ih =>
    obtain ⟨hdepth, hkey, hlink, hchain⟩ := hvalid.2 hact
    cases k with
    | zero =>
      obtain rfl : link b chain = q := by simpa using hq
      exact ⟨hvalid.1, hdepth, hkey, fun h => absurd h (by omega)⟩
    | succ k =>
      have hdel : chain.action = .delegate := hlink.delegates
      have hrest := ih hchain (by rw [hdel]; simp) (by simpa using hq)
      refine ⟨hrest.signed, ?_, hrest.unrevoked, fun _ => ?_⟩
      · rw [show depth + (k + 1) = depth + 1 + k by omega]
        exact hrest.within
      cases k with
      | zero =>
        obtain rfl : chain = q := by
          simpa [lineage_getElem?_zero] using hq
        exact hdel
      | succ k => exact hrest.delegates (by omega)

theorem Valid.stands_of_mem (hvalid : t.Valid p rev depth) (hact : t.action ≠ .revoke) {q}
    (hq : q ∈ t.lineage) : ∃ k, Stands p rev depth k q := by
  obtain ⟨k, hk⟩ := getElem?_of_mem hq
  exact ⟨k, hvalid.stands hact hk⟩

theorem Valid.isChain (hvalid : t.Valid p rev depth) (hact : t.action ≠ .revoke) :
    t.lineage.IsChain fun child parent => Linked child.body parent := by
  induction t generalizing depth with
  | foreign => exact hvalid.elim
  | root b => exact isChain_singleton _
  | link b chain ih =>
    obtain ⟨_, _, hlink, hchain⟩ := hvalid.2 hact
    have hrest := ih hchain (by rw [hlink.delegates]; simp)
    refine hrest.cons ?_
    intro parent hparent
    rw [head?_eq_getElem?, lineage_getElem?_zero] at hparent
    obtain rfl : chain = parent := by simpa using hparent
    exact hlink

end Token

def Action.text : Action → GoString
  | .invoke => ascii "invoke"
  | .delegate => ascii "delegate"
  | .broadcast => ascii "broadcast"
  | .revoke => ascii "revoke"
  | .other text => text

/-- A stand-in for the encoder: the fields one after another. -/
def encodeBody (b : TokenBody) : GoString :=
  b.action.text ++ [0, UInt8.ofNat b.expire, UInt8.ofNat b.depth] ++ b.issuer.uri ++ [0] ++
    b.subject.uri ++ [0] ++ b.audience.uri ++ [0] ++
    (b.topic.map Capability.text).flatten ++ [0] ++
    (b.capability.map Capability.text).flatten ++ [0] ++ b.nonce

def encodeToken : Token → GoString
  | .foreign => []
  | .root b => encodeBody b
  | .link b chain => encodeBody b ++ [0] ++ encodeToken chain ++ chain.signature

/-- Keys that sign by putting their identifier in front of the data; a signature
is accepted exactly when the identifier's own key made it. -/
def samplePlatform (wire : GoString → Except GoString (List Token)) : Platform where
  trust := {
      getAnchor := fun did => .ok
        ⟨fun data sig => if sig = did.uri ++ data then .ok () else .error (ascii "bad signature")⟩
      getProvider := fun did => .ok ⟨did, fun data => .ok (did.uri ++ data)⟩ }
  fromID id := .ok ⟨id⟩
  marshalToken t := .ok (encodeToken t)
  unmarshalTokens := wire

def Token.sealed (t : Token) : Token :=
  let sign (b : TokenBody) : TokenBody :=
    { b with signature := b.issuer.uri ++ (signaturePrefix ++ encodeToken t.unsigned) }
  match t with
  | .foreign => .foreign
  | .root b => .root (sign b)
  | .link b chain => .link (sign b) chain

end DMS.Ucan
