import DMS.Ucan.Capability
import DMS.Did.Identity
import DMS.Core.GoMap

/-! # Capability tokens

The data model of `lib/ucan/token.go` and its recursive queries. A `*Token` either carries a DMS
token, with or without a chain, or it carries none, and then every method falls through to its
default. Expiry times and depths are unsigned counters that are only compared.
-/

namespace DMS.Ucan

open Did

/-- `Action` is a string in the source; the four constants and every other text. -/
inductive Action
  | invoke
  | delegate
  | broadcast
  | revoke
  | other (text : GoString)
deriving DecidableEq, Repr

/-- The fields of a `DMSToken` other than its chain. -/
structure TokenBody where
  action : Action
  issuer : DID
  subject : DID
  audience : DID
  topic : List Capability
  capability : List Capability
  nonce : GoString
  expire : Nat
  depth : Nat
  signature : GoString
deriving DecidableEq, Repr

inductive Token
  | foreign
  | root (body : TokenBody)
  | link (body : TokenBody) (chain : Token)
deriving DecidableEq, Repr

namespace Token

def body? : Token → Option TokenBody
  | .foreign => none
  | .root b | .link b _ => some b

def chain? : Token → Option Token
  | .foreign | .root _ => none
  | .link _ chain => some chain

def defaults : TokenBody := ⟨.other [], .zero, .zero, .zero, [], [], [], 0, 0, []⟩

def body (t : Token) : TokenBody := t.body?.getD defaults

def action (t : Token) : Action := t.body.action
def issuer (t : Token) : DID := t.body.issuer
def subject (t : Token) : DID := t.body.subject
def audience (t : Token) : DID := t.body.audience
def topic (t : Token) : List Capability := t.body.topic
def capability (t : Token) : List Capability := t.body.capability
def nonce (t : Token) : GoString := t.body.nonce
def expire (t : Token) : Nat := t.body.expire
def depth (t : Token) : Nat := t.body.depth
def signature (t : Token) : GoString := t.body.signature

@[simp] theorem body_root (b : TokenBody) : (root b).body = b := rfl
@[simp] theorem body_link (b : TokenBody) (chain : Token) : (link b chain).body = b := rfl
@[simp] theorem chain?_root (b : TokenBody) : (root b).chain? = none := rfl
@[simp] theorem chain?_link (b : TokenBody) (chain : Token) :
    (link b chain).chain? = some chain := rfl

def revocationKey : Token → GoString
  | .foreign => []
  | .root b | .link b _ =>
    b.issuer.uri ++ ascii "#" ++ b.subject.uri ++ ascii "#" ++ b.nonce

def lineage : Token → List Token
  | .foreign => [.foreign]
  | .root b => [.root b]
  | .link b chain => .link b chain :: chain.lineage

attribute [local simp] lineage

theorem mem_lineage_self (t : Token) : t ∈ t.lineage := by
  cases t <;> simp

theorem lineage_getElem?_zero (t : Token) : t.lineage[0]? = some t := by
  cases t <;> simp

def expireBefore (deadline : Nat) : Token → Bool
  | .foreign => true
  | .root b => decide (b.expire < deadline)
  | .link b chain => decide (b.expire < deadline) || chain.expireBefore deadline

variable {t : Token} {aud : DID} {c : Capability}

theorem expireBefore_mono {a b} (hab : a ≤ b)
    (h : t.expireBefore b = false) : t.expireBefore a = false := by
  induction t with
  | foreign => simp [expireBefore] at h
  | root body => simp only [expireBefore, decide_eq_false_iff_not] at h ⊢; omega
  | link body chain ih =>
    simp only [expireBefore, Bool.or_eq_false_iff, decide_eq_false_iff_not] at h ⊢
    exact ⟨by omega, ih h.2⟩

/-- A token is unexpired exactly when its whole lineage is made of DMS tokens
that are unexpired. -/
theorem expireBefore_eq_false_iff {deadline} :
    t.expireBefore deadline = false ↔ ∀ q ∈ t.lineage, q ≠ .foreign ∧ deadline ≤ q.expire := by
  induction t with
  | foreign => simp [expireBefore]
  | root body => simp [expireBefore, expire]
  | link body chain ih =>
    simp only [expireBefore, Bool.or_eq_false_iff, decide_eq_false_iff_not, Nat.not_lt,
      lineage, List.mem_cons, forall_eq_or_imp, ih]
    simp [expire]

def anchor (did : DID) : Token → Bool
  | .foreign => false
  | .root b => b.issuer.equal did
  | .link b chain => b.issuer.equal did || chain.anchor did

/-- The distance of the farthest token of the chain that `did` issued. -/
def anchorDepth (did : DID) : Token → Option Nat
  | .foreign => none
  | .root b => if b.issuer.equal did then some 0 else none
  | .link b chain =>
    match chain.anchorDepth did with
    | some chainDepth => some (chainDepth + 1)
    | none => if b.issuer.equal did then some 0 else none

theorem anchor_iff {did} :
    t.anchor did = true ↔ ∃ q ∈ t.lineage, q ≠ .foreign ∧ q.issuer = did := by
  induction t with
  | foreign => simp [anchor]
  | root b => simp [anchor, issuer]
  | link b chain ih => simp [anchor, issuer, ih]

/-- A token that appears at `depth` within its own limit, zero being no limit. -/
def withinDepth (b : TokenBody) (depth : Nat) : Bool :=
  !(decide (0 < b.depth) && decide (b.depth < depth))

def verifyDepth : Token → Nat → Bool
  | .foreign, _ => false
  | .root b, depth => withinDepth b depth
  | .link b chain, depth => withinDepth b depth && chain.verifyDepth (depth + 1)

theorem withinDepth_iff {b depth} : withinDepth b depth = true ↔ b.depth = 0 ∨ depth ≤ b.depth := by
  simp only [withinDepth, Bool.not_eq_true', Bool.and_eq_false_iff, decide_eq_false_iff_not]
  omega

theorem verifyDepth_mono {a b} (hab : a ≤ b) (h : t.verifyDepth b = true) :
    t.verifyDepth a = true := by
  induction t generalizing a b with
  | foreign => simp [verifyDepth] at h
  | root body =>
    simp only [verifyDepth, withinDepth_iff] at h ⊢
    omega
  | link body chain ih =>
    simp only [verifyDepth, Bool.and_eq_true, withinDepth_iff] at h ⊢
    exact ⟨by omega, ih (by omega) h.2⟩

def audienceAllows (t : Token) (audience : DID) : Bool :=
  t.audience.empty || t.audience.equal audience

def allowInvocation (t : Token) (subject audience : DID) (c : Capability) : Bool :=
  decide (t.action = .invoke) && t.subject.equal subject && t.audienceAllows audience &&
    Capability.anyImplies t.capability c

def allowBroadcast (t : Token) (subject : DID) (topic c : Capability) : Bool :=
  decide (t.action = .broadcast) && t.subject.equal subject && t.audience.empty &&
    Capability.anyImplies t.topic topic && Capability.anyImplies t.capability c

/-- The unexported `allowDelegation`: may `t` be the chain of a token with these
fields, as far as the one link between them goes. -/
def allowDelegationLink (t : Token) (issuer audience : DID) (topics : List Capability)
    (expire : Nat) (c : Capability) : Bool :=
  decide (t.action = .delegate) && !t.expireBefore expire && t.subject.equal issuer &&
    t.audienceAllows audience && Capability.allImplied t.topic topics &&
    Capability.anyImplies t.capability c

/-- The depth at which a token minted under `t` puts `t` at the least: a
delegation that nothing can be chained on would be a dead end. -/
def mintDepth : Action → Nat
  | .delegate => 2
  | _ => 1

/-- The exported `AllowDelegation`. -/
def allowDelegation (t : Token) (action : Action) (issuer audience : DID)
    (topics : List Capability) (expire : Nat) (c : Capability) : Bool :=
  t.verifyDepth (mintDepth action) && t.allowDelegationLink issuer audience topics expire c

/-- May the side chain `t` authorize `ot`. -/
def allowAction (t ot : Token) : Bool :=
  decide (t.action = .delegate) && !t.expireBefore ot.expire && ot.anchor t.subject &&
    (match ot.anchorDepth t.subject with
      | some depth => withinDepth t.body depth
      | none => true) &&
    t.audienceAllows ot.audience && Capability.allImplied t.capability ot.capability &&
    Capability.allImplied t.topic ot.topic

theorem audienceAllows_iff :
    t.audienceAllows aud = true ↔ t.audience.empty = true ∨ t.audience = aud := by
  simp [audienceAllows]

theorem allowInvocation_iff {sub} : t.allowInvocation sub aud c = true ↔
      t.action = .invoke ∧ t.subject = sub ∧ t.audienceAllows aud = true ∧
        Capability.anyImplies t.capability c = true := by
  simp [allowInvocation, and_assoc]

theorem allowBroadcast_iff {sub topic} : t.allowBroadcast sub topic c = true ↔
      t.action = .broadcast ∧ t.subject = sub ∧ t.audience.empty = true ∧
        Capability.anyImplies t.topic topic = true ∧
        Capability.anyImplies t.capability c = true := by
  simp [allowBroadcast, and_assoc]

theorem allowDelegationLink_iff {issuer ts expire} :
    t.allowDelegationLink issuer aud ts expire c = true ↔
      t.action = .delegate ∧ t.expireBefore expire = false ∧ t.subject = issuer ∧
        t.audienceAllows aud = true ∧ Capability.allImplied t.topic ts = true ∧
        Capability.anyImplies t.capability c = true := by
  simp [allowDelegationLink, and_assoc]

theorem allowDelegation_iff {action issuer ts expire} :
    t.allowDelegation action issuer aud ts expire c = true ↔
      t.verifyDepth (mintDepth action) = true ∧
        t.allowDelegationLink issuer aud ts expire c = true := by
  simp [allowDelegation]

theorem allowAction_iff {ot} : t.allowAction ot = true ↔
      t.action = .delegate ∧ t.expireBefore ot.expire = false ∧ ot.anchor t.subject = true ∧
        (∀ depth, ot.anchorDepth t.subject = some depth → withinDepth t.body depth = true) ∧
        t.audienceAllows ot.audience = true ∧
        Capability.allImplied t.capability ot.capability = true ∧
        Capability.allImplied t.topic ot.topic = true := by
  simp only [allowAction, Bool.and_eq_true, decide_eq_true_eq, Bool.not_eq_true', and_assoc]
  cases ot.anchorDepth t.subject <;> simp

/-- The comparison of two tokens without their chains. -/
def headSubsumes (b : TokenBody) (ot : Token) : Bool :=
  b.issuer.equal ot.issuer && b.subject.equal ot.subject && b.audience.equal ot.audience &&
    decide (ot.expire ≤ b.expire)

def subsumes : Token → Token → Bool
  | .foreign, _ => false
  | .root b, ot =>
    headSubsumes b ot && ot.chain?.isNone && Capability.allImplied b.capability ot.capability
  | .link b chain, ot =>
    match ot.chain? with
    | none => false
    | some otChain =>
      headSubsumes b ot && chain.subsumes otChain &&
        Capability.allImplied b.capability ot.capability

end Token

end DMS.Ucan
