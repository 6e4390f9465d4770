import DMS.Actor.Message
import DMS.Ucan.Effects

/-! # Refused messages

`Require` and `RequireBroadcast` of `actor/security.go` consume the capability tokens of an
envelope, ask for the capabilities, and discard the tokens again when they are not granted, found by
the subjects, issuers and nonces that the envelope names.
-/

namespace DMS.Actor

open Did Ucan Ucan.Context List

inductive SecurityCause
  | invalidMessage
  | ucan (cause : Cause)
deriving DecidableEq, Repr

/-- `id` is the public key of the actor itself. -/
structure SecurityContext where
  id : GoString
  cap : Context

/-- What a call observes while it consumes and while it asks for the capabilities. -/
structure Observed where
  consuming : Call
  requiring : Call

abbrev Answer := SecurityContext × Except (GoError SecurityCause) Unit

namespace SecurityContext

def did (s : SecurityContext) : DID := s.cap.did

/-- The common part of `Require` and `RequireBroadcast`. -/
def demand (p : Platform) (o : Observed) (msg : Envelope)
    (require : Context → Context × Result Unit) (s : SecurityContext) : Answer :=
  match s.cap.consume p o.consuming msg.sender.did msg.capability with
  | (cap, .error e) =>
    ({ s with cap := cap }, .error ((e.lift .ucan).wrap "consuming capabilities"))
  | (cap, .ok _) =>
    match require cap with
    | (cap, .error e) =>
      ({ s with cap := cap.discard p msg.capability },
        .error ((e.lift .ucan).wrap "requiring capabilities"))
    | (cap, .ok _) => ({ s with cap := cap }, .ok ())

/-- `Require`; a message of the actor to itself needs no capability. -/
def require (p : Platform) (o : Observed) (msg : Envelope) (invoke : List Capability)
    (s : SecurityContext) : Answer :=
  if s.id = msg.sender.id ∧ s.id = msg.receiver.id then (s, .ok ())
  else
    s.demand p o msg
      (fun cap => cap.requireInvocation p o.requiring s.did msg.sender.id s.id invoke)

def requireBroadcast (p : Platform) (o : Observed) (msg : Envelope) (topic : GoString)
    (broadcast : List Capability) (s : SecurityContext) : Answer :=
  if msg.isBroadcast = false then (s, .error ⟨["not a broadcast message"], .invalidMessage⟩)
  else if topic ≠ msg.options.topic then
    (s, .error ⟨["broadcast topic mismatch"], .invalidMessage⟩)
  else
    s.demand p o msg
      (fun cap => cap.requireBroadcast p o.requiring s.did msg.sender.id topic broadcast)

end SecurityContext

inductive Requirement
  | invoke (capabilities : List Capability)
  | broadcast (topic : GoString) (capabilities : List Capability)

def SecurityContext.answer (p : Platform) (o : Observed) (msg : Envelope) (s : SecurityContext) :
    Requirement → Answer
  | .invoke capabilities => s.require p o msg capabilities
  | .broadcast topic capabilities => s.requireBroadcast p o msg topic capabilities

def Refused (answer : Answer) : Prop :=
  ∃ e : GoError SecurityCause, answer.2 = .error (e.wrap "requiring capabilities")

/-- Every token about a subject that has not expired is still stored. -/
structure KeepsLive (now : Nat) (a b : Context) : Prop where
  mem : ∀ key, ∀ t ∈ a.held .subject key, t.expireBefore now = false → t ∈ b.held .subject key

namespace KeepsLive

theorem refl (now : Nat) (a : Context) : KeepsLive now a a := ⟨fun _ _ ht _ => ht⟩

theorem trans {now a b c} (hab : KeepsLive now a b) (hbc : KeepsLive now b c) : KeepsLive now a c :=
  ⟨fun key t ht hlive => hbc.mem key t (hab.mem key t ht hlive) hlive⟩

theorem getTokens (now : Nat) (s : Shelf) (key : DID) (ctx : Context) :
    KeepsLive now ctx (ctx.getTokens now s key).2 := by
  refine ⟨fun key' t ht hlive => ?_⟩
  rw [held_getTokens]
  split
  · next h =>
    obtain ⟨hs, rfl⟩ := h
    rw [← hs]
    exact mem_filter.mpr ⟨ht, by simp [hlive]⟩
  · exact ht

theorem reads (now now' : Nat) : Reads now' (KeepsLive now) := by
  refine ⟨refl now, trans, fun key ctx => ⟨fun key' t ht _ => ?_⟩⟩
  rw [held_getTokens]
  exact ht

theorem consume (p : Platform) (now : Nat) (call : Call) (origin : DID) (payload : GoString)
    (ctx : Context) : KeepsLive now ctx (ctx.consume p call origin payload).1 := by
  refine (reads now call.now).consume (fun t ctx _ => ⟨fun key u hu _ => ?_⟩) origin payload ctx
  rw [consumeSubjectToken, held_setHeld]
  split
  · next h => exact mem_append_left _ (h.2 ▸ hu)
  · exact hu

end KeepsLive

def Names (e : Token) (key : DID) (t : Token) : Prop :=
  e.subject = key ∧ e.issuer = t.issuer ∧ e.nonce = t.nonce

theorem mem_discardToken {ctx : Context} {e t key} :
    t ∈ (ctx.discardToken e).held .subject key ↔ t ∈ ctx.held .subject key ∧ ¬ Names e key t := by
  have hheld : (ctx.discardToken e).held .subject key =
      if key = e.subject then (ctx.held .subject e.subject).filter fun ot =>
        !(decide (e.issuer = ot.issuer) && decide (e.nonce = ot.nonce))
      else ctx.held .subject key := by
    unfold discardToken
    dsimp only
    split
    · next hnil =>
      change GoMap.list (ctx.tokens.erase e.subject) key = _
      rw [GoMap.list_erase, hnil]
      rfl
    · rw [held_setHeld]
      simp
  rw [hheld]
  by_cases hkey : key = e.subject
  · subst hkey
    rw [if_pos rfl, mem_filter]
    refine and_congr_right fun _ => ?_
    simp [Names, imp_iff_not_or]
  · rw [if_neg hkey]
    exact ⟨fun ht => ⟨ht, fun h => hkey h.1.symm⟩, fun h => h.1⟩

theorem mem_foldl_discardToken {tokens : List Token} {ctx t key} :
    t ∈ (tokens.foldl discardToken ctx).held .subject key ↔
      t ∈ ctx.held .subject key ∧ ∀ e ∈ tokens, ¬ Names e key t := by
  induction tokens generalizing ctx with
  | nil => simp
  | cons e tokens ih =>
    rw [foldl_cons, ih, mem_discardToken, forall_mem_cons, and_assoc]

/-- A refused message was consumed, and its tokens were discarded from a state that has
kept everything that was stored and has not expired. -/
theorem demand_refused {p} {o : Observed} {msg req} {s : SecurityContext}
    (hrequire : ∀ ctx, KeepsLive o.requiring.now ctx (req ctx).1)
    (h : Refused (s.demand p o msg req)) :
    ∃ tokens ctx, p.unmarshalTokens msg.capability = .ok tokens ∧
      KeepsLive o.requiring.now s.cap ctx ∧
      (s.demand p o msg req).1.cap = tokens.foldl discardToken ctx := by
  obtain ⟨e, he⟩ := h
  have hkeeps := KeepsLive.consume p o.requiring.now o.consuming msg.sender.did msg.capability s.cap
  unfold SecurityContext.demand at he ⊢
  cases hconsume : s.cap.consume p o.consuming msg.sender.did msg.capability with
  | mk cap r =>
    rw [hconsume] at he hkeeps
    cases r with
    | error e' =>
      have htext := congrArg GoError.context (Except.error.inj he)
      simp [GoError.wrap] at htext
    | ok _ =>
      have hrest := hrequire cap
      dsimp only at he ⊢
      cases hcheck : req cap with
      | mk cap' result' =>
        rw [hcheck] at he hrest
        cases result' with
        | ok _ => simp at he
        | error e' =>
          -- bytes that were consumed can be read, so that there are tokens to discard
          obtain ⟨tokens, htokens⟩ : ∃ tokens, p.unmarshalTokens msg.capability = .ok tokens := by
            unfold Context.consume at hconsume
            split at hconsume
            · simp at hconsume
            split at hconsume
            · simp at hconsume
            · next tokens hread => exact ⟨tokens, wrapLibrary_eq_ok.mp hread⟩
          refine ⟨tokens, cap', htokens, hkeeps.trans hrest, ?_⟩
          unfold Context.discard
          rw [htokens]

theorem refused_discards {p o msg} {s : SecurityContext} {r} (h : Refused (s.answer p o msg r)) :
    ∃ tokens ctx, p.unmarshalTokens msg.capability = .ok tokens ∧
      KeepsLive o.requiring.now s.cap ctx ∧
      (s.answer p o msg r).1.cap = tokens.foldl discardToken ctx := by
  cases r with
  | invoke capabilities =>
    unfold SecurityContext.answer SecurityContext.require at h ⊢
    dsimp only at h ⊢
    split at h
    · obtain ⟨e, ⟨⟩⟩ := h
    rename_i hself
    rw [if_neg hself]
    exact demand_refused
      (fun ctx => (KeepsLive.reads ..).requireInvocation (KeepsLive.getTokens _ _) ..) h
  | broadcast topic capabilities =>
    unfold SecurityContext.answer SecurityContext.requireBroadcast at h ⊢
    dsimp only at h ⊢
    split at h
    · obtain ⟨e, he⟩ := h
      simp [GoError.wrap] at he
    rename_i hbroadcast
    rw [if_neg hbroadcast]
    split at h
    · obtain ⟨e, he⟩ := h
      simp [GoError.wrap] at he
    rename_i htopic
    rw [if_neg htopic]
    exact demand_refused
      (fun ctx => (KeepsLive.reads ..).requireBroadcast (KeepsLive.getTokens _ _) ..) h

/-- No token that the bytes of the envelope list names a stored token that has not
expired. -/
def NamesNoStored (p : Platform) (now : Nat) (s : SecurityContext) (msg : Envelope) : Prop :=
  ∀ tokens, p.unmarshalTokens msg.capability = .ok tokens → ∀ e ∈ tokens,
    ∀ key, ∀ t ∈ s.cap.held .subject key, t.expireBefore now = false → ¬ Names e key t

/-- A refused message leaves what was stored exactly when it names none of it. -/
theorem refused_keeps_iff {p : Platform} {o : Observed} {msg : Envelope} {s : SecurityContext}
    {r : Requirement} (h : Refused (s.answer p o msg r)) :
    KeepsLive o.requiring.now s.cap (s.answer p o msg r).1.cap ↔
      NamesNoStored p o.requiring.now s msg := by
  obtain ⟨tokens, ctx, htokens, hkeeps, heq⟩ := refused_discards h
  rw [heq]
  constructor
  · intro hafter tokens' htokens' e he key t ht hlive
    obtain rfl : tokens = tokens' := Except.ok.inj (htokens.symm.trans htokens')
    exact (mem_foldl_discardToken.mp (hafter.mem key t ht hlive)).2 e he
  intro hnames
  refine ⟨fun key t ht hlive => mem_foldl_discardToken.mpr ⟨hkeeps.mem key t ht hlive, ?_⟩⟩
  intro e he
  exact hnames tokens htokens e he key t ht hlive

def storedToken : Token :=
  .sealed (.root ⟨.invoke, ⟨ascii "did:a"⟩, ⟨ascii "did:s"⟩, .zero, [], [⟨ascii "/dms/x"⟩], [1],
    30, 0, []⟩)

def forgedToken (nonce : UInt8) : Token :=
  .root ⟨.invoke, ⟨ascii "did:a"⟩, ⟨ascii "did:s"⟩, .zero, [], [], [nonce], 30, 0, []⟩

def storedContext : SecurityContext where
  id := ascii "did:me"
  cap := (sampleContext ⟨ascii "did:me"⟩).setHeld .subject ⟨ascii "did:s"⟩ [storedToken]

def refusedEnvelope : Envelope where
  receiver := ⟨ascii "did:me", .zero, ⟨[], []⟩⟩
  behavior := ascii "/dms/y"
  sender := ⟨ascii "did:s", ⟨ascii "did:s"⟩, ⟨[], []⟩⟩
  options := ⟨[]⟩
  capability := ascii "cap"

def refusal (nonce : UInt8) : Answer :=
  storedContext.answer (samplePlatform fun _ => .ok [forgedToken nonce])
    ⟨sampleCall 10, sampleCall 10⟩ refusedEnvelope (.invoke [⟨ascii "/dms/y"⟩])

theorem refused_refusal (nonce : UInt8) : Refused (refusal nonce) :=
  ⟨⟨[], .ucan .notAuthorized⟩, rfl⟩

theorem mem_storedContext {key t}
    (h : t ∈ storedContext.cap.held .subject key) : t = storedToken := by
  change t ∈ ((sampleContext ⟨ascii "did:me"⟩).setHeld .subject ⟨ascii "did:s"⟩
    [storedToken]).held .subject key at h
  rw [held_setHeld] at h
  split at h
  · exact mem_singleton.mp h
  · exact absurd h (by simp [sampleContext, blank, held, shelf])

theorem storedToken_mem : storedToken ∈ storedContext.cap.held .subject ⟨ascii "did:s"⟩ ∧
      storedToken.expireBefore 10 = false := by
  decide

theorem refusal_keeps_stored :
    Refused (refusal 2) ∧ storedToken ∈ (refusal 2).1.cap.held .subject ⟨ascii "did:s"⟩ := by
  refine ⟨refused_refusal 2, ((refused_keeps_iff (refused_refusal 2)).mpr ?_).mem _ storedToken
    storedToken_mem.1 storedToken_mem.2⟩
  intro tokens htokens e he key t ht _ hnames
  obtain rfl : [forgedToken 2] = tokens := Except.ok.inj htokens
  obtain rfl := mem_storedContext ht
  rw [mem_singleton.mp he] at hnames
  exact absurd hnames.2.2 (by decide)

/-- The forged token names the stored one, and the stored one is gone. -/
theorem refusal_loses_stored :
    Refused (refusal 1) ∧ storedToken ∈ storedContext.cap.held .subject ⟨ascii "did:s"⟩ ∧
      storedToken.expireBefore 10 = false ∧
      (forgedToken 1).verify (samplePlatform fun _ => .ok [forgedToken 1]) 10 ∅ ≠ .ok () ∧
      storedToken ∉ (refusal 1).1.cap.held .subject ⟨ascii "did:s"⟩ :=
  ⟨refused_refusal 1, storedToken_mem.1, storedToken_mem.2, by decide, by decide⟩

end DMS.Actor
