import DMS.Ucan.Delegation
import DMS.Ucan.Store
import DMS.Core.Reach

/-! # Runs of a capability context

A run starts from a new context and takes operations one after another under a
clock that does not go back. `exec_cases` says once what an operation can do to
the state; the invariants of runs are proved from it.
-/

namespace DMS.Ucan

open Did Context

/-- The operations of a context with their arguments. Saving and loading again is
one operation that reads the clock twice. -/
inductive Op
  | addRoots (roots : List DID) (require provide revoke : List Token)
  | removeRoots (trust : List DID) (require provide revoke : List Token)
  | consume (origin : DID) (capToken : GoString)
  | discard (capTokens : GoString)
  | require (anchor : DID) (subject audience : GoString) (require : List Capability)
  | requireBroadcast (anchor : DID) (subject topic : GoString) (require : List Capability)
  | listRoots
  | delegate (subject audience : DID) (topics : List GoString) (expire depth : Nat)
      (provide : List Capability) (selfSign : SelfSign)
  | delegateInvocation (target subject audience : DID) (expire : Nat)
      (provide : List Capability) (selfSign : SelfSign)
  | delegateBroadcast (subject : DID) (topic : GoString) (expire : Nat)
      (provide : List Capability) (selfSign : SelfSign)
  | gcTokens
  | reload (saved : Call)

structure World where
  ctx : Context
  clock : Nat

structure Label where
  call : Call
  op : Op

section Step

variable {δ : Type} (p : Platform) (codec : ViewCodec δ)

def exec (call : Call) : Op → Context → Context
  | .addRoots roots require provide revoke, ctx =>
    (ctx.addRoots p call roots require provide revoke).1
  | .removeRoots trust require provide revoke, ctx => ctx.removeRoots trust require provide revoke
  | .consume origin capToken, ctx => (ctx.consume p call origin capToken).1
  | .discard capTokens, ctx => ctx.discard p capTokens
  | .require anchor subject audience require, ctx =>
    (ctx.requireInvocation p call anchor subject audience require).1
  | .requireBroadcast anchor subject topic require, ctx =>
    (Context.requireBroadcast p call anchor subject topic require ctx).1
  | .listRoots, ctx => (ctx.listRoots call).2
  | .delegate subject audience topics expire depth provide selfSign, ctx =>
    (ctx.delegate p call subject audience topics expire depth provide selfSign).1
  | .delegateInvocation target subject audience expire provide selfSign, ctx =>
    (ctx.delegateInvocation p call target subject audience expire provide selfSign).1
  | .delegateBroadcast subject topic expire provide selfSign, ctx =>
    (ctx.delegateBroadcast p call subject topic expire provide selfSign).1
  | .gcTokens, ctx => ctx.gcTokens call
  | .reload saved, ctx => ctx.reload p codec saved call

def World.step (w : World) (l : Label) : World := ⟨exec p codec l.call l.op w.ctx, l.call.now⟩

/-- The clock does not go back, between operations or within one. -/
def World.onTime (w : World) (l : Label) : Prop := w.clock ≤ l.call.now ∧ match l.op with
    | .reload saved => w.clock ≤ saved.now ∧ saved.now ≤ l.call.now
    | _ => True

def World.Fresh (w : World) : Prop := ∃ call name ctxDID roots require provide revoke,
    newCapabilityContext p call name ctxDID roots require provide revoke = .ok w.ctx ∧
      w.clock = call.now

def Booted (call : Call) (ctx : Context) : Prop := ∃ name provider roots require provide revoke,
    (addRoots p call roots require provide revoke (blank name provider)).2 = .ok () ∧
      ctx = (addRoots p call roots require provide revoke (blank name provider)).1

abbrev GuardedRun (guard : World → Label → Prop) : World → Prop :=
  Reach (World.Fresh p) (fun w l => w.onTime l ∧ guard w l) (World.step p codec)

abbrev Run : World → Prop := GuardedRun p codec fun _ _ => True

end Step

variable {δ : Type} {p : Platform} {codec : ViewCodec δ}

theorem World.Fresh.booted {w : World} (h : w.Fresh p) :
    ∃ call, Booted p call w.ctx ∧ w.clock = call.now := by
  obtain ⟨call, name, ctxDID, roots, require, prov, rev, hnew, hclock⟩ := h
  obtain ⟨pr, _, hok, hctx⟩ := newCapabilityContext_eq_ok.mp hnew
  exact ⟨call, ⟨name, pr, roots, require, prov, rev, hok, hctx.symm⟩, hclock⟩

theorem reloaded_booted {saved call ctx loaded pr}
    (h : Reloaded p saved call ctx loaded pr) : Booted p call loaded :=
  ⟨_, pr, _, _, _, _, h.accepted, h.loaded⟩

theorem held_blank (name : GoString) (pr : Provider) (s : Shelf) (key : DID) :
    (blank name pr).held s key = [] := by
  cases s <;> exact GoMap.list_empty key

theorem Booted.verified {call ctx} (h : Booted p call ctx) {s key t}
    (ht : t ∈ ctx.held s key) : t.verify p call.now ctx.revoke = .ok () := by
  obtain ⟨_, _, _, _, _, _, hok, rfl⟩ := h
  rw [addRoots_taken.revocations]
  exact addRoots_verified hok ht

theorem Booted.subject {call ctx} (h : Booted p call ctx) (key : DID) :
    ctx.held .subject key = [] := by
  obtain ⟨name, pr, _, _, _, _, _, rfl⟩ := h
  apply List.eq_nil_iff_forall_not_mem.mpr
  intro t ht
  have hmem := mem_subject_addRoots ht
  simp [held_blank] at hmem

theorem exec_cases (p : Platform) (codec : ViewCodec δ) (call : Call) (op : Op) (ctx : Context) :
    Sheds ctx (exec p codec call op ctx) ∨
      (∃ roots require prov rev, op = .addRoots roots require prov rev) ∨
      (∃ trust require prov rev, op = .removeRoots trust require prov rev) ∨
      (∃ origin capToken, op = .consume origin capToken) ∨
      op = .gcTokens ∨ ∃ saved, op = .reload saved := by
  cases op with
  | addRoots | removeRoots | consume | gcTokens | reload => simp
  | discard capTokens => exact .inl (discard_sheds ..)
  | require => exact .inl ((reads_sheds _).requireInvocation (getTokens_sheds _ _) ..)
  | requireBroadcast => exact .inl ((reads_sheds _).requireBroadcast (getTokens_sheds _ _) ..)
  | listRoots => exact .inl (listRoots_sheds ..)
  | delegate => exact .inl (delegate_sheds ..)
  | delegateInvocation => exact .inl (delegateInvocation_sheds ..)
  | delegateBroadcast => exact .inl (delegateBroadcast_sheds ..)

/-- The steps of a run keep a property of worlds, one obligation per kind of step. -/
structure Kept (p : Platform) (guard : World → Label → Prop) (Inv : World → Prop) : Prop where
  sheds : ∀ w now b, Inv w → w.clock ≤ now → Sheds w.ctx b → Inv ⟨b, now⟩
  addRoots : ∀ w call roots require provide revoke, Inv w → w.clock ≤ call.now →
    guard w ⟨call, .addRoots roots require provide revoke⟩ →
    Inv ⟨(w.ctx.addRoots p call roots require provide revoke).1, call.now⟩
  removeRoots : ∀ w call trust require provide revoke, Inv w → w.clock ≤ call.now →
    guard w ⟨call, .removeRoots trust require provide revoke⟩ →
    Inv ⟨w.ctx.removeRoots trust require provide revoke, call.now⟩
  consume : ∀ w call origin capToken, Inv w → w.clock ≤ call.now →
    guard w ⟨call, .consume origin capToken⟩ → Inv
    ⟨(w.ctx.consume p call origin capToken).1, call.now⟩
  gcTokens : ∀ w call, Inv w → w.clock ≤ call.now → Inv ⟨w.ctx.gcTokens call, call.now⟩
  reload : ∀ w saved call loaded provider, Inv w → w.clock ≤ saved.now → saved.now ≤ call.now →
    Reloaded p saved call w.ctx loaded provider → Inv ⟨loaded, call.now⟩

variable {guard : World → Label → Prop} {Inv : World → Prop}

theorem Kept.step (h : Kept p guard Inv) (hcodec : codec.Lossless) {w l}
    (hw : Inv w) (htime : w.onTime l) (hguard : guard w l) : Inv (w.step p codec l) := by
  obtain ⟨call, op⟩ := l
  obtain ⟨hnow, hinner⟩ := htime
  rcases exec_cases p codec call op w.ctx with hsheds | ⟨_, _, _, _, rfl⟩ |
    ⟨_, _, _, _, rfl⟩ | ⟨_, _, rfl⟩ | rfl | ⟨saved, rfl⟩
  · exact h.sheds w call.now _ hw hnow hsheds
  · exact h.addRoots w call _ _ _ _ hw hnow hguard
  · exact h.removeRoots w call _ _ _ _ hw hnow hguard
  · exact h.consume w call _ _ hw hnow hguard
  · exact h.gcTokens w call hw hnow
  rcases reload_cases hcodec saved call w.ctx with hsheds | ⟨pr, hloaded⟩
  · exact h.sheds w call.now _ hw hnow hsheds
  · exact h.reload w saved call _ pr hw hinner.1 hinner.2 hloaded

theorem Kept.run (h : Kept p guard Inv) (hcodec : codec.Lossless)
    (hbooted : ∀ call ctx, Booted p call ctx → Inv ⟨ctx, call.now⟩) {w}
    (hrun : GuardedRun p codec guard w) : Inv w := by
  refine Reach.invariant Inv ?_ (fun s l hs hl => h.step hcodec hs hl.1 hl.2) hrun
  rintro ⟨ctx, clock⟩ hfresh
  obtain ⟨call, hboot, hclock⟩ := hfresh.booted
  obtain rfl : clock = call.now := hclock
  exact hbooted call ctx hboot

def sampleWorld (wire : GoString → Except GoString (List Token)) (did : DID) (roots : List DID)
    (require provide : List Token) : World :=
  ⟨((sampleContext did).addRoots (samplePlatform wire) (sampleCall 5) roots require provide []).1,
    5⟩

theorem sampleWorld_fresh {wire did roots require prov}
    (h : ((sampleContext did).addRoots (samplePlatform wire) (sampleCall 5) roots require prov
      []).2 = .ok ()) : (sampleWorld wire did roots require prov).Fresh (samplePlatform wire) :=
  ⟨sampleCall 5, ascii "dms", did, roots, require, prov, [],
    newCapabilityContext_eq_ok.mpr ⟨_, rfl, h, rfl⟩, rfl⟩

end DMS.Ucan
