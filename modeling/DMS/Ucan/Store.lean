import DMS.Ucan.Effects

/-! # Saving and loading a context

`lib/ucan/store.go`. What is saved is the listing of the anchors; what was consumed
about subjects is not. Loading leaves out what has expired and replays the rest
through `AddRoots` on a new context.
-/

namespace DMS.Ucan

open Did

structure CapabilityContextView where
  did : DID
  roots : List DID
  require : List Token
  provide : List Token
  revoke : List Token

/-- The encoder and the decoder of views; `δ` is what the writer holds. -/
structure ViewCodec (δ : Type) where
  encode : CapabilityContextView → Except GoString δ
  decode : δ → Except GoString CapabilityContextView

def ViewCodec.Lossless {δ : Type} (codec : ViewCodec δ) : Prop :=
  ∀ view, ∃ data, codec.encode view = .ok data ∧ codec.decode data = .ok view

def sampleCodec : ViewCodec CapabilityContextView := ⟨.ok, .ok⟩

theorem sampleCodec_lossless : sampleCodec.Lossless := fun view => ⟨view, rfl, rfl⟩

namespace Context

variable {δ : Type}

def saveCapabilityContext (codec : ViewCodec δ) (call : Call) (ctx : Context) :
    Context × Result δ :=
  let (lists, ctx) := ctx.listRoots call
  (ctx, wrapLibrary "encoding capability context view"
    (codec.encode ⟨ctx.did, lists.roots, lists.require, lists.provide, lists.revoke⟩))

/-- The loops over `Expired`. -/
def unexpired (now : Nat) (tokens : List Token) : List Token :=
  tokens.filter fun t => !t.expireBefore now

def loadCapabilityContextWithName (p : Platform) (codec : ViewCodec δ) (call : Call)
    (name : GoString) (data : δ) : Result Context :=
  (wrapLibrary "decoding capability context view" (codec.decode data)).bind fun view =>
    newCapabilityContext p call name view.did view.roots (unexpired call.now view.require)
      (unexpired call.now view.provide) (unexpired call.now view.revoke)

/-- Save at one time and load at another; a context that cannot be loaded goes on
as it was. -/
def reload (p : Platform) (codec : ViewCodec δ) (saved call : Call) (ctx : Context) : Context :=
  match saveCapabilityContext codec saved ctx with
  | (ctx, .error _) => ctx
  | (ctx, .ok data) =>
    match loadCapabilityContextWithName p codec call ctx.name data with
    | .error _ => ctx
    | .ok loaded => loaded

theorem newCapabilityContext_eq_ok {p call name ctxDID roots req prov rev ctx} :
    newCapabilityContext p call name ctxDID roots req prov rev = .ok ctx ↔
      ∃ pr, p.trust.getProvider ctxDID = .ok pr ∧
        (addRoots p call roots req prov rev (blank name pr)).2 = .ok () ∧
        (addRoots p call roots req prov rev (blank name pr)).1 = ctx := by
  unfold newCapabilityContext
  simp only [Outcome.bind_eq_ok, wrapLibrary_eq_ok]
  refine exists_congr fun pr => and_congr_right fun _ => ?_
  cases (addRoots p call roots req prov rev (blank name pr)).2 with
  | error e | ok u => simp [Except.mapError, Except.map]

/-- What a context is replaced by when it is loaded from its own listing. -/
structure Reloaded (p : Platform) (saved call : Call) (ctx loaded : Context)
    (provider : Provider) : Prop where
  getProvider : p.trust.getProvider ctx.did = .ok provider
  accepted : (addRoots p call (ctx.listRoots saved).1.roots
    (unexpired call.now (ctx.listRoots saved).1.require)
    (unexpired call.now (ctx.listRoots saved).1.provide)
    (unexpired call.now (ctx.listRoots saved).1.revoke) (blank ctx.name provider)).2 = .ok ()
  loaded : loaded = (addRoots p call (ctx.listRoots saved).1.roots
    (unexpired call.now (ctx.listRoots saved).1.require)
    (unexpired call.now (ctx.listRoots saved).1.provide)
    (unexpired call.now (ctx.listRoots saved).1.revoke) (blank ctx.name provider)).1

theorem did_of_sheds {a b} (h : Sheds a b) : b.did = a.did := by
  unfold did
  rw [h.provider]

theorem reload_cases {p} {codec : ViewCodec δ} (hcodec : codec.Lossless)
    (saved call : Call) (ctx : Context) : Sheds ctx (reload p codec saved call ctx) ∨
      ∃ pr, Reloaded p saved call ctx (reload p codec saved call ctx) pr := by
  have hlist := listRoots_sheds saved ctx
  obtain ⟨data, hencode, hdecode⟩ := hcodec ⟨(ctx.listRoots saved).2.did,
    (ctx.listRoots saved).1.roots, (ctx.listRoots saved).1.require,
    (ctx.listRoots saved).1.provide, (ctx.listRoots saved).1.revoke⟩
  have hsave : saveCapabilityContext codec saved ctx = ((ctx.listRoots saved).2, .ok data) := by
    unfold saveCapabilityContext
    dsimp only
    rw [hencode]
    rfl
  rw [reload, hsave]
  dsimp only
  split
  · exact .inl hlist
  rename_i loaded hload
  unfold loadCapabilityContextWithName at hload
  rw [hdecode, hlist.name] at hload
  obtain ⟨pr, hprovider, hok, hstate⟩ := newCapabilityContext_eq_ok.mp hload
  rw [did_of_sheds hlist] at hprovider
  exact .inr ⟨pr, hprovider, hok, hstate.symm⟩

end Context

end DMS.Ucan
