import DMS.Ucan.Permanence
import DMS.Ucan.Subsumption

/-! # Saving a context and loading it again

Loading replays the listing of a context through `AddRoots`. The replay restores the context because
what is stored verifies under the stored revocations, sits under its issuer, and holds no two tokens
of which one subsumes the other.
-/

namespace DMS.Ucan

open Did Token List

namespace Context

def Antichain (s : Shelf) (ctx : Context) : Prop :=
  ∀ key, ∀ x ∈ ctx.held s key, ∀ y ∈ ctx.held s key, x.subsumes y = true → x = y

variable {s s' : Shelf} {ctx : Context} {t : Token} {key : DID} {p : Platform} {call : Call}
  {roots : List DID}

theorem Antichain.trims {a b} (h : Antichain s a) (hab : Trims a b) : Antichain s b :=
  fun key x hx y hy => h key x (hab.mem hx) y (hab.mem hy)

theorem Antichain.consumeAnchorToken (h : Antichain s ctx)
    (t : Token) : Antichain s (consumeAnchorToken s' ctx t) := by
  rcases consumeAnchorToken_cases s' ctx t with ⟨_, heq⟩ | ⟨hnone, heq⟩
  · rw [heq]
    exact h
  intro key x hx y hy hsub
  rw [heq, held_setHeld] at hx hy
  split at hx
  · next hkey =>
    obtain ⟨rfl, rfl⟩ := hkey
    rw [if_pos ⟨rfl, rfl⟩] at hy
    simp only [mem_append, mem_filter, Bool.not_eq_true', mem_singleton] at hx hy
    rcases hx with ⟨hx, _⟩ | rfl
    · rcases hy with ⟨hy, _⟩ | rfl
      · exact h _ x hx y hy hsub
      · rw [hnone x hx] at hsub
        exact Bool.noConfusion hsub
    rcases hy with ⟨_, hnot⟩ | rfl
    · rw [hnot] at hsub
      exact Bool.noConfusion hsub
    · rfl
  rename_i hkey
  rw [if_neg hkey] at hy
  exact h key x hx y hy hsub

section AddRoots

variable {p : Platform} {call : Call} {roots : List DID} {req prov rev : List Token}
  {ctx : Context}

theorem Antichain.addRoots {s} (h : Antichain s ctx) :
    Antichain s (ctx.addRoots p call roots req prov rev).1 := by
  refine andThen_invariant ?_ fun h => ?_
  · rw [(takeAll_revocations p call.now rev (ctx.insertRoots roots)).1]
    cases s <;> exact h
  refine andThen_invariant ?_ fun h => ?_
  · exact takeAll_invariant (fun _ t _ h _ => h.consumeAnchorToken t) h
  refine andThen_invariant ?_ fun h => ?_
  · exact takeAll_invariant (fun _ t _ h _ => h.consumeAnchorToken t) h
  · exact h.trims (cleanUpTokens_sheds p call _).toTrims

end AddRoots

theorem held_foldl_consumeAnchorToken_of_ne (hs : s' ≠ s) (ts : List Token)
    (ctx : Context) (key : DID) :
    (ts.foldl (consumeAnchorToken s) ctx).held s' key = ctx.held s' key := by
  induction ts generalizing ctx with
  | nil => rfl
  | cons t ts ih =>
    rw [foldl_cons, ih]
    rcases consumeAnchorToken_cases s ctx t with ⟨_, heq⟩ | ⟨_, heq⟩
    · rw [heq]
    · rw [heq, held_setHeld, if_neg (fun h => hs h.1)]

theorem mem_consumeAnchorToken_iff {u}
    (ht : ∀ ot ∈ ctx.held s t.issuer, ot.subsumes t = true → ot = t)
    (ht' : ∀ ot ∈ ctx.held s t.issuer, t.subsumes ot = true → t = ot) :
    u ∈ (consumeAnchorToken s ctx t).held s key ↔
      u ∈ ctx.held s key ∨ (u = t ∧ key = t.issuer) := by
  constructor
  · intro hu
    rcases mem_held_consumeAnchorToken hu with hu | ⟨_, hkey, rfl⟩
    · exact .inl hu
    · exact .inr ⟨rfl, hkey⟩
  rintro (hu | ⟨rfl, rfl⟩)
  · rcases mem_consumeAnchorToken t hu with hu | ⟨rfl, hsub, hmem⟩
    · exact hu
    · rw [← ht' u hu hsub]
      exact hmem
  rcases consumeAnchorToken_cases s ctx u with ⟨⟨ot, hot, hsub⟩, heq⟩ | ⟨_, heq⟩
  · rw [heq, ← ht ot hot hsub]
    have hissuer := (subsumption_of_subsumes hsub).issuer
    rw [hissuer]
    exact hot
  · rw [heq, held_setHeld]
    simp

theorem mem_foldl_consumeAnchorToken {U : Token → Prop}
    (hU : ∀ x y, U x → U y → x.subsumes y = true → x = y) {ts : List Token} (hts : ∀ t ∈ ts, U t)
    (hctx : ∀ key, ∀ t ∈ ctx.held s key, U t) {u : Token} :
    u ∈ (ts.foldl (consumeAnchorToken s) ctx).held s key ↔
      u ∈ ctx.held s key ∨ (u ∈ ts ∧ key = u.issuer) := by
  induction ts generalizing ctx with
  | nil => simp
  | cons t ts ih =>
    have htU : U t := hts t (by simp)
    have hone : ∀ {v key}, v ∈ (consumeAnchorToken s ctx t).held s key ↔
        v ∈ ctx.held s key ∨ (v = t ∧ key = t.issuer) :=
      mem_consumeAnchorToken_iff (fun ot hot => hU ot t (hctx _ ot hot) htU)
        (fun ot hot => hU t ot htU (hctx _ ot hot))
    have hnext : ∀ key, ∀ v ∈ (consumeAnchorToken s ctx t).held s key, U v := by
      intro key v hv
      rcases hone.mp hv with hv | ⟨rfl, _⟩
      · exact hctx key v hv
      · exact htU
    rw [foldl_cons, ih (fun v hv => hts v (by simp [hv])) hnext, hone, mem_cons]
    constructor
    · rintro ((hu | ⟨rfl, hkey⟩) | ⟨hu, hkey⟩)
      · exact .inl hu
      · exact .inr ⟨.inl rfl, hkey⟩
      · exact .inr ⟨.inr hu, hkey⟩
    rintro (hu | ⟨rfl | hu, hkey⟩)
    · exact .inl (.inl hu)
    · exact .inl (.inr ⟨rfl, hkey⟩)
    · exact .inr ⟨hu, hkey⟩

theorem takeAll_of_ok {check take ts} (h : (takeAll check take ts ctx).2 = .ok ()) :
    (takeAll check take ts ctx).1 = ts.foldl take ctx := by
  induction ts generalizing ctx with
  | nil => rfl
  | cons t ts ih =>
    unfold takeAll at h ⊢
    split at h
    · simp at h
    · exact ih h

theorem mem_addRoots_of_empty
    {req prov rev : List Token} {ctx : Context} (hheld : ∀ s key, ctx.held s key = [])
    (hok : (ctx.addRoots p call roots req prov rev).2 = .ok ())
    (hrequire : ∀ x ∈ req, ∀ y ∈ req, x.subsumes y = true → x = y)
    (hprovide : ∀ x ∈ prov, ∀ y ∈ prov, x.subsumes y = true → x = y) :
    (t ∈ (ctx.addRoots p call roots req prov rev).1.held .require key ↔ t ∈ req ∧ key = t.issuer) ∧
    (t ∈ (ctx.addRoots p call roots req prov rev).1.held .provide key ↔
      t ∈ prov ∧ key = t.issuer) := by
  have hall := (addRoots_eq_ok.mp hok).2
  have hstages := hok
  unfold addRoots at hstages
  simp only [andThen_eq_ok] at hstages
  obtain ⟨_, hrequireok, hprovideok, _⟩ := hstages
  -- the states between the loops
  have hbase : ∀ s key, (afterRevoke p call roots rev ctx).1.held s key = [] := by
    intro s key
    rw [afterRevoke, (takeAll_revocations p call.now rev _).1]
    exact (by cases s <;> rfl : _ = ctx.held s key).trans (hheld s key)
  have hafterRequire : (afterRequire p call roots req rev ctx).1 =
      req.foldl (consumeAnchorToken .require) (afterRevoke p call roots rev ctx).1 :=
    takeAll_of_ok hrequireok
  have hafterProvide : (afterProvide p call roots req prov rev ctx).1 =
      prov.foldl (consumeAnchorToken .provide) (afterRequire p call roots req rev ctx).1 :=
    takeAll_of_ok hprovideok
  have hclean : ∀ s {u}, u ∈ (ctx.addRoots p call roots req prov rev).1.held s key ↔
      u ∈ (afterProvide p call roots req prov rev ctx).1.held s key ∧
        u.verify p call.now (revokedAfter p call rev ctx) = .ok () := by
    intro s u
    rw [addRoots_of_ok hok, held_cleanUpTokens,
      (afterProvide_taken roots req prov).revocations]
    simp [verified]
  constructor
  · rw [hclean, hafterProvide, held_foldl_consumeAnchorToken_of_ne (by decide), hafterRequire,
      mem_foldl_consumeAnchorToken (fun x y hx hy => hrequire x hx y hy) (fun _ h => h)
        (fun key t ht => by simp [hbase] at ht)]
    simp only [hbase, not_mem_nil, false_or]
    exact ⟨fun h => h.1, fun h => ⟨h, hall t (by simp [h.1])⟩⟩
  have hempty : ∀ key, (afterRequire p call roots req rev ctx).1.held
      .provide key = [] := by
    intro key
    rw [hafterRequire, held_foldl_consumeAnchorToken_of_ne (by decide), hbase]
  rw [hclean, hafterProvide,
    mem_foldl_consumeAnchorToken (fun x y hx hy => hprovide x hx y hy) (fun _ h => h)
      (fun key t ht => by simp [hempty] at ht)]
  simp only [hempty, not_mem_nil, false_or]
  exact ⟨fun h => h.1, fun h => ⟨h, hall t (by simp [h.1])⟩⟩

theorem held_gather (now : Nat) (s s' : Shelf) (anchors : List DID) (ctx : Context) (key : DID) :
    (gather now s anchors ctx).2.held s' key =
      if s' = s ∧ key ∈ anchors then (ctx.held s' key).filter (fun t => !t.expireBefore now)
      else ctx.held s' key := by
  induction anchors generalizing ctx with
  | nil => simp [gather]
  | cons anchor rest ih =>
    show (gather now s rest (getTokens now s anchor ctx).2).2.held s' key = _
    rw [ih, held_getTokens]
    by_cases hs : s' = s
    · subst hs
      by_cases hkey : key = anchor
      · subst hkey
        simp
      · simp [hkey]
    · simp [hs]

theorem mem_gather {now anchors} : t ∈ (gather now s anchors ctx).1 ↔
      ∃ key ∈ anchors, t ∈ ctx.held s key ∧ t.expireBefore now = false := by
  induction anchors generalizing ctx with
  | nil => simp [gather]
  | cons anchor rest ih =>
    show t ∈ (getTokens now s anchor ctx).1 ++
      (gather now s rest (getTokens now s anchor ctx).2).1 ↔ _
    have hread : ∀ key, (t ∈ (getTokens now s anchor ctx).2.held s key ∧
        t.expireBefore now = false) ↔ (t ∈ ctx.held s key ∧ t.expireBefore now = false) := by
      intro key
      rw [held_getTokens]
      by_cases hkey : key = anchor
      · subst hkey
        simp
      · rw [if_neg (fun h => hkey h.2)]
    rw [mem_append, mem_getTokens, ih]
    simp [hread, mem_cons, exists_eq_or_imp]

theorem mem_listRoots_require : t ∈ (ctx.listRoots call).1.require ↔
      ∃ key, t ∈ ctx.held .require key ∧ t.expireBefore call.now = false := by
  show t ∈ (gather call.now .require (ctx.getRequireAnchors call) ctx).1 ↔ _
  rw [mem_gather]
  constructor
  · rintro ⟨key, _, h⟩
    exact ⟨key, h⟩
  · rintro ⟨key, h⟩
    exact ⟨key, call.order.mem_visit.mpr (GoMap.mem_keys_of_mem_list h.1), h⟩

theorem mem_listRoots_provide : t ∈ (ctx.listRoots call).1.provide ↔
      ∃ key, t ∈ ctx.held .provide key ∧ t.expireBefore call.now = false := by
  have hframe : ∀ key, (gather call.now .require (ctx.getRequireAnchors call) ctx).2.held .provide
      key = ctx.held .provide key := by
    intro key
    rw [held_gather, if_neg (fun h => Shelf.noConfusion h.1)]
  show t ∈ (gather call.now .provide
    ((gather call.now .require (ctx.getRequireAnchors call) ctx).2.getProvideAnchors call)
    (gather call.now .require (ctx.getRequireAnchors call) ctx).2).1 ↔ _
  rw [mem_gather]
  simp only [hframe]
  constructor
  · rintro ⟨key, _, h⟩
    exact ⟨key, h⟩
  rintro ⟨key, h⟩
  have hmem : t ∈ (gather call.now .require (ctx.getRequireAnchors call) ctx).2.held .provide
      key := by
    rw [hframe]
    exact h.1
  exact ⟨key, call.order.mem_visit.mpr (GoMap.mem_keys_of_mem_list hmem), h⟩

theorem mem_insertRoots {root} :
    root ∈ (ctx.insertRoots roots).roots ↔ root ∈ ctx.roots ∨ root ∈ roots := by
  unfold insertRoots
  generalize ctx.roots = m
  induction roots generalizing m with
  | nil => simp
  | cons a roots ih =>
    rw [foldl_cons, ih, AList.mem_insert, mem_cons]
    tauto

structure Sound (p : Platform) (s : Shelf) (ctx : Context) : Prop where
  issuer : ∀ key, ∀ t ∈ ctx.held s key, t.issuer = key
  valid : ∀ key, ∀ t ∈ ctx.held s key, t.Valid p ctx.revoke 0
  antichain : Antichain s ctx

theorem Sound.trims {a b} (h : Sound p s a) (hab : Trims a b)
    (hrevoke : ∀ key, b.revoke.revoked key = true → a.revoke.revoked key = true) : Sound p s b where
  issuer key t ht := h.issuer key t (hab.mem ht)
  valid key t ht := (h.valid key t (hab.mem ht)).mono hrevoke
  antichain := h.antichain.trims hab

theorem Sound.addRoots {req prov rev} (h : Sound p s ctx)
    (hok : (ctx.addRoots p call roots req prov rev).2 = .ok ()) :
    Sound p s (ctx.addRoots p call roots req prov rev).1 where
  issuer key t ht := by
    rcases addRoots_taken.held s key t ht with hold | ⟨_, hkey, _⟩
    · exact h.issuer key t hold
    · exact hkey.symm
  valid key t ht := by
    rw [addRoots_taken.revocations]
    exact (verify_eq_ok_iff.mp (addRoots_verified hok ht)).2
  antichain := h.antichain.addRoots

end Context

open Context

structure Storable (p : Platform) (ctx : Context) : Prop where
  require : Sound p .require ctx
  provide : Sound p .provide ctx
  filed : RevocationsFiled p ctx

theorem storable_blank (p : Platform) (name : GoString) (pr : Provider) :
    Storable p (blank name pr) := by
  have hsound : ∀ s, Sound p s (blank name pr) := by
    intro s
    refine ⟨?_, ?_, ?_⟩
    · intro key t ht
      simp [held_blank] at ht
    · intro key t ht
      simp [held_blank] at ht
    · intro key x hx
      simp [held_blank] at hx
  exact ⟨hsound .require, hsound .provide, revocationsFiled_blank p name pr⟩

variable {p : Platform}

theorem Storable.addRoots {call roots req prov rev ctx} (h : Storable p ctx)
    (hok : (ctx.addRoots p call roots req prov rev).2 = .ok ()) :
    Storable p (ctx.addRoots p call roots req prov rev).1 :=
  ⟨h.require.addRoots hok, h.provide.addRoots hok, h.filed.addRoots⟩

theorem Storable.trims {a b} (h : Storable p a) (hab : Trims a b)
    (hrevoke : ∀ key r, b.revoke.lookup key = some r → a.revoke.lookup key = some r) :
    Storable p b := by
  have hkeys : ∀ key, b.revoke.revoked key = true → a.revoke.revoked key = true := by
    intro key hkey
    obtain ⟨r, hr⟩ := Option.isSome_iff_exists.mp hkey
    exact Option.isSome_iff_exists.mpr ⟨r, hrevoke key r hr⟩
  exact ⟨h.require.trims hab hkeys, h.provide.trims hab hkeys, h.filed.mono hrevoke⟩

theorem Booted.storable {call ctx} (h : Booted p call ctx) : Storable p ctx := by
  obtain ⟨name, pr, _, _, _, _, hok, rfl⟩ := h
  exact (storable_blank p name pr).addRoots hok

def Anchoring (p : Platform) (w : World) (l : Label) : Prop :=
  match l.op with
  | .addRoots roots require provide revoke =>
    (w.ctx.addRoots p l.call roots require provide revoke).2 = .ok ()
  | .removeRoots _ _ _ _ => True
  | .gcTokens => True
  | _ => False

theorem storable_kept (p : Platform) : Kept p (Anchoring p) fun w => Storable p w.ctx where
  sheds _ _ _ hw _ hsheds := hw.trims hsheds.toTrims fun key r hr => by rwa [hsheds.revoke] at hr
  addRoots _ _ _ _ _ _ hw _ hok := hw.addRoots hok
  removeRoots w _ trust req prov rev hw _ _ := by
    refine hw.trims (removeRoots_trims trust req prov rev w.ctx) fun key r hr => ?_
    rw [removeRoots_revoke] at hr
    exact lookup_foldl_removeRevocation hr
  consume _ _ _ _ _ _ hguard := hguard.elim
  gcTokens w call hw _ :=
    hw.trims (gcTokens_trims call w.ctx) fun key r hr => (lookup_gcTokens.mp hr).1
  reload _ _ _ _ _ _ _ _ hloaded := (reloaded_booted hloaded).storable

section RoundTrip

variable {p : Platform} {ctx : Context} {saved call : Call}

theorem Storable.acceptable (h : Storable p ctx) (htime : saved.now ≤ call.now)
    (hrevoked : ∀ key r, ctx.revoke.lookup key = some r → r.expireBefore call.now = false)
    (name : GoString) (pr : Provider) :
    Acceptable p call (unexpired call.now (ctx.listRoots saved).1.require)
      (unexpired call.now (ctx.listRoots saved).1.provide)
      (unexpired call.now (ctx.listRoots saved).1.revoke) (blank name pr) ∧
    ∀ key, (revokedAfter p call (unexpired call.now (ctx.listRoots saved).1.revoke)
      (blank name pr)).lookup key = ctx.revoke.lookup key := by
  have haccepts : ∀ r ∈ unexpired call.now (ctx.listRoots saved).1.revoke,
      acceptsRevocation p call.now r = true := by
    intro r hr
    obtain ⟨hmem, hexp⟩ := mem_filter.mp hr
    rw [listRoots_revoke] at hmem
    obtain ⟨⟨key, hlookup⟩, _⟩ := mem_listRevocations.mp hmem
    have hfiled := h.filed key r hlookup
    have hverify : r.verify p call.now ∅ = .ok () :=
      (verify_revocation_eq_ok_iff hfiled.action).mpr ⟨by simpa using hexp, hfiled.signed⟩
    simp [acceptsRevocation, hfiled.action, hverify]
  have hlookup : ∀ key, (revokedAfter p call (unexpired call.now (ctx.listRoots saved).1.revoke)
      (blank name pr)).lookup key = ctx.revoke.lookup key := by
    intro key
    rw [revokedAfter_blank haccepts, lookup_listed h.filed]
    cases hr : ctx.revoke.lookup key with
    | none => rfl
    | some r =>
      have hload := hrevoked key r hr
      have hsave := expireBefore_mono htime hload
      simp [Option.filter, hload, hsave]
  have hkeys : ∀ key, (revokedAfter p call (unexpired call.now (ctx.listRoots saved).1.revoke)
      (blank name pr)).revoked key = true → ctx.revoke.revoked key = true := by
    intro key hkey
    unfold RevocationSet.revoked at hkey ⊢
    rwa [hlookup] at hkey
  refine ⟨⟨haccepts, ?_⟩, hlookup⟩
  intro t ht
  rcases mem_append.mp ht with ht | ht
  · obtain ⟨hmem, hexp⟩ := mem_filter.mp ht
    obtain ⟨key, hheld, _⟩ := mem_listRoots_require.mp hmem
    exact verify_eq_ok_iff.mpr ⟨by simpa using hexp, (h.require.valid key t hheld).mono hkeys⟩
  obtain ⟨hmem, hexp⟩ := mem_filter.mp ht
  obtain ⟨key, hheld, _⟩ := mem_listRoots_provide.mp hmem
  exact verify_eq_ok_iff.mpr ⟨by simpa using hexp, (h.provide.valid key t hheld).mono hkeys⟩

variable {s : Shelf}

theorem Context.Sound.antichain_listed (h : Sound p s ctx) {listed : List Token}
    (hlisted : ∀ {t}, t ∈ listed ↔ ∃ key, t ∈ ctx.held s key) :
    ∀ x ∈ listed, ∀ y ∈ listed, x.subsumes y = true → x = y := by
  intro x hx y hy hsub
  obtain ⟨kx, hx⟩ := hlisted.mp hx
  obtain ⟨ky, hy⟩ := hlisted.mp hy
  have hissuer := (subsumption_of_subsumes hsub).issuer
  rw [h.issuer kx x hx, h.issuer ky y hy] at hissuer
  subst hissuer
  exact h.antichain kx x hx y hy hsub

theorem Context.Sound.mem_held_iff (h : Sound p s ctx) {t key} :
    (∃ k, t ∈ ctx.held s k) ∧ key = t.issuer ↔ t ∈ ctx.held s key := by
  constructor
  · rintro ⟨⟨k, hmem⟩, rfl⟩
    rwa [← h.issuer k t hmem] at hmem
  · intro hmem
    exact ⟨⟨key, hmem⟩, (h.issuer key t hmem).symm⟩

theorem mem_unexpired_listed {listed}
    (hlisted : ∀ {t}, t ∈ listed ↔ ∃ key, t ∈ ctx.held s key ∧ t.expireBefore saved.now = false)
    (htime : saved.now ≤ call.now)
    (hlive : ∀ key, ∀ t ∈ ctx.held s key, t.expireBefore call.now = false) {t} :
    t ∈ unexpired call.now listed ↔ ∃ key, t ∈ ctx.held s key := by
  simp only [unexpired, mem_filter, hlisted, Bool.not_eq_true']
  constructor
  · rintro ⟨⟨key, hheld, _⟩, _⟩
    exact ⟨key, hheld⟩
  rintro ⟨key, hheld⟩
  have hexp := hlive key t hheld
  exact ⟨⟨key, hheld, expireBefore_mono htime hexp⟩, hexp⟩

end RoundTrip

/-- In every state that accepted batches, removals and collections lead to, saving and loading
succeed as long as nothing has expired, and restore the identifier, the roots, the revocations and
the tokens of every anchor. -/
theorem save_load_round_trip {δ : Type} {p : Platform} {codec : ViewCodec δ}
    (hcodec : codec.Lossless) {w : World} (hrun : GuardedRun p codec (Anchoring p) w)
    (saved call : Call) (name : GoString) (htime : saved.now ≤ call.now)
    (hlive : ∀ s key, ∀ t ∈ w.ctx.held s key, t.expireBefore call.now = false)
    (hrevoked : ∀ key r, w.ctx.revoke.lookup key = some r → r.expireBefore call.now = false)
    {provider : Provider} (hprovider : p.trust.getProvider w.ctx.did = .ok provider)
    (hdid : provider.did = w.ctx.did) :
    ∃ data loaded, (w.ctx.saveCapabilityContext codec saved).2 = .ok data ∧
      loadCapabilityContextWithName p codec call name data = .ok loaded ∧
      loaded.did = w.ctx.did ∧ (∀ root, root ∈ loaded.roots ↔ root ∈ w.ctx.roots) ∧
      (∀ key, loaded.revoke.lookup key = w.ctx.revoke.lookup key) ∧
      (∀ key t, t ∈ loaded.held .require key ↔ t ∈ w.ctx.held .require key) ∧
      ∀ key t, t ∈ loaded.held .provide key ↔ t ∈ w.ctx.held .provide key := by
  have hstorable : Storable p w.ctx :=
    (storable_kept p).run hcodec (fun _ _ hboot => hboot.storable) hrun
  have hsheds := listRoots_sheds saved w.ctx
  obtain ⟨data, hencode, hdecode⟩ := hcodec ⟨(w.ctx.listRoots saved).2.did,
    (w.ctx.listRoots saved).1.roots, (w.ctx.listRoots saved).1.require,
    (w.ctx.listRoots saved).1.provide, (w.ctx.listRoots saved).1.revoke⟩
  obtain ⟨haccept, hlookup⟩ := hstorable.acceptable htime hrevoked name provider
  have hok : ((blank name provider).addRoots p call (w.ctx.listRoots saved).1.roots _ _ _).2 =
    .ok () := addRoots_eq_ok.mpr haccept
  have hrequire : ∀ {t}, t ∈ unexpired call.now (w.ctx.listRoots saved).1.require ↔
      ∃ key, t ∈ w.ctx.held .require key :=
    mem_unexpired_listed mem_listRoots_require htime (hlive .require)
  have hprovide : ∀ {t}, t ∈ unexpired call.now (w.ctx.listRoots saved).1.provide ↔
      ∃ key, t ∈ w.ctx.held .provide key :=
    mem_unexpired_listed mem_listRoots_provide htime (hlive .provide)
  have hrequire' := hstorable.require.antichain_listed hrequire
  have hprovide' := hstorable.provide.antichain_listed hprovide
  refine ⟨data, ((blank name provider).addRoots p call (w.ctx.listRoots saved).1.roots
    (unexpired call.now (w.ctx.listRoots saved).1.require)
    (unexpired call.now (w.ctx.listRoots saved).1.provide)
    (unexpired call.now (w.ctx.listRoots saved).1.revoke)).1,
    wrapLibrary_eq_ok.mpr hencode, ?_, ?_, ?_, ?_, ?_, ?_⟩
  · rw [loadCapabilityContextWithName, hdecode]
    exact newCapabilityContext_eq_ok.mpr
      ⟨provider, by rw [did_of_sheds hsheds]; exact hprovider, hok, rfl⟩
  · rw [did, addRoots_taken.provider]
    exact hdid
  · intro root
    have hlisted : root ∈ (w.ctx.listRoots saved).1.roots ↔ root ∈ w.ctx.roots :=
      saved.order.mem_visit.trans AList.mem_keys.symm
    rw [addRoots_taken.anchors, mem_insertRoots, hlisted]
    simp [blank]
  · intro key
    rw [addRoots_taken.revocations]
    exact hlookup key
  · intro key t
    rw [(mem_addRoots_of_empty (held_blank _ _) hok hrequire' hprovide').1, hrequire,
      hstorable.require.mem_held_iff]
  · intro key t
    rw [(mem_addRoots_of_empty (held_blank _ _) hok hrequire' hprovide').2, hprovide,
      hstorable.provide.mem_held_iff]

def anchoredWorld : World := providedWorld.step grantPlatform sampleCodec
    ⟨sampleCall 6, .addRoots [⟨ascii "did:b"⟩] [] [] [.sealed (.root ⟨.revoke, ⟨ascii "did:b"⟩,
      ⟨ascii "did:c"⟩, .zero, [], [], [9], 20, 0, []⟩)]⟩

theorem anchoredWorld_round_trip :
    ∃ loaded, loadCapabilityContextWithName grantPlatform sampleCodec (sampleCall 8) (ascii "dms")
        ⟨anchoredWorld.ctx.did, [⟨ascii "did:b"⟩], [], [sampleGrant],
          (anchoredWorld.ctx.listRoots (sampleCall 7)).1.revoke⟩ = .ok loaded ∧
      sampleGrant ∈ loaded.held .provide ⟨ascii "did:a"⟩ := by
  have hrun : GuardedRun grantPlatform sampleCodec (Anchoring grantPlatform) anchoredWorld :=
    .step _ (.init (sampleWorld_fresh (by decide))) ⟨⟨by decide, trivial⟩, by
      show (Context.addRoots ..).2 = .ok ()
      decide⟩
  obtain ⟨data, loaded, hsave, hload, _, _, _, _, hprovide⟩ :=
    save_load_round_trip sampleCodec_lossless hrun (sampleCall 7) (sampleCall 8) (ascii "dms")
      (by decide) (fun s => by cases s <;> exact GoMap.forall_mem_list (by decide))
      (GoMap.forall_lookup (by decide)) rfl rfl
  obtain rfl : _ = data := Except.ok.inj hsave
  exact ⟨loaded, hload, (hprovide ⟨ascii "did:a"⟩ sampleGrant).mpr (by decide)⟩

end DMS.Ucan
