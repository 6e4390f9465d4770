import DMS.Ucan.Context

/-! # What the operations of a context can do

Reading, requiring, discarding and collecting only drop tokens (`Trims`, `Sheds`); `Consume` adds
verified tokens under their subject, and `AddRoots` under their issuer, after it has stored the
revocations. The invariants of a run are derived from these statements.
-/

namespace DMS.Ucan.Context

open Did GoMap List

/-! ## One list -/

section SetHeld

variable (ctx : Context) (s s' : Shelf) (key key' : DID) (l : List Token)

@[simp] theorem setHeld_provider : (ctx.setHeld s key l).provider = ctx.provider := by
  cases s <;> rfl

@[simp] theorem setHeld_name : (ctx.setHeld s key l).name = ctx.name := by cases s <;> rfl

@[simp] theorem setHeld_roots : (ctx.setHeld s key l).roots = ctx.roots := by cases s <;> rfl

@[simp] theorem setHeld_revoke : (ctx.setHeld s key l).revoke = ctx.revoke := by cases s <;> rfl

theorem held_setHeld : (ctx.setHeld s key l).held s' key' =
    if s' = s ∧ key' = key then l else ctx.held s' key' := by
  cases s <;> cases s' <;> simp [setHeld, setShelf, held, shelf, list_insert]

end SetHeld

/-! ## Dropping tokens -/

/-- Every list of `b` is what is left of the list of `a`. -/
structure Trims (a b : Context) : Prop where
  name : b.name = a.name
  provider : b.provider = a.provider
  held : ∀ s key, (b.held s key).Sublist (a.held s key)

/-- Only tokens were dropped: the anchors and the revocations are as before. -/
structure Sheds (a b : Context) : Prop extends Trims a b where
  roots : b.roots = a.roots
  revoke : b.revoke = a.revoke

theorem Trims.refl (a : Context) : Trims a a := ⟨rfl, rfl, fun _ _ => List.Sublist.refl _⟩

variable {a b c ctx : Context} {s : Shelf} {key : DID} {t : Token} {now : Nat}
  {step : Context × Result Unit} {next : Context → Context × Result Unit} {p : Platform}

theorem Trims.trans (hab : Trims a b) (hbc : Trims b c) : Trims a c :=
  ⟨hbc.name.trans hab.name, hbc.provider.trans hab.provider,
    fun s key => (hbc.held s key).trans (hab.held s key)⟩

theorem Trims.mem (h : Trims a b) (ht : t ∈ b.held s key) : t ∈ a.held s key :=
  (h.held s key).subset ht

theorem Sheds.refl (a : Context) : Sheds a a := ⟨Trims.refl a, rfl, rfl⟩

theorem Sheds.trans (hab : Sheds a b) (hbc : Sheds b c) : Sheds a c :=
  ⟨hab.toTrims.trans hbc.toTrims, hbc.roots.trans hab.roots, hbc.revoke.trans hab.revoke⟩

theorem sheds_setHeld {l : List Token}
    (h : l.Sublist (ctx.held s key)) : Sheds ctx (ctx.setHeld s key l) := by
  refine ⟨⟨by simp, by simp, ?_⟩, by simp, by simp⟩
  intro s' key'
  rw [held_setHeld]
  split
  · next heq => rw [heq.1, heq.2]; exact h
  · exact List.Sublist.refl _

theorem getTokens_fst (now : Nat) (s : Shelf) (key : DID) (ctx : Context) :
    (getTokens now s key ctx).1 = (ctx.held s key).filter fun t => !t.expireBefore now := by
  unfold getTokens held list
  cases (ctx.shelf s).lookup key <;> simp

theorem getTokens_sheds (now : Nat) (s : Shelf) (key : DID) (ctx : Context) :
    Sheds ctx (getTokens now s key ctx).2 := by
  unfold getTokens
  split
  · exact Sheds.refl ctx
  rename_i tokenList h
  apply sheds_setHeld
  rw [held, list_of_lookup h]
  exact filter_sublist

theorem held_getTokens (now : Nat) (s s' : Shelf) (key key' : DID) (ctx : Context) :
    (getTokens now s key ctx).2.held s' key' =
      if s' = s ∧ key' = key then (ctx.held s key).filter (fun t => !t.expireBefore now)
      else ctx.held s' key' := by
  unfold getTokens
  split
  · next h =>
    split
    · next heq => rw [heq.1, heq.2]; simp [held, list, h]
    · rfl
  · next tokenList h => rw [held_setHeld, held, held, list_of_lookup h]

theorem mem_getTokens :
    t ∈ (getTokens now s key ctx).1 ↔ t ∈ ctx.held s key ∧ t.expireBefore now = false := by
  simp [getTokens_fst]

/-- A relation between states that a reading of require tokens at `now` keeps. -/
structure Reads (now : Nat) (R : Context → Context → Prop) : Prop where
  refl : ∀ ctx, R ctx ctx
  trans : ∀ {a b c}, R a b → R b c → R a c
  require : ∀ key ctx, R ctx (getTokens now .require key ctx).2

namespace Reads

variable {R : Context → Context → Prop} {call : Call}

theorem foldl (h : Reads now R) {α : Type} {f}
    (hf : ∀ ctx a, R ctx (f ctx a)) (l : List α) (ctx : Context) : R ctx (l.foldl f ctx) := by
  induction l generalizing ctx with
  | nil => exact h.refl ctx
  | cons a l ih => exact h.trans (hf ctx a) (ih (f ctx a))

theorem sideAdmits (h : Reads now R) (test : Token → Bool) (anchors : List DID) (ctx : Context) :
    R ctx (sideAdmits now test anchors ctx).1 := by
  induction anchors generalizing ctx with
  | nil => exact h.refl ctx
  | cons anchor rest ih =>
    simp only [Context.sideAdmits]
    split
    · exact h.require anchor ctx
    · exact h.trans (h.require anchor ctx) (ih _)

theorem consumeToken (h : Reads now R)
    (hstore : ∀ ctx, t.verify p now ctx.revoke = .ok () → R ctx (ctx.consumeSubjectToken t))
    (origin : DID) (rootAnchors requireAnchors : List DID) (ctx : Context) :
    R ctx (consumeToken p now origin rootAnchors requireAnchors ctx t) := by
  have hside := h.sideAdmits (fun rt => rt.allowAction t) requireAnchors ctx
  unfold Context.consumeToken
  split
  next ctx' admitted heq =>
    have hread : R ctx ctx' := by
      split at heq
      · obtain ⟨rfl, _⟩ := Prod.mk.inj heq
        exact h.refl ctx
      · rwa [heq] at hside
    split
    · split
      · next hverify => exact h.trans hread (hstore ctx' hverify)
      · exact hread
    · exact hread

theorem consume (h : Reads call.now R) (hstore : ∀ t ctx, t.verify p call.now ctx.revoke = .ok () →
      R ctx (ctx.consumeSubjectToken t)) (origin : DID) (payload : GoString) (ctx : Context) :
    R ctx (consume p call origin payload ctx).1 := by
  unfold Context.consume
  split
  · exact h.refl ctx
  split
  · exact h.refl ctx
  · exact h.foldl (fun ctx t => h.consumeToken (hstore t) _ _ _ ctx) _ ctx

theorem authorizeLoop (h : Reads now R) (anchor : DID) (roots anchors : List DID)
    (allow : Token → Capability → Bool) (pairs : List (Token × Capability)) (ctx : Context) :
    R ctx (authorizeLoop now anchor roots anchors allow pairs ctx).1 := by
  induction pairs generalizing ctx with
  | nil => exact h.refl ctx
  | cons pair rest ih =>
    obtain ⟨t, c⟩ := pair
    have hside := h.sideAdmits (fun rt => rt.allowAction t && allow t c) anchors ctx
    unfold Context.authorizeLoop
    split
    · exact h.refl ctx
    split
    · exact h.refl ctx
    split
    · next heq => rw [heq] at hside; exact hside
    · next heq => rw [heq] at hside; exact h.trans hside (ih _)

variable (h : Reads call.now R)
  (hsubject : ∀ key ctx, R ctx (getTokens call.now .subject key ctx).2)

include h hsubject

theorem authorize (anchor subject : DID) (allow : Token → Capability → Bool)
    (require : List Capability) (ctx : Context) :
    R ctx (authorize call anchor subject allow require ctx).1 := by
  have hread : R ctx (ctx.getSubjectTokens call.now subject).2 := hsubject subject ctx
  unfold Context.authorize
  dsimp only
  have hloop := h.authorizeLoop anchor ((ctx.getSubjectTokens call.now subject).2.getRoots call)
    ((ctx.getSubjectTokens call.now subject).2.getRequireAnchors call) allow
    ((ctx.getSubjectTokens call.now subject).1.flatMap fun t => require.map fun c => (t, c))
    (ctx.getSubjectTokens call.now subject).2
  split
  · next heq => rw [heq] at hloop; exact h.trans hread hloop
  · next heq => rw [heq] at hloop; exact h.trans hread hloop

theorem requireInvocation (anchor : DID) (subject aud : GoString)
    (require : List Capability) (ctx : Context) :
    R ctx (requireInvocation p call anchor subject aud require ctx).1 := by
  unfold Context.requireInvocation
  split
  · exact h.refl ctx
  split
  · exact h.refl ctx
  split
  · exact h.refl ctx
  · exact h.authorize hsubject ..

theorem requireBroadcast (anchor : DID) (subject topic : GoString)
    (require : List Capability) (ctx : Context) :
    R ctx (requireBroadcast p call anchor subject topic require ctx).1 := by
  unfold Context.requireBroadcast
  split
  · exact h.refl ctx
  split
  · exact h.refl ctx
  · exact h.authorize hsubject ..

end Reads

theorem reads_sheds (now : Nat) : Reads now Sheds :=
  ⟨Sheds.refl, Sheds.trans, getTokens_sheds now .require⟩

theorem foldl_sheds {α : Type} {f} (hf : ∀ ctx a, Sheds ctx (f ctx a))
    (l : List α) (ctx : Context) : Sheds ctx (l.foldl f ctx) :=
  (reads_sheds 0).foldl hf l ctx

theorem sideAdmits_eq_true {test anchors} (h : (sideAdmits now test anchors ctx).2 = true) :
    ∃ key, ∃ rt ∈ ctx.held .require key, rt.expireBefore now = false ∧ test rt = true := by
  induction anchors generalizing ctx with
  | nil => simp [sideAdmits] at h
  | cons anchor rest ih =>
    have hread : Sheds ctx (ctx.getRequireTokens now anchor).2 :=
      getTokens_sheds now .require anchor ctx
    simp only [sideAdmits] at h
    split at h
    · next hany =>
      obtain ⟨rt, hrt, htest⟩ := any_eq_true.mp hany
      obtain ⟨hheld, hexp⟩ := mem_getTokens.mp hrt
      exact ⟨anchor, rt, hheld, hexp, htest⟩
    · obtain ⟨key, rt, hrt, htest⟩ := ih h
      exact ⟨key, rt, hread.mem hrt, htest⟩

theorem authorizeLoop_eq_true {anchor roots anchors allow pairs}
    (h : (authorizeLoop now anchor roots anchors allow pairs ctx).2 = true) :
    ∃ t c, (t, c) ∈ pairs ∧ allow t c = true ∧
      (t.anchor anchor = true ∨ (∃ root ∈ roots, t.anchor root = true) ∨
        ∃ key, ∃ rt ∈ ctx.held .require key,
          rt.expireBefore now = false ∧ rt.allowAction t = true) := by
  induction pairs generalizing ctx with
  | nil => simp [authorizeLoop] at h
  | cons pair rest ih =>
    obtain ⟨t, c⟩ := pair
    have hside := (reads_sheds now).sideAdmits (fun rt => rt.allowAction t && allow t c) anchors ctx
    unfold authorizeLoop at h
    split at h
    · next hanchor =>
      obtain ⟨ha, hallow⟩ := Bool.and_eq_true_iff.mp hanchor
      exact ⟨t, c, by simp, hallow, .inl ha⟩
    split at h
    · next hroots =>
      obtain ⟨root, hroot, hok⟩ := any_eq_true.mp hroots
      obtain ⟨ha, hallow⟩ := Bool.and_eq_true_iff.mp hok
      exact ⟨t, c, by simp, hallow, .inr (.inl ⟨root, hroot, ha⟩)⟩
    split at h
    · next heq =>
      have hadmits : (sideAdmits now (fun rt => rt.allowAction t && allow t c) anchors ctx).2 =
          true := by rw [heq]
      obtain ⟨key, rt, hrt, hexp, htest⟩ := sideAdmits_eq_true hadmits
      obtain ⟨hact, hallow⟩ := Bool.and_eq_true_iff.mp htest
      exact ⟨t, c, by simp, hallow, .inr (.inr ⟨key, rt, hrt, hexp, hact⟩)⟩
    rename_i heq
    rw [heq] at hside
    obtain ⟨t', c', hmem, hallow, hwhy⟩ := ih h
    refine ⟨t', c', by simp [hmem], hallow, ?_⟩
    rcases hwhy with hwhy | hwhy | ⟨key, rt, hrt, hact⟩
    · exact .inl hwhy
    · exact .inr (.inl hwhy)
    · exact .inr (.inr ⟨key, rt, hside.mem hrt, hact⟩)

theorem authorize_eq_ok {call anchor subject allow require}
    (h : (authorize call anchor subject allow require ctx).2 = .ok ()) :
    ∃ t ∈ ctx.held .subject subject, t.expireBefore call.now = false ∧
      ∃ c ∈ require, allow t c = true ∧
        (t.anchor anchor = true ∨ (∃ root, root ∈ ctx.roots ∧ t.anchor root = true) ∨
          ∃ key, ∃ rt ∈ ctx.held .require key,
            rt.expireBefore call.now = false ∧ rt.allowAction t = true) := by
  have hread : Sheds ctx (ctx.getSubjectTokens call.now subject).2 :=
    getTokens_sheds call.now .subject subject ctx
  unfold authorize at h
  dsimp only at h
  split at h
  · next heq =>
    obtain ⟨t, c, hmem, hallow, hwhy⟩ := authorizeLoop_eq_true (by rw [heq])
    obtain ⟨t', ht', hpair⟩ := mem_flatMap.mp hmem
    obtain ⟨c', hc', heq'⟩ := mem_map.mp hpair
    obtain ⟨rfl, rfl⟩ := Prod.mk.inj heq'
    obtain ⟨hheld, hexp⟩ := mem_getTokens.mp ht'
    refine ⟨t', hheld, hexp, c', hc', hallow, ?_⟩
    rcases hwhy with hwhy | ⟨root, hroot, hwhy⟩ | ⟨key, rt, hrt, hwhy⟩
    · exact .inl hwhy
    · refine .inr (.inl ⟨root, ?_, hwhy⟩)
      have hmem := call.order.mem_visit.mp hroot
      rw [hread.roots] at hmem
      exact AList.mem_keys.mpr hmem
    · exact .inr (.inr ⟨key, rt, hread.mem hrt, hwhy⟩)
  · simp at h

theorem gather_sheds (now : Nat) (s : Shelf) (anchors : List DID) (ctx : Context) :
    Sheds ctx (gather now s anchors ctx).2 := by
  induction anchors generalizing ctx with
  | nil => exact Sheds.refl ctx
  | cons anchor rest ih => exact (getTokens_sheds now s anchor ctx).trans (ih _)

theorem mem_listRevocations {call r} : r ∈ ctx.listRevocations call ↔
      (∃ key, ctx.revoke.lookup key = some r) ∧ r.expireBefore call.now = false := by
  unfold listRevocations
  simp only [mem_filter, mem_filterMap, call.order.mem_visit, Bool.not_eq_true']
  refine and_congr_left fun _ => exists_congr fun key => ?_
  constructor
  · exact fun h => h.2
  · exact fun h => ⟨AList.mem_keys.mp (mem_of_lookup h), h⟩

theorem listRoots_sheds (call : Call) (ctx : Context) : Sheds ctx (listRoots call ctx).2 :=
  (gather_sheds call.now .require _ ctx).trans (gather_sheds call.now .provide _ _)

theorem listRoots_revoke (call : Call) (ctx : Context) :
    (listRoots call ctx).1.revoke = ctx.listRevocations call := by
  show (listRoots call ctx).2.listRevocations call = ctx.listRevocations call
  unfold listRevocations
  rw [(listRoots_sheds call ctx).revoke]

theorem discardToken_sheds (ctx : Context) (t : Token) : Sheds ctx (discardToken ctx t) := by
  unfold discardToken
  dsimp only
  split
  · refine ⟨⟨rfl, rfl, ?_⟩, rfl, rfl⟩
    intro s key
    cases s with
    | require | provide => exact List.Sublist.refl _
    | subject =>
      simp only [held, shelf, list_erase]
      split
      · exact nil_sublist _
      · exact List.Sublist.refl _
  · exact sheds_setHeld filter_sublist

theorem discard_sheds (p : Platform) (payload : GoString) (ctx : Context) :
    Sheds ctx (discard p payload ctx) := by
  unfold discard
  split
  · exact Sheds.refl ctx
  · exact foldl_sheds discardToken_sheds _ ctx

/-! ## Garbage collection -/

theorem list_gcMap (call : Call) (m : TokenMap) (key : DID) :
    (gcMap call m).list key = (m.list key).filter fun t => !t.expireBefore call.now := by
  unfold gcMap list
  rw [lookup_rangeUpdate]
  cases m.lookup key with
  | none => rfl
  | some l =>
    simp only [Option.bind_some, gcList, Option.getD_some]
    split
    · next h => rw [h]; rfl
    · rfl

theorem held_gcTokens (call : Call) (ctx : Context) (s : Shelf) (key : DID) :
    (gcTokens call ctx).held s key = (ctx.held s key).filter fun t => !t.expireBefore call.now := by
  cases s <;> exact list_gcMap call _ key

theorem lookup_gcRevocations (call : Call) (rev : RevocationSet) (key : GoString) :
    (gcRevocations call rev).lookup key =
      (rev.lookup key).filter fun t => !t.expireBefore call.now := by
  rw [gcRevocations, lookup_rangeUpdate]
  cases rev.lookup key with
  | none => rfl
  | some t => cases h : t.expireBefore call.now <;> simp [Option.filter, h]

theorem gcTokens_trims (call : Call) (ctx : Context) : Trims ctx (gcTokens call ctx) := by
  refine ⟨rfl, rfl, fun s key => ?_⟩
  rw [held_gcTokens]
  exact filter_sublist

/-! ## Removing anchors -/

theorem removeAnchorToken_sheds (s : Shelf) (ctx : Context) (t : Token) :
    Sheds ctx (removeAnchorToken s ctx t) := by
  unfold removeAnchorToken
  split
  · exact Sheds.refl ctx
  rename_i tokenList h
  have hlist : ctx.held s t.issuer = tokenList := list_of_lookup h
  dsimp only
  split
  · refine ⟨⟨?_, ?_, ?_⟩, ?_, ?_⟩
    case refine_3 =>
      intro s' key
      have herase : (ctx.setShelf ((ctx.shelf s).erase t.issuer) s).held s' key =
          if s' = s ∧ key = t.issuer then [] else ctx.held s' key := by
        cases s <;> cases s' <;> simp [setShelf, held, shelf, list_erase]
      rw [herase]
      split
      · exact nil_sublist _
      · exact List.Sublist.refl _
    all_goals cases s <;> rfl
  apply sheds_setHeld
  rw [hlist]
  exact filter_sublist

theorem lookup_foldl_removeRevocation {rev : List Token} {key}
    (h : (rev.foldl removeRevocation ctx).revoke.lookup key = some t) :
    ctx.revoke.lookup key = some t := by
  induction rev generalizing ctx with
  | nil => exact h
  | cons r rev ih => exact (lookup_of_erase (ih h)).2

theorem lookup_foldl_removeRevocation_of_ne {rev : List Token} {key : GoString}
    (h : ∀ r ∈ rev, r.revocationKey ≠ key) :
    (rev.foldl removeRevocation ctx).revoke.lookup key = ctx.revoke.lookup key := by
  induction rev generalizing ctx with
  | nil => rfl
  | cons r rev ih =>
    have hr : key ≠ r.revocationKey := (h r (by simp)).symm
    rw [foldl_cons, ih (fun r' hr' => h r' (by simp [hr']))]
    exact AList.lookup_erase_ne hr

theorem foldl_removeRevocation_trims (rev : List Token) (ctx : Context) :
    Trims ctx (rev.foldl removeRevocation ctx) := by
  induction rev generalizing ctx with
  | nil => exact Trims.refl ctx
  | cons r rev ih =>
    have hone : Trims ctx (removeRevocation ctx r) :=
      ⟨rfl, rfl, fun s key => by cases s <;> exact List.Sublist.refl _⟩
    exact hone.trans (ih _)

section RemoveRoots

variable (trust : List DID) (require provide rev : List Token) (ctx : Context)

theorem removeAnchorTokens_sheds (base : Context) :
    Sheds base (provide.foldl (removeAnchorToken .provide)
      (require.foldl (removeAnchorToken .require) base)) :=
  (foldl_sheds (removeAnchorToken_sheds .require) require base).trans
    (foldl_sheds (removeAnchorToken_sheds .provide) provide _)

theorem removeRoots_trims : Trims ctx (removeRoots trust require provide rev ctx) := by
  have hroots : Trims ctx
      { ctx with roots := trust.foldl (fun m root => m.erase root) ctx.roots } :=
    ⟨rfl, rfl, fun s key => by cases s <;> exact List.Sublist.refl _⟩
  have htokens := removeAnchorTokens_sheds require provide
    { ctx with roots := trust.foldl (fun m root => m.erase root) ctx.roots }
  exact (hroots.trans htokens.toTrims).trans (foldl_removeRevocation_trims rev _)

theorem removeRoots_revoke : (removeRoots trust require provide rev ctx).revoke =
      (rev.foldl removeRevocation ctx).revoke := by
  have hkeep : ∀ (l : List Token) (a b : Context), a.revoke = b.revoke →
      (l.foldl removeRevocation a).revoke = (l.foldl removeRevocation b).revoke := by
    intro l
    induction l with
    | nil => exact fun a b h => h
    | cons r l ih =>
      intro a b h
      exact ih _ _ (by simp [removeRevocation, h])
  apply hkeep
  exact (removeAnchorTokens_sheds require provide
    { ctx with roots := trust.foldl (fun m root => m.erase root) ctx.roots }).revoke

end RemoveRoots

/-! ## Adding anchors -/

/-- The rule for the loops of `AddRoots`: a property of the state that every
accepted token keeps holds after the loop, however the loop ends. -/
theorem takeAll_invariant {check : Context → Token → Result Unit}
    {take} {Inv : Context → Prop} {ts : List Token}
    (hstep : ∀ ctx, ∀ t ∈ ts, Inv ctx → check ctx t = .ok () → Inv (take ctx t))
    (h : Inv ctx) : Inv (takeAll check take ts ctx).1 := by
  induction ts generalizing ctx with
  | nil => exact h
  | cons t ts ih =>
    unfold takeAll
    split
    · exact h
    · next hcheck =>
      exact ih (fun ctx' t' ht' => hstep ctx' t' (by simp [ht'])) (hstep ctx t (by simp) h hcheck)

theorem andThen_invariant
    {Inv : Context → Prop} (hstep : Inv step.1) (hnext : Inv step.1 → Inv (next step.1).1) :
    Inv (andThen step next).1 := by
  unfold andThen
  split
  · exact hstep
  · exact hnext hstep

theorem andThen_eq_ok :
    (andThen step next).2 = .ok () ↔ step.2 = .ok () ∧ (next step.1).2 = .ok () := by
  unfold andThen
  split
  · next e h => simp [h]
  · next h => simp [h]

theorem andThen_of_ok (h : step.2 = .ok ()) : andThen step next = next step.1 := by
  rw [andThen, h]

/-- A revocation that `AddRoots` accepts at a given time. -/
def acceptsRevocation (p : Platform) (now : Nat) (t : Token) : Bool :=
  decide (t.action = .revoke) && decide (t.verify p now ∅ = .ok ())

/-- The revocations that `AddRoots` stores before it returns, early or not. -/
def acceptedRevocations (p : Platform) (now : Nat) (revoke : List Token) : List Token :=
  revoke.takeWhile (acceptsRevocation p now)

def storeRevocations (accepted : List Token) (revoke : RevocationSet) : RevocationSet :=
  accepted.foldl (fun m t => m.insert t.revocationKey t) revoke

theorem lookup_storeRevocations (accepted : List Token) (rev : RevocationSet) (key : GoString) :
    ((∀ r ∈ accepted, r.revocationKey ≠ key) ∧
      (storeRevocations accepted rev).lookup key = rev.lookup key) ∨
    ∃ r ∈ accepted, r.revocationKey = key ∧
      (storeRevocations accepted rev).lookup key = some r := by
  induction accepted generalizing rev with
  | nil => exact .inl ⟨by simp, rfl⟩
  | cons a accepted ih =>
    rcases ih (rev.insert a.revocationKey a) with ⟨hnone, hlookup⟩ | ⟨r, hr, hkey, hlookup⟩
    · by_cases ha : a.revocationKey = key
      · subst ha
        refine .inr ⟨a, by simp, rfl, hlookup.trans ?_⟩
        exact AList.lookup_insert rev
      refine .inl ⟨?_, hlookup.trans (AList.lookup_insert_ne (Ne.symm ha))⟩
      intro r hr
      rcases mem_cons.mp hr with rfl | hr
      · exact ha
      · exact hnone r hr
    · exact .inr ⟨r, by simp [hr], hkey, hlookup⟩

theorem verify_revocation_eq_ok_iff {rev} (h : t.action = .revoke) :
    t.verify p now rev = .ok () ↔ t.expireBefore now = false ∧ t.SignatureHolds p := by
  rw [Token.verify_eq_ok_iff]
  cases t with
  | foreign => simp [Token.Valid, Token.expireBefore]
  | root b | link b chain =>
    have hb : b.action = .revoke := h
    simp [Token.Valid, hb]

theorem checkRevocation_eq_ok_iff (ctx : Context) :
    checkRevocation p now ctx t = .ok () ↔ acceptsRevocation p now t = true := by
  unfold checkRevocation acceptsRevocation checkToken
  by_cases h : t.action = .revoke
  · simp [h, verify_revocation_eq_ok_iff h]
  · simp [h]

theorem takeAll_revocations (p : Platform) (now : Nat) (rev : List Token) (ctx : Context) :
    (takeAll (checkRevocation p now) consumeRevokeToken rev ctx).1 =
        { ctx with revoke := storeRevocations (acceptedRevocations p now rev) ctx.revoke } ∧
      ((takeAll (checkRevocation p now) consumeRevokeToken rev ctx).2 = .ok () ↔
        ∀ t ∈ rev, acceptsRevocation p now t = true) := by
  induction rev generalizing ctx with
  | nil => simp [takeAll, acceptedRevocations, storeRevocations]
  | cons t ts ih =>
    unfold takeAll
    cases hcheck : checkRevocation p now ctx t with
    | error e =>
      have hnot : ¬ acceptsRevocation p now t = true := by
        rw [← checkRevocation_eq_ok_iff ctx, hcheck]
        simp
      simp [acceptedRevocations, storeRevocations, hnot]
    | ok u =>
      have hok : acceptsRevocation p now t = true := (checkRevocation_eq_ok_iff ctx).mp hcheck
      obtain ⟨hstate, hres⟩ := ih (consumeRevokeToken ctx t)
      refine ⟨?_, ?_⟩
      · simp only [hstate, acceptedRevocations, takeWhile_cons, hok, if_true]
        rfl
      · simp [hres, hok]

theorem consumeAnchorLoop_eq (t : Token) (l r : List Token) :
    consumeAnchorLoop t l r = if l.any (fun ot => ot.subsumes t) then none
      else some (r ++ l.filter (fun ot => !t.subsumes ot) ++ [t]) := by
  induction l generalizing r with
  | nil => simp [consumeAnchorLoop]
  | cons ot l ih =>
    unfold consumeAnchorLoop
    cases hot : ot.subsumes t with
    | true => simp [hot]
    | false =>
      cases ht : t.subsumes ot with
      | true | false => simp [hot, ht, ih]

theorem consumeAnchorToken_cases (s : Shelf) (ctx : Context) (t : Token) :
    ((∃ ot ∈ ctx.held s t.issuer, ot.subsumes t = true) ∧ consumeAnchorToken s ctx t = ctx) ∨
    ((∀ ot ∈ ctx.held s t.issuer, ot.subsumes t = false) ∧
      consumeAnchorToken s ctx t = ctx.setHeld s t.issuer
        ((ctx.held s t.issuer).filter (fun ot => !t.subsumes ot) ++ [t])) := by
  rw [consumeAnchorToken, consumeAnchorLoop_eq]
  by_cases h : (ctx.held s t.issuer).any (fun ot => ot.subsumes t) = true
  · rw [if_pos h]
    exact .inl ⟨by simpa using h, rfl⟩
  · rw [if_neg h]
    exact .inr ⟨by simpa using h, rfl⟩

@[simp] theorem consumeAnchorToken_revoke (s : Shelf) (ctx : Context) (t : Token) :
    (consumeAnchorToken s ctx t).revoke = ctx.revoke := by
  rcases consumeAnchorToken_cases s ctx t with ⟨_, h⟩ | ⟨_, h⟩ <;> simp [h]

@[simp] theorem consumeAnchorToken_provider (s : Shelf) (ctx : Context) (t : Token) :
    (consumeAnchorToken s ctx t).provider = ctx.provider := by
  rcases consumeAnchorToken_cases s ctx t with ⟨_, h⟩ | ⟨_, h⟩ <;> simp [h]

@[simp] theorem consumeAnchorToken_roots (s : Shelf) (ctx : Context) (t : Token) :
    (consumeAnchorToken s ctx t).roots = ctx.roots := by
  rcases consumeAnchorToken_cases s ctx t with ⟨_, h⟩ | ⟨_, h⟩ <;> simp [h]

theorem mem_held_consumeAnchorToken {s' u} (h : u ∈ (consumeAnchorToken s ctx t).held s' key) :
    u ∈ ctx.held s' key ∨ (s' = s ∧ key = t.issuer ∧ u = t) := by
  rcases consumeAnchorToken_cases s ctx t with ⟨_, heq⟩ | ⟨_, heq⟩
  · rw [heq] at h
    exact .inl h
  rw [heq, held_setHeld] at h
  split at h
  · next hkey =>
    obtain ⟨rfl, rfl⟩ := hkey
    rcases mem_append.mp h with h | h
    · exact .inl (mem_filter.mp h).1
    · exact .inr ⟨rfl, rfl, by simpa using h⟩
  · exact .inl h

theorem takeAll_anchorTokens_eq_ok (p : Platform) (now : Nat) (s : Shelf) (ts : List Token)
    (ctx : Context) : (takeAll (checkToken p now) (consumeAnchorToken s) ts ctx).2 = .ok () ↔
      ∀ t ∈ ts, t.verify p now ctx.revoke = .ok () := by
  induction ts generalizing ctx with
  | nil => simp [takeAll]
  | cons t ts ih =>
    unfold takeAll
    cases hcheck : checkToken p now ctx t with
    | error e =>
      have hnot : t.verify p now ctx.revoke = .error e := hcheck
      simp [hnot]
    | ok u =>
      have hok : t.verify p now ctx.revoke = .ok () := hcheck
      simp [hok, ih]

def verified (p : Platform) (now : Nat) (revoke : RevocationSet) (l : List Token) : List Token :=
  l.filter fun t => decide (t.verify p now revoke = .ok ())

theorem cleanUpList_sheds (p : Platform) (now : Nat) (s : Shelf) (ctx : Context) (anchor : DID) :
    Sheds ctx (cleanUpList p now s ctx anchor) := by
  have hread := getTokens_sheds now s anchor ctx
  have hwrite : ((getTokens now s anchor ctx).1.filter fun t =>
      decide (t.verify p now (getTokens now s anchor ctx).2.revoke = .ok ())).Sublist
      ((getTokens now s anchor ctx).2.held s anchor) := by
    rw [held_getTokens, if_pos ⟨rfl, rfl⟩, getTokens_fst]
    exact filter_sublist
  exact hread.trans (sheds_setHeld hwrite)

theorem held_cleanUpList (p : Platform) (now : Nat) (s s' : Shelf) (ctx : Context)
    (anchor key : DID) : (cleanUpList p now s ctx anchor).held s' key =
      if s' = s ∧ key = anchor then verified p now ctx.revoke (ctx.held s anchor)
      else ctx.held s' key := by
  have hread := getTokens_sheds now s anchor ctx
  rw [cleanUpList, held_setHeld, held_getTokens, getTokens_fst, hread.revoke]
  split
  · rw [filter_filter]
    refine filter_congr fun t _ => ?_
    cases hexp : t.expireBefore now with
    | false => simp
    | true => simp [Token.verify_eq_ok_iff, hexp]
  · rfl

theorem held_foldl_cleanUpList (p : Platform) (now : Nat) (s s' : Shelf) (anchors : List DID)
    (ctx : Context) (key : DID) : (anchors.foldl (cleanUpList p now s) ctx).held s' key =
      if s' = s ∧ key ∈ anchors then verified p now ctx.revoke (ctx.held s' key)
      else ctx.held s' key := by
  induction anchors generalizing ctx with
  | nil => simp
  | cons anchor anchors ih =>
    have hone := cleanUpList_sheds p now s ctx anchor
    rw [foldl_cons, ih, hone.revoke, held_cleanUpList]
    by_cases hs : s' = s
    · subst hs
      by_cases hkey : key = anchor
      · subst hkey
        simp [verified]
      · simp [hkey]
    · simp [hs]

theorem held_foldl_cleanUpList_keys (p : Platform) (call : Call) (s s' : Shelf) (ctx : Context)
    (key : DID) :
    ((call.order.visit (ctx.shelf s).keys).foldl (cleanUpList p call.now s) ctx).held s' key =
      if s' = s then verified p call.now ctx.revoke (ctx.held s' key) else ctx.held s' key := by
  rw [held_foldl_cleanUpList]
  by_cases hs : s' = s
  · subst hs
    by_cases hkey : key ∈ (ctx.shelf s').keys
    · simp [call.order.mem_visit, hkey]
    have hnil : ctx.held s' key = [] := by
      by_contra hne
      obtain ⟨t, ht⟩ := exists_mem_of_ne_nil _ hne
      exact hkey (mem_keys_of_mem_list ht)
    simp [call.order.mem_visit, hkey, hnil, verified]
  · simp [hs]

theorem list_rangeUpdate_filter (test : Token → Bool) (call : Call) (m : TokenMap) (key : DID) :
    (GoMap.rangeUpdate (fun _ l => some (l.filter test)) (call.order.visit m.keys) m).list key =
      (m.list key).filter test := by
  unfold list
  rw [lookup_rangeUpdate]
  cases m.lookup key <;> rfl

section CleanUp

variable (p : Platform) (call : Call) (ctx : Context)

/-- The state after the loop over the require anchors and after both loops. -/
def cleanedRequire : Context :=
  (ctx.getRequireAnchors call).foldl (cleanUpList p call.now .require) ctx

def cleanedAnchors : Context :=
  ((cleanedRequire p call ctx).getProvideAnchors call).foldl (cleanUpList p call.now .provide)
    (cleanedRequire p call ctx)

theorem cleanedRequire_sheds : Sheds ctx (cleanedRequire p call ctx) :=
  foldl_sheds (cleanUpList_sheds p call.now .require) (ctx.getRequireAnchors call) ctx

theorem cleanedAnchors_sheds : Sheds ctx (cleanedAnchors p call ctx) :=
  (cleanedRequire_sheds p call ctx).trans (foldl_sheds (cleanUpList_sheds p call.now .provide) _ _)

theorem held_cleanUpTokens (s : Shelf) (key : DID) :
    (cleanUpTokens p call ctx).held s key = verified p call.now ctx.revoke (ctx.held s key) := by
  have hheld s' : (cleanedAnchors p call ctx).held s' key = if s' = .subject then ctx.held s' key
      else verified p call.now ctx.revoke (ctx.held s' key) := by
    have h₁ := held_foldl_cleanUpList_keys p call .provide s' (cleanedRequire p call ctx) key
    have h₂ := held_foldl_cleanUpList_keys p call .require s' ctx key
    rw [(cleanedRequire_sheds p call ctx).revoke] at h₁
    refine h₁.trans ?_
    rw [show (cleanedRequire p call ctx).held s' key = _ from h₂]
    cases s' <;> simp
  change ((cleanedAnchors p call ctx).cleanUpSubjects p call).held s key = _
  unfold cleanUpSubjects
  cases s with
  | require => simpa [held, shelf] using hheld .require
  | provide => simpa [held, shelf] using hheld .provide
  | subject =>
    have hlist := hheld .subject
    simp only [held, shelf] at hlist ⊢
    rw [list_rangeUpdate_filter, (cleanedAnchors_sheds p call ctx).revoke, hlist]
    rfl

theorem cleanUpTokens_sheds : Sheds ctx (cleanUpTokens p call ctx) := by
  have hboth := cleanedAnchors_sheds p call ctx
  refine ⟨⟨hboth.name, hboth.provider, ?_⟩, hboth.roots, hboth.revoke⟩
  intro s key
  rw [held_cleanUpTokens]
  exact filter_sublist

end CleanUp

section AddRoots

variable (p : Platform) (call : Call) (roots : List DID) (require provide revoke : List Token)
  (ctx : Context)

/-- The revocations in force once `AddRoots` has read its arguments. -/
def revokedAfter : RevocationSet :=
  storeRevocations (acceptedRevocations p call.now revoke) ctx.revoke

/-- `AddRoots` succeeds when every revocation is accepted and every other token
verifies under the revocations of the batch. -/
def Acceptable : Prop := (∀ t ∈ revoke, acceptsRevocation p call.now t = true) ∧
    ∀ t ∈ require ++ provide, t.verify p call.now (revokedAfter p call revoke ctx) = .ok ()

/-- The part of the state that `AddRoots` fixes when it has read the revocations,
and where the tokens it leaves on the shelves come from. -/
structure Taken (base after : Context) : Prop where
  provider : after.provider = base.provider
  anchors : after.roots = (base.insertRoots roots).roots
  revocations : after.revoke = revokedAfter p call revoke base
  held : ∀ s key t, t ∈ after.held s key → t ∈ base.held s key ∨
      (((s = .require ∧ t ∈ require) ∨ (s = .provide ∧ t ∈ provide)) ∧ key = t.issuer ∧
        t.verify p call.now (revokedAfter p call revoke base) = .ok ())

/-- The states after the loops over the revocations, the require tokens and the
provide tokens. -/
def afterRevoke : Context × Result Unit :=
  takeAll (checkRevocation p call.now) consumeRevokeToken revoke (ctx.insertRoots roots)

def afterRequire : Context × Result Unit :=
  takeAll (checkToken p call.now) consumeRequireToken require
    (afterRevoke p call roots revoke ctx).1

def afterProvide : Context × Result Unit :=
  takeAll (checkToken p call.now) consumeProvideToken provide
    (afterRequire p call roots require revoke ctx).1

variable {p call roots require provide rev ctx}

theorem Taken.consumeAnchorToken {base a} (h : Taken p call roots require provide rev base a) {s t}
    (hmem : (s = .require ∧ t ∈ require) ∨ (s = .provide ∧ t ∈ provide))
    (hcheck : checkToken p call.now a t = .ok ()) :
    Taken p call roots require provide rev base (consumeAnchorToken s a t) := by
  refine ⟨by simp [h.provider], by simp [h.anchors], by simp [h.revocations], ?_⟩
  intro s' key u hu
  rcases mem_held_consumeAnchorToken hu with hu | ⟨rfl, rfl, rfl⟩
  · exact h.held s' key u hu
  refine .inr ⟨hmem, rfl, ?_⟩
  rw [← h.revocations]
  exact hcheck

theorem Taken.sheds {base a b} (h : Taken p call roots require provide rev base a)
    (hab : Sheds a b) : Taken p call roots require provide rev base b :=
  ⟨hab.provider.trans h.provider, hab.roots.trans h.anchors, hab.revoke.trans h.revocations,
    fun s key t ht => h.held s key t (hab.mem ht)⟩

theorem afterRevoke_taken (roots : List DID) (require provide : List Token) :
    Taken p call roots require provide rev ctx (afterRevoke p call roots rev ctx).1 := by
  rw [afterRevoke, (takeAll_revocations p call.now rev (ctx.insertRoots roots)).1]
  refine ⟨rfl, rfl, rfl, ?_⟩
  intro s key t ht
  left
  cases s <;> exact ht

theorem afterRequire_taken (roots : List DID) (require provide : List Token) :
    Taken p call roots require provide rev ctx
      (afterRequire p call roots require rev ctx).1 :=
  takeAll_invariant
    (fun _ _ ht h hcheck => h.consumeAnchorToken (.inl ⟨rfl, ht⟩) hcheck)
    (afterRevoke_taken roots require provide)

theorem afterProvide_taken (roots : List DID) (require provide : List Token) :
    Taken p call roots require provide rev ctx
      (afterProvide p call roots require provide rev ctx).1 :=
  takeAll_invariant
    (fun _ _ ht h hcheck => h.consumeAnchorToken (.inr ⟨rfl, ht⟩) hcheck)
    (afterRequire_taken roots require provide)

/-- However `AddRoots` ends, a token it leaves was there before or was given to it
and verified under the revocations of the batch. -/
theorem addRoots_taken : Taken p call roots require provide rev ctx
      (addRoots p call roots require provide rev ctx).1 := by
  refine andThen_invariant (afterRevoke_taken roots require provide) fun _ => ?_
  refine andThen_invariant (afterRequire_taken roots require provide) fun _ => ?_
  refine andThen_invariant (afterProvide_taken roots require provide) fun h => ?_
  exact h.sheds (cleanUpTokens_sheds p call _)

theorem mem_subject_addRoots {key t}
    (ht : t ∈ (ctx.addRoots p call roots require provide rev).1.held .subject key) :
    t ∈ ctx.held .subject key := by
  rcases addRoots_taken.held .subject key t ht with ht | ⟨h, _⟩
  · exact ht
  · simp at h

theorem addRoots_eq_ok : (addRoots p call roots require provide rev ctx).2 = .ok () ↔
      Acceptable p call require provide rev ctx := by
  have hrevoke : (afterRevoke p call roots rev ctx).1.revoke = revokedAfter p call rev ctx :=
    (afterRevoke_taken roots require provide).revocations
  have hrequire : (afterRequire p call roots require rev ctx).1.revoke =
      revokedAfter p call rev ctx :=
    (afterRequire_taken roots require provide).revocations
  have h₁ := (takeAll_revocations p call.now rev (ctx.insertRoots roots)).2
  have h₂ := takeAll_anchorTokens_eq_ok p call.now .require require
    (afterRevoke p call roots rev ctx).1
  have h₃ := takeAll_anchorTokens_eq_ok p call.now .provide provide
    (afterRequire p call roots require rev ctx).1
  rw [hrevoke] at h₂
  rw [hrequire] at h₃
  unfold addRoots Acceptable
  simp only [andThen_eq_ok, and_true, mem_append]
  constructor
  · rintro ⟨hr, hq, hp⟩
    refine ⟨h₁.mp hr, ?_⟩
    rintro t (ht | ht)
    · exact h₂.mp hq t ht
    · exact h₃.mp hp t ht
  · rintro ⟨hr, hall⟩
    exact ⟨h₁.mpr hr, h₂.mpr fun t ht => hall t (.inl ht), h₃.mpr fun t ht => hall t (.inr ht)⟩

theorem addRoots_of_ok (h : (addRoots p call roots require provide rev ctx).2 = .ok ()) :
    (addRoots p call roots require provide rev ctx).1 =
      (afterProvide p call roots require provide rev ctx).1.cleanUpTokens p call := by
  unfold addRoots at h ⊢
  simp only [andThen_eq_ok] at h
  rw [andThen_of_ok h.1, andThen_of_ok h.2.1, andThen_of_ok h.2.2.1]
  rfl

theorem addRoots_verified (h : (addRoots p call roots require provide rev ctx).2 = .ok ())
    {s key t} (ht : t ∈ (addRoots p call roots require provide rev ctx).1.held s key) :
    t.verify p call.now (revokedAfter p call rev ctx) = .ok () := by
  rw [addRoots_of_ok h, held_cleanUpTokens,
    (afterProvide_taken roots require provide).revocations] at ht
  simpa using (mem_filter.mp ht).2

end AddRoots

/-! ## Consuming tokens -/

/-- Tokens were dropped, and verified tokens were added under their subject. -/
structure Absorbs (p : Platform) (now : Nat) (a b : Context) : Prop where
  revoke : b.revoke = a.revoke
  anchored : ∀ s, s ≠ .subject → ∀ key, (b.held s key).Sublist (a.held s key)
  subject : ∀ key t, t ∈ b.held .subject key →
    t ∈ a.held .subject key ∨ (key = t.subject ∧ t.verify p now a.revoke = .ok ())

theorem Sheds.absorbs (h : Sheds a b) : Absorbs p now a b :=
  ⟨h.revoke, fun s _ key => h.held s key, fun _ _ ht => .inl (h.mem ht)⟩

theorem Absorbs.trans (hab : Absorbs p now a b) (hbc : Absorbs p now b c) : Absorbs p now a c where
  revoke := hbc.revoke.trans hab.revoke
  anchored s hs key := (hbc.anchored s hs key).trans (hab.anchored s hs key)
  subject key t ht := by
    rcases hbc.subject key t ht with ht | ⟨hkey, hverify⟩
    · exact hab.subject key t ht
    · rw [hab.revoke] at hverify
      exact .inr ⟨hkey, hverify⟩

theorem consumeSubjectToken_absorbs
    (h : t.verify p now ctx.revoke = .ok ()) : Absorbs p now ctx (consumeSubjectToken ctx t) := by
  unfold consumeSubjectToken
  refine ⟨by simp, ?_, ?_⟩
  · intro s hs key
    rw [held_setHeld, if_neg (by simp [hs])]
  intro key u hu
  rw [held_setHeld] at hu
  split at hu
  · next heq =>
    rcases mem_append.mp hu with hu | hu
    · rw [heq.2]; exact .inl hu
    · obtain rfl : u = t := by simpa using hu
      exact .inr ⟨heq.2, h⟩
  · exact .inl hu

theorem consume_absorbs (p : Platform) (call : Call) (origin : DID) (payload : GoString)
    (ctx : Context) : Absorbs p call.now ctx (consume p call origin payload ctx).1 := by
  have hreads : Reads call.now (Absorbs p call.now) :=
    ⟨fun ctx => (Sheds.refl ctx).absorbs, .trans, fun _ _ => (getTokens_sheds ..).absorbs⟩
  exact hreads.consume (fun _ _ => consumeSubjectToken_absorbs) origin payload ctx

end DMS.Ucan.Context
