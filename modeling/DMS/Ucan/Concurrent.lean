import DMS.Core.Reach
import DMS.Ucan.Subsumption
import Mathlib.Data.Fintype.Basic

/-! # Calls of `AddRoots` that run at the same time

`AddRoots` takes the mutex once for each map that it updates and for each list that it reads; a
`Stage` is where a call stands in between. The clean-up reads a list in one section and writes it
back in a later one, over what another call has stored meanwhile.
-/

namespace DMS.Ucan

open Did Context Token List

/-! ## The sections of a call -/

inductive Errand
  | revoke (t : Token)
  | anchor (s : Shelf) (t : Token)
deriving DecidableEq, Repr

namespace Errand

def check (p : Platform) (now : Nat) (ctx : Context) : Errand → Result Unit
  | .revoke t => checkRevocation p now ctx t
  | .anchor _ t => checkToken p now ctx t

def take (ctx : Context) : Errand → Context
  | .revoke t => consumeRevokeToken ctx t
  | .anchor s t => consumeAnchorToken s ctx t

end Errand

structure Args where
  roots : List DID
  require : List Token
  provide : List Token
  revoke : List Token

namespace Args

def errands (args : Args) : List Errand := args.revoke.map .revoke ++
    (args.require.map (.anchor .require) ++ (args.provide.map (.anchor .provide) ++ []))

def passed (args : Args) : Shelf → List Token
  | .require => args.require
  | .provide => args.provide
  | .subject => []

theorem mem_errands {args : Args} (hrevoke : args.revoke = []) {e} :
    e ∈ args.errands ↔ ∃ s, ∃ t ∈ args.passed s, e = .anchor s t := by
  simp only [errands, hrevoke, map_nil, nil_append, append_nil, mem_append, mem_map]
  constructor
  · rintro (⟨t, ht, rfl⟩ | ⟨t, ht, rfl⟩)
    · exact ⟨.require, t, ht, rfl⟩
    · exact ⟨.provide, t, ht, rfl⟩
  rintro ⟨s, t, ht, rfl⟩
  cases s with
  | require => exact .inl ⟨t, ht, rfl⟩
  | provide => exact .inr ⟨t, ht, rfl⟩
  | subject => cases ht

end Args

/-- Where a call stands, with the variables it still uses. The time `now` of the
loops is read at `stamp`, and that of the clean-up at `cleanUp`. -/
inductive Stage
  | begin (roots : List DID) (errands : List Errand)
  | stamp (errands : List Errand)
  | verify (now : Nat) (errands : List Errand)
  | take (now : Nat) (errand : Errand) (rest : List Errand)
  | cleanUp
  | anchors (now : Nat) (s : Shelf)
  | read (now : Nat) (s : Shelf) (anchors : List DID)
  | filter (now : Nat) (s : Shelf) (anchor : DID) (tokenList : List Token) (rest : List DID)
  | write (now : Nat) (s : Shelf) (anchor : DID) (tokenList : List Token) (rest : List DID)
  | subjects (now : Nat)
  | done
  | failed (e : GoError Cause)
deriving DecidableEq

/-- A list that a call has read and not written back yet. -/
structure Copy where
  shelf : Shelf
  anchor : DID
  tokens : List Token

namespace Stage

def nextLists (now : Nat) : Shelf → Stage
  | .require => .anchors now .provide
  | _ => .subjects now

/-- What a call does in its next turn. The turn fixes the time that a reading of the
clock gives and the order in which a map is ranged over. -/
def advance (p : Platform) (tick : Call) : Stage → Context → Stage × Context
  | .begin roots errands, ctx => (.stamp errands, ctx.insertRoots roots)
  | .stamp errands, ctx => (.verify tick.now errands, ctx)
  | .verify _ [], ctx => (.cleanUp, ctx)
  | .verify now (e :: rest), ctx =>
    match e.check p now ctx with
    | .error err => (.failed (err.wrap "verify token"), ctx)
    | .ok _ => (.take now e rest, ctx)
  | .take now e rest, ctx => (.verify now rest, e.take ctx)
  | .cleanUp, ctx => (.anchors tick.now .require, ctx)
  | .anchors now s, ctx => (.read now s (tick.order.visit (ctx.shelf s).keys), ctx)
  | .read now s [], ctx => (nextLists now s, ctx)
  | .read now s (anchor :: rest), ctx =>
    let (tokenList, ctx) := getTokens tick.now s anchor ctx
    (.filter now s anchor tokenList rest, ctx)
  | .filter now s anchor tokenList rest, ctx =>
    -- The revocations are consulted before the mutex is taken again.
    (.write now s anchor (verified p now ctx.revoke tokenList) rest, ctx)
  | .write now s anchor tokenList rest, ctx =>
    (.read now s rest, ctx.setHeld s anchor tokenList)
  | .subjects now, ctx => (.done, ctx.cleanUpSubjects p { tick with now := now })
  | .done, ctx => (.done, ctx)
  | .failed e, ctx => (.failed e, ctx)

def pending : Stage → List Errand
  | .begin _ errands | .stamp errands | .verify _ errands => errands
  | .take _ e rest => e :: rest
  | _ => []

def storing? : Stage → Option (Shelf × Token)
  | .take _ (.anchor s t) _ => some (s, t)
  | _ => none

def copy? : Stage → Option Copy
  | .filter _ s anchor tokenList _ | .write _ s anchor tokenList _ => some ⟨s, anchor, tokenList⟩
  | _ => none

end Stage

def Args.start (args : Args) : Stage := .begin args.roots args.errands

/-! ## A call that runs alone -/

/-- The call takes turn after turn, all at one time. -/
def Solo (p : Platform) (tick : Call) : Stage × Context → Stage × Context → Prop :=
  Relation.ReflTransGen fun x y => x.1.advance p tick x.2 = y

def Stage.final : Result Unit → Stage
  | .ok _ => .done
  | .error e => .failed e

section Solo

variable {p : Platform} {tick : Call}

theorem Solo.head {x y z} (h : x.1.advance p tick x.2 = y)
    (hyz : Solo p tick y z) : Solo p tick x z :=
  Relation.ReflTransGen.head h hyz

theorem Solo.takeAll {check take errand}
    (hcheck : ∀ ctx t, (errand t).check p tick.now ctx = check ctx t)
    (htake : ∀ ctx t, (errand t).take ctx = take ctx t) {rest next}
    (hnext : ∀ ctx, Solo p tick (.verify tick.now rest, ctx) (.final (next ctx).2, (next ctx).1))
    (ts : List Token) (ctx : Context) : Solo p tick (.verify tick.now (ts.map errand ++ rest), ctx)
      (.final (andThen (Context.takeAll check take ts ctx) next).2,
        (andThen (Context.takeAll check take ts ctx) next).1) := by
  induction ts generalizing ctx with
  | nil => exact hnext ctx
  | cons t ts ih =>
    cases hres : check ctx t with
    | error e =>
      refine .head (y := (.failed (e.wrap "verify token"), ctx)) ?_ ?_
      · simp [Stage.advance, hcheck, hres]
      · simp only [Context.takeAll, hres, andThen]
        exact .refl
    | ok u =>
      refine .head (y := (.take tick.now (errand t) (ts.map errand ++ rest), ctx)) ?_ ?_
      · simp [Stage.advance, hcheck, hres]
      refine .head (y := (.verify tick.now (ts.map errand ++ rest), take ctx t)) ?_ ?_
      · simp [Stage.advance, htake]
      · simpa only [Context.takeAll, hres] using ih (take ctx t)

theorem Solo.cleanUpLists {s z} (anchors : List DID) (ctx : Context)
    (hz : Solo p tick (.read tick.now s [], anchors.foldl (cleanUpList p tick.now s) ctx) z) :
    Solo p tick (.read tick.now s anchors, ctx) z := by
  induction anchors generalizing ctx with
  | nil => exact hz
  | cons anchor rest ih =>
    refine .head rfl (.head rfl (.head rfl ?_))
    exact ih _ hz

theorem Solo.cleanUpTokens (ctx : Context) :
    Solo p tick (.cleanUp, ctx) (.done, ctx.cleanUpTokens p tick) := by
  refine .head rfl (.head rfl (Solo.cleanUpLists _ _ ?_))
  refine .head rfl (.head rfl (Solo.cleanUpLists _ _ ?_))
  exact .head rfl (.head rfl .refl)

/-- A call that nothing interferes with does what `addRoots` does. -/
theorem Solo.addRoots_alone (args : Args) (ctx : Context) : Solo p tick (args.start, ctx)
      (.final (ctx.addRoots p tick args.roots args.require args.provide args.revoke).2,
        (ctx.addRoots p tick args.roots args.require args.provide args.revoke).1) := by
  refine .head rfl (.head rfl ?_)
  refine Solo.takeAll (fun _ _ => rfl) (fun _ _ => rfl) (fun ctx => ?_) _ _
  refine Solo.takeAll (fun _ _ => rfl) (fun _ _ => rfl) (fun ctx => ?_) _ _
  refine Solo.takeAll (fun _ _ => rfl) (fun _ _ => rfl) (fun ctx => ?_) _ _
  exact .head rfl (Solo.cleanUpTokens ctx)

end Solo

/-! ## Calls that share a context -/

structure Pool (ι : Type) where
  ctx : Context
  clock : Nat
  stage : ι → Stage

structure Turn (ι : Type) where
  who : ι
  tick : Call

namespace Pool

variable {ι : Type} [DecidableEq ι]

def launch (args : ι → Args) (ctx : Context) (clock : Nat) : Pool ι :=
  ⟨ctx, clock, fun i => (args i).start⟩

def step (p : Platform) (d : Pool ι) (turn : Turn ι) : Pool ι :=
  let next := (d.stage turn.who).advance p turn.tick d.ctx
  ⟨next.2, turn.tick.now, Function.update d.stage turn.who next.1⟩

def OnTime (d : Pool ι) (turn : Turn ι) : Prop := d.clock ≤ turn.tick.now

/-- A token is not stored under an anchor whose list another call has read and not
written back yet; one that a listed token subsumes is not stored at all. -/
def Undisturbed (d : Pool ι) (turn : Turn ι) : Prop := ∀ st ∈ (d.stage turn.who).storing?,
    (∃ ot ∈ d.ctx.held st.1 st.2.issuer, ot.subsumes st.2 = true) ∨
      ∀ j, j ≠ turn.who → ∀ c ∈ (d.stage j).copy?, ¬(c.shelf = st.1 ∧ c.anchor = st.2.issuer)

instance (d : Pool ι) (turn : Turn ι) : Decidable (d.OnTime turn) :=
  inferInstanceAs (Decidable (_ ≤ _))

instance [Fintype ι] (d : Pool ι) (turn : Turn ι) : Decidable (d.Undisturbed turn) :=
  inferInstanceAs (Decidable (∀ st ∈ _, _))

def Interleaving (p : Platform) (args : ι → Args) (base : Context) (clock : Nat)
    (guard : Pool ι → Turn ι → Prop) : Pool ι → Prop :=
  Reach (fun d => d = launch args base clock) (fun d turn => d.OnTime turn ∧ guard d turn) (step p)

end Pool

/-! ## Tokens that are covered by a list -/

/-- A token of the list subsumes `t`. -/
def Covered (l : List Token) (t : Token) : Prop := ∃ v ∈ l, v.subsumes t = true

variable {l : List Token} {t : Token} {now : Nat}

theorem covered_filter {test} (h : ∀ v ∈ l, v.subsumes t = true → test v = true) :
    Covered (l.filter test) t ↔ Covered l t := by
  constructor
  · rintro ⟨v, hv, hsub⟩
    exact ⟨v, (mem_filter.mp hv).1, hsub⟩
  · rintro ⟨v, hv, hsub⟩
    exact ⟨v, mem_filter.mpr ⟨hv, h v hv hsub⟩, hsub⟩

theorem covered_consumeAnchorToken {s s'} {ctx : Context} {u key}
    (ht : s' = s → ∀ v ∈ ctx.held s t.issuer, t.subsumes v = true → v.subsumes u = true →
      t.subsumes u = true) (h : Covered (ctx.held s' key) u) :
    Covered ((consumeAnchorToken s ctx t).held s' key) u := by
  obtain ⟨v, hv, hsub⟩ := h
  by_cases hs : s' = s
  · subst hs
    rcases mem_consumeAnchorToken t hv with hkept | ⟨rfl, htv, hmem⟩
    · exact ⟨v, hkept, hsub⟩
    · exact ⟨t, hmem, ht rfl v hv htv hsub⟩
  refine ⟨v, ?_, hsub⟩
  rcases consumeAnchorToken_cases s ctx t with ⟨_, heq⟩ | ⟨_, heq⟩
  · rw [heq]; exact hv
  · rw [heq, held_setHeld, if_neg (fun h => hs h.1)]; exact hv

/-! ## What every turn keeps -/

namespace Stage

def since? : Stage → Option Nat
  | .anchors now _ | .read now _ _ | .filter now _ _ _ _ | .write now _ _ _ _ | .subjects now =>
    some now
  | _ => none

def Failed (stage : Stage) : Prop := ∃ e, stage = .failed e

end Stage

section Keeping

variable {ι : Type} (p : Platform) (args : ι → Args) (base : Context)

def Passed (s : Shelf) (t : Token) : Prop := ∃ i, t ∈ (args i).passed s

variable {t : Token} {s : Shelf} {stage : Stage} {now : Nat}

theorem not_passed_subject : ¬Passed args .subject t := fun ⟨_, h⟩ => List.not_mem_nil h

def StandInsValid : Prop :=
  ∀ s key, ∀ v ∈ base.held s key, ∀ t, Passed args s t → v.subsumes t = true →
    v.Valid p base.revoke 0

def Composes : Prop :=
  ∀ s w v t, Passed args s w → (v ∈ base.held s w.issuer ∨ Passed args s v) → Passed args s t →
    w.subsumes v = true → v.subsumes t = true → w.subsumes t = true

theorem composes_of_noEmptyPath (h : ∀ s t, Passed args s t → t.NoEmptyPath) : Composes args base :=
  fun s w _ _ hw _ _ hwv hvt => subsumes_trans (h s w hw) hwv hvt

def Trusted (s : Shelf) (key : DID) (l : List Token) : Prop :=
  ∀ v ∈ l, ∀ t, Passed args s t → v.subsumes t = true →
    (v ∈ base.held s key ∨ Passed args s v) ∧ v.Valid p base.revoke 0

def Mirrors (clock : Nat) (ctx : Context) (c : Copy) : Prop :=
  ∀ t, Passed args c.shelf t → t.expireBefore clock = false →
    (Covered (ctx.held c.shelf c.anchor) t ↔ Covered c.tokens t)

structure CallKept (ctx : Context) (clock : Nat) (i : ι) (stage : Stage) : Prop where
  pending : ∀ e ∈ stage.pending, ∃ s t, e = .anchor s t ∧ Passed args s t
  storing : ∀ st ∈ stage.storing?, st.2.Valid p base.revoke 0
  trusted : ∀ c ∈ stage.copy?, Trusted p args base c.shelf c.anchor c.tokens
  mirrors : ∀ c ∈ stage.copy?, Mirrors args clock ctx c
  since : ∀ now ∈ stage.since?, now ≤ clock
  settled : ∀ s, ∀ t ∈ (args i).passed s, .anchor s t ∈ stage.pending ∨
    (t.expireBefore clock = false → Covered (ctx.held s t.issuer) t) ∨ stage.Failed

structure Keeping (d : Pool ι) : Prop where
  revocations : d.ctx.revoke = base.revoke
  trusted : ∀ s key, Trusted p args base s key (d.ctx.held s key)
  calls : ∀ i, CallKept p args base d.ctx d.clock i (d.stage i)

/-- What a turn of one call means for the others when it leaves the context `ctx`. -/
structure Carries (d : Pool ι) (turn : Turn ι) (ctx : Context) : Prop where
  revocations : ctx.revoke = base.revoke
  trusted : ∀ s key, Trusted p args base s key (ctx.held s key)
  forward : ∀ s key t, Passed args s t → t.expireBefore turn.tick.now = false →
    Covered (d.ctx.held s key) t → Covered (ctx.held s key) t
  backward : ∀ j, j ≠ turn.who → ∀ c ∈ (d.stage j).copy?, ∀ t, Passed args c.shelf t →
    t.expireBefore turn.tick.now = false →
    Covered (ctx.held c.shelf c.anchor) t → Covered (d.ctx.held c.shelf c.anchor) t

variable {p args base} {d : Pool ι} {turn : Turn ι} {ctx : Context}

theorem Carries.settled (h : Carries p args base d turn ctx) (htime : d.OnTime turn)
    (ht : Passed args s t)
    (hold : t.expireBefore d.clock = false → Covered (d.ctx.held s t.issuer) t)
    (hlive : t.expireBefore turn.tick.now = false) : Covered (ctx.held s t.issuer) t :=
  h.forward s _ t ht hlive (hold (expireBefore_mono htime hlive))

theorem CallKept.carry {j} (h : CallKept p args base d.ctx d.clock j stage) (htime : d.OnTime turn)
    (hcarry : Carries p args base d turn ctx) (hj : j ≠ turn.who) (hstage : d.stage j = stage) :
    CallKept p args base ctx turn.tick.now j stage where
  pending := h.pending
  storing := h.storing
  trusted := h.trusted
  mirrors c hc t ht hlive := by
    have hold := h.mirrors c hc t ht (expireBefore_mono htime hlive)
    -- where this call has a copy, the turn neither covered nor uncovered a passed token
    constructor
    · intro hnew
      exact hold.mp (hcarry.backward j hj c (hstage ▸ hc) t ht hlive hnew)
    · intro hcopy
      exact hcarry.forward _ _ t ht hlive (hold.mpr hcopy)
  since now hnow := (h.since now hnow).trans htime
  settled s t ht := by
    rcases h.settled s t ht with hpend | hcov | hfail
    · exact .inl hpend
    · exact .inr (.inl (hcarry.settled htime ⟨j, ht⟩ hcov))
    · exact .inr (.inr hfail)

/-! ### The context after a turn -/

theorem Carries.quiet (h : Keeping p args base d) (hrevoke : ctx.revoke = d.ctx.revoke)
    (hheld : ∀ s key, s ≠ .subject → ctx.held s key = d.ctx.held s key) :
    Carries p args base d turn ctx := by
  have hsame : ∀ {s t}, Passed args s t → ∀ key, ctx.held s key = d.ctx.held s key := by
    intro s t ht key
    exact hheld s key fun hs => not_passed_subject args (hs ▸ ht)
  refine ⟨hrevoke.trans h.revocations, ?_, ?_, ?_⟩
  · intro s key v hv t ht
    rw [hsame ht key] at hv
    exact h.trusted s key v hv t ht
  · intro s key t ht _ hcov
    rw [hsame ht key]
    exact hcov
  · intro j _ c _ t ht _ hcov
    rwa [hsame ht c.anchor] at hcov

theorem Carries.read (h : Keeping p args base d) (s : Shelf) (anchor : DID) :
    Carries p args base d turn (getTokens turn.tick.now s anchor d.ctx).2 := by
  have hsheds := getTokens_sheds turn.tick.now s anchor d.ctx
  have hcov : ∀ s' key t, t.expireBefore turn.tick.now = false →
      (Covered ((getTokens turn.tick.now s anchor d.ctx).2.held s' key) t ↔
        Covered (d.ctx.held s' key) t) := by
    intro s' key t hlive
    rw [held_getTokens]
    split
    · next heq =>
      rw [heq.1, heq.2]
      exact covered_filter fun v _ hsub => by simp [expireBefore_of_subsumes hsub hlive]
    · exact Iff.rfl
  refine ⟨hsheds.revoke.trans h.revocations, ?_, ?_, ?_⟩
  · intro s' key v hv
    exact h.trusted s' key v (hsheds.toTrims.mem hv)
  · intro s' key t _ hlive hold
    exact (hcov s' key t hlive).mpr hold
  · intro j _ c _ t _ hlive hnew
    exact (hcov _ _ t hlive).mp hnew

theorem Carries.write (h : Keeping p args base d) (htime : d.OnTime turn) {c}
    (hc : c ∈ (d.stage turn.who).copy?) :
    Carries p args base d turn (d.ctx.setHeld c.shelf c.anchor c.tokens) := by
  have hcall := h.calls turn.who
  have hcov : ∀ s key t, Passed args s t → t.expireBefore turn.tick.now = false →
      (Covered ((d.ctx.setHeld c.shelf c.anchor c.tokens).held s key) t ↔
        Covered (d.ctx.held s key) t) := by
    intro s key t ht hlive
    rw [held_setHeld]
    split
    · next heq =>
      obtain ⟨rfl, rfl⟩ := heq
      exact (hcall.mirrors c hc t ht (expireBefore_mono htime hlive)).symm
    · exact Iff.rfl
  refine ⟨by simpa using h.revocations, ?_, ?_, ?_⟩
  · intro s key v hv
    rw [held_setHeld] at hv
    split at hv
    · next heq =>
      obtain ⟨rfl, rfl⟩ := heq
      exact hcall.trusted c hc v hv
    · exact h.trusted s key v hv
  · intro s key t ht hlive hold
    exact (hcov s key t ht hlive).mpr hold
  · intro j _ c' _ t ht hlive hnew
    exact (hcov _ _ t ht hlive).mp hnew

theorem Carries.take [DecidableEq ι] (h : Keeping p args base d) (hguard : d.Undisturbed turn)
    (hcompose : Composes args base)
    (hst : (s, t) ∈ (d.stage turn.who).storing?) (ht : Passed args s t) :
    Carries p args base d turn (consumeAnchorToken s d.ctx t) := by
  refine ⟨by simpa using h.revocations, ?_, ?_, ?_⟩
  · intro s' key v hv u hu hsub
    rcases mem_held_consumeAnchorToken hv with hold | ⟨rfl, _, rfl⟩
    · exact h.trusted s' key v hold u hu hsub
    · exact ⟨.inr ht, (h.calls turn.who).storing _ hst⟩
  · intro s' key u hu _ hold
    refine covered_consumeAnchorToken ?_ hold
    rintro rfl v hv htv hvu
    exact hcompose s' t v u ht (h.trusted s' t.issuer v hv u hu hvu).1 hu htv hvu
  intro j hj c hc u _ _ hnew
  rcases consumeAnchorToken_cases s d.ctx t with ⟨_, heq⟩ | ⟨hnone, heq⟩
  · rwa [heq] at hnew
  -- the token is stored, so the guard is about the copies of other calls
  rcases hguard (s, t) hst with ⟨ot, hot, hsub⟩ | hfree
  · rw [hnone ot hot] at hsub
    exact Bool.noConfusion hsub
  · rwa [heq, held_setHeld, if_neg (hfree j hj c hc)] at hnew

/-! ### The call that takes the turn -/

theorem CallKept.move {next : Stage} (h : CallKept p args base d.ctx d.clock turn.who stage)
    (htime : d.OnTime turn) (hcarry : Carries p args base d turn ctx)
    (hpending : ∀ e ∈ next.pending, e ∈ stage.pending)
    (hstoring : ∀ st ∈ next.storing?, st.2.Valid p base.revoke 0)
    (hcopy : ∀ c ∈ next.copy?, Trusted p args base c.shelf c.anchor c.tokens ∧
      Mirrors args turn.tick.now ctx c) (hsince : ∀ now ∈ next.since?, now ≤ turn.tick.now)
    (hsettled : ∀ s t, .anchor s t ∈ stage.pending → .anchor s t ∈ next.pending ∨
      (t.expireBefore turn.tick.now = false → Covered (ctx.held s t.issuer) t) ∨ next.Failed)
    (hfailed : stage.Failed → next.Failed) :
    CallKept p args base ctx turn.tick.now turn.who next where
  pending e he := h.pending e (hpending e he)
  storing := hstoring
  trusted c hc := (hcopy c hc).1
  mirrors c hc := (hcopy c hc).2
  since := hsince
  settled s t ht := by
    rcases h.settled s t ht with hpend | hcov | hfail
    · exact hsettled s t hpend
    · exact .inr (.inl (hcarry.settled htime ⟨_, ht⟩ hcov))
    · exact .inr (.inr (hfailed hfail))

theorem CallKept.plain {next : Stage} (h : CallKept p args base d.ctx d.clock turn.who stage)
    (htime : d.OnTime turn) (hcarry : Carries p args base d turn ctx)
    (hpending : next.pending = stage.pending) (hstoring : next.storing? = none)
    (hcopy : next.copy? = none) (hsince : ∀ now ∈ next.since?, now ≤ turn.tick.now)
    (hfailed : stage.Failed → next.Failed) :
    CallKept p args base ctx turn.tick.now turn.who next := by
  refine h.move htime hcarry ?_ ?_ ?_ hsince ?_ hfailed
  · intro e he
    exact hpending ▸ he
  · simp [hstoring]
  · simp [hcopy]
  · intro s t hpend
    exact .inl (hpending ▸ hpend)

def Moves (p : Platform) (args : ι → Args) (base : Context) (d : Pool ι) (turn : Turn ι)
    (next : Stage × Context) : Prop :=
  Carries p args base d turn next.2 ∧ CallKept p args base next.2 turn.tick.now turn.who next.1

attribute [local simp] Stage.advance Stage.pending Stage.storing? Stage.copy?
  Stage.since? Stage.Failed

section Moving

variable (h : Keeping p args base d) (htime : d.OnTime turn)

include h htime

theorem Keeping.moves_verify {e rest} (hstage : d.stage turn.who = .verify now (e :: rest)) :
    Moves p args base d turn ((Stage.verify now (e :: rest)).advance p turn.tick d.ctx) := by
  have hcall := h.calls turn.who
  rw [hstage] at hcall
  have hstay : Carries p args base d turn d.ctx := .quiet h rfl fun _ _ _ => rfl
  obtain ⟨s, t, rfl, ht⟩ := hcall.pending e (by simp)
  cases hcheck : t.verify p now d.ctx.revoke with
  | error err =>
    have hnext : (Stage.verify now (.anchor s t :: rest)).advance p turn.tick d.ctx =
        (.failed (err.wrap "verify token"), d.ctx) := by
      simp [Errand.check, checkToken, hcheck]
    rw [hnext]
    exact ⟨hstay, hcall.move htime hstay (by simp) (by simp)
      (by simp) (by simp) (fun _ _ _ => .inr (.inr ⟨_, rfl⟩))
      (fun _ => ⟨_, rfl⟩)⟩
  | ok u =>
    have hnext : (Stage.verify now (.anchor s t :: rest)).advance p turn.tick d.ctx =
        (.take now (.anchor s t) rest, d.ctx) := by
      simp [Errand.check, checkToken, hcheck]
    have hvalid := (verify_eq_ok_iff.mp hcheck).2
    rw [h.revocations] at hvalid
    rw [hnext]
    exact ⟨hstay, hcall.move htime hstay (fun _ he => he)
      (by simpa using hvalid) (by simp) (by simp)
      (fun _ _ hpend => .inl hpend) (by simp)⟩

theorem Keeping.moves_read {anchor rest}
    (hstage : d.stage turn.who = .read now s (anchor :: rest)) :
    Moves p args base d turn ((Stage.read now s (anchor :: rest)).advance p turn.tick d.ctx) := by
  have hcall := h.calls turn.who
  rw [hstage] at hcall
  have hcarry : Carries p args base d turn (getTokens turn.tick.now s anchor d.ctx).2 :=
    .read h s anchor
  refine ⟨hcarry, hcall.move htime hcarry (fun _ he => he) (by simp)
    ?_ (fun now hnow => (hcall.since now hnow).trans htime) (fun _ _ hpend => .inl hpend)
    (by simp)⟩
  intro c hc
  obtain rfl : ⟨s, anchor, (getTokens turn.tick.now s anchor d.ctx).1⟩ = c := by
    simpa using hc
  constructor
  · intro v hv
    exact h.trusted s anchor v (mem_getTokens.mp hv).1
  intro t _ _
  simp only [Stage.advance]
  rw [held_getTokens, if_pos ⟨rfl, rfl⟩, getTokens_fst]

theorem Keeping.moves_filter {anchor tokenList rest}
    (hstage : d.stage turn.who = .filter now s anchor tokenList rest) : Moves p args base d turn
      ((Stage.filter now s anchor tokenList rest).advance p turn.tick d.ctx) := by
  have hcall := h.calls turn.who
  rw [hstage] at hcall
  have hstay : Carries p args base d turn d.ctx := .quiet h rfl fun _ _ _ => rfl
  have hlater : ∀ n ∈ (Stage.filter now s anchor tokenList rest).since?, n ≤ turn.tick.now :=
    fun n hn => (hcall.since n hn).trans htime
  refine ⟨hstay, hcall.move htime hstay (fun _ he => he) (by simp)
    ?_ hlater (fun _ _ hpend => .inl hpend) (by simp)⟩
  intro c hc
  obtain rfl : ⟨s, anchor, verified p now d.ctx.revoke tokenList⟩ = c := by
    simpa using hc
  have htrusted := hcall.trusted ⟨s, anchor, tokenList⟩ rfl
  constructor
  · intro v hv
    exact htrusted v (mem_filter.mp hv).1
  intro t ht hlive
  rw [h.revocations]
  refine Iff.trans ?_ (covered_filter fun v hv hsub => ?_).symm
  · exact hcall.mirrors ⟨s, anchor, tokenList⟩ rfl t ht (expireBefore_mono htime hlive)
  · have hexp := expireBefore_mono (hlater now rfl) (expireBefore_of_subsumes hsub hlive)
    simp [verify_eq_ok_iff, hexp, (htrusted v hv t ht hsub).2]

variable [DecidableEq ι] (hguard : d.Undisturbed turn) (hcompose : Composes args base)

include hguard hcompose

theorem Keeping.moves_take {e rest} (hstage : d.stage turn.who = .take now e rest) :
    Moves p args base d turn ((Stage.take now e rest).advance p turn.tick d.ctx) := by
  have hcall := h.calls turn.who
  rw [hstage] at hcall
  obtain ⟨s, t, rfl, ht⟩ := hcall.pending e (by simp)
  have hcarry : Carries p args base d turn (consumeAnchorToken s d.ctx t) :=
    .take h hguard hcompose (by simp [hstage]) ht
  refine ⟨hcarry, hcall.move htime hcarry (fun e he => .tail _ he)
    (by simp) (by simp)
    (by simp) ?_ (by simp)⟩
  intro s' t' hpend
  rcases mem_cons.mp hpend with heq | hrest
  · obtain ⟨rfl, rfl⟩ := Errand.anchor.inj heq
    refine .inr (.inl fun hlive => ?_)
    rcases mem_consumeAnchorToken_self s' d.ctx t' with hmem | ⟨ot, hmem, hsub⟩
    · exact ⟨t', hmem, subsumes_self hlive⟩
    · exact ⟨ot, hmem, hsub⟩
  · exact .inl hrest

theorem Keeping.moves :
    Moves p args base d turn ((d.stage turn.who).advance p turn.tick d.ctx) := by
  have hcall := h.calls turn.who
  have hstay : Carries p args base d turn d.ctx := .quiet h rfl fun _ _ _ => rfl
  have hlater : ∀ now ∈ (d.stage turn.who).since?, now ≤ turn.tick.now :=
    fun now hnow => (hcall.since now hnow).trans htime
  cases hstage : d.stage turn.who with
    rw [hstage] at hcall hlater
  | begin roots errands =>
    have hcarry : Carries p args base d turn (d.ctx.insertRoots roots) :=
      .quiet h rfl fun s _ _ => by cases s <;> rfl
    exact ⟨hcarry, hcall.plain htime hcarry rfl rfl rfl (by simp) (by simp)⟩
  | stamp errands | cleanUp =>
    exact ⟨hstay, hcall.plain htime hstay rfl rfl rfl (by simp) (by simp)⟩
  | verify now errands =>
    cases errands with
    | nil =>
        exact ⟨hstay, hcall.plain htime hstay rfl rfl rfl (by simp) (by simp)⟩
    | cons e rest => exact h.moves_verify htime hstage
  | take now e rest => exact h.moves_take htime hguard hcompose hstage
  | anchors now s =>
    exact ⟨hstay, hcall.plain htime hstay rfl rfl rfl hlater (by simp)⟩
  | read now s anchors =>
    cases anchors with
    | nil =>
      cases s <;>
        exact ⟨hstay, hcall.plain htime hstay rfl rfl rfl hlater (by simp)⟩
    | cons anchor rest => exact h.moves_read htime hstage
  | filter now s anchor tokenList rest => exact h.moves_filter htime hstage
  | write now s anchor tokenList rest =>
    have hcarry : Carries p args base d turn (d.ctx.setHeld s anchor tokenList) :=
      .write h htime (c := ⟨s, anchor, tokenList⟩) (by simp [hstage])
    exact ⟨hcarry, hcall.plain htime hcarry rfl rfl rfl hlater (by simp)⟩
  | subjects now =>
    have hcarry : Carries p args base d turn
        (d.ctx.cleanUpSubjects p { turn.tick with now := now }) := by
      refine .quiet h rfl fun s _ hs => ?_
      cases s with
      | require | provide => rfl
      | subject => exact absurd rfl hs
    exact ⟨hcarry, hcall.plain htime hcarry rfl rfl rfl (by simp) (by simp)⟩
  | done | failed e =>
    exact ⟨hstay, hcall.plain htime hstay rfl rfl rfl (by simp) (fun hfail => hfail)⟩

theorem Keeping.step : Keeping p args base (d.step p turn) := by
  obtain ⟨hcarry, hself⟩ := h.moves htime hguard hcompose
  refine ⟨hcarry.revocations, hcarry.trusted, ?_⟩
  exact (Function.forall_update_iff d.stage (fun j stage =>
    CallKept p args base (d.step p turn).ctx turn.tick.now j stage)).mpr
      ⟨hself, fun j hj => (h.calls j).carry htime hcarry hj rfl⟩

end Moving

theorem Keeping.launch {base clock} (hrevoke : ∀ i, (args i).revoke = [])
    (hbase : StandInsValid p args base) : Keeping p args base (.launch args base clock) where
  revocations := rfl
  trusted s key v hv t ht hsub := ⟨.inl hv, hbase s key v hv t ht hsub⟩
  calls i := {
      pending := fun e he => by
        obtain ⟨s, t, ht, rfl⟩ := (Args.mem_errands (hrevoke i)).mp he
        exact ⟨s, t, rfl, i, ht⟩
      storing := by simp [Pool.launch, Args.start]
      trusted := by simp [Pool.launch, Args.start]
      mirrors := by simp [Pool.launch, Args.start]
      since := by simp [Pool.launch, Args.start]
      settled := fun s t ht => .inl ((Args.mem_errands (hrevoke i)).mpr ⟨s, t, ht, rfl⟩) }

end Keeping

/-- No anchor is lost while the calls do not disturb each other: when a call has returned without
an error, every unexpired token passed to it is listed under its issuer or subsumed by one listed
there. The stored tokens that could stand in for a passed one have to be valid, and subsumption
has to compose, as it does away from the empty path. -/
theorem addRoots_keeps_anchors {ι : Type} [DecidableEq ι] (p : Platform) (args : ι → Args)
    (base : Context) (clock : Nat) (hrevoke : ∀ i, (args i).revoke = [])
    (hbase : StandInsValid p args base) (hcompose : Composes args base) (d : Pool ι)
    (hrun : Pool.Interleaving p args base clock Pool.Undisturbed d) (i : ι)
    (hdone : d.stage i = .done) (s : Shelf) (t : Token) (ht : t ∈ (args i).passed s)
    (hlive : t.expireBefore d.clock = false) :
    t ∈ d.ctx.held s t.issuer ∨ ∃ v ∈ d.ctx.held s t.issuer, v.subsumes t = true := by
  have hkeep : Keeping p args base d := by
    refine hrun.invariant _ ?_ ?_
    · rintro _ rfl
      exact .launch hrevoke hbase
    · intro d turn h hguard
      exact h.step hguard.1 hguard.2 hcompose
  rcases (hkeep.calls i).settled s t ht with hpend | hcov | hfail
  · simp [hdone, Stage.pending] at hpend
  · exact .inr (hcov hlive)
  · simp [hdone, Stage.Failed] at hfail

example :
    let revoked : Context := { sampleContext ⟨ascii "did:c"⟩ with
        provide := (∅ : TokenMap).insert plainGrant.issuer [plainGrant]
        revoke := (∅ : RevocationSet).insert plainGrant.revocationKey plainGrant }
    let after := revoked.addRoots (samplePlatform fun _ => .ok []) (sampleCall 5) [] []
      [nodeGrant] []
    after.2 = .ok () ∧ after.1.held .provide nodeGrant.issuer = [] := by decide

/-- A delegation of `did:a`, made out to the given subject. -/
def grantTo (subject : GoString) : Token :=
  .sealed (.root ⟨.delegate, ⟨ascii "did:a"⟩, ⟨subject⟩, .zero, [], [⟨ascii "/dms"⟩], subject,
    20, 0, []⟩)

def twoCalls : Bool → Args
  | false => ⟨[], [], [grantTo (ascii "did:c")], []⟩
  | true => ⟨[], [], [grantTo (ascii "did:d")], []⟩

def takeTurns (who : List Bool) : Pool Bool :=
  (who.map fun i => (⟨i, sampleCall 5⟩ : Turn Bool)).foldl
    (Pool.step (samplePlatform fun _ => .ok []))
    (.launch twoCalls (sampleContext ⟨ascii "did:c"⟩) 5)

def orderly : List Bool :=
  List.replicate 4 true ++ List.replicate 14 false ++ List.replicate 10 true

/-- The second call stores its token after the first one has read the list, and
the first one writes the list back. -/
def disturbed : List Bool :=
  List.replicate 10 false ++ List.replicate 4 true ++ List.replicate 4 false ++
    List.replicate 10 true

theorem twoCalls_noEmptyPath (s : Shelf) (t : Token) (h : Passed twoCalls s t) : t.NoEmptyPath := by
  obtain ⟨i, hi⟩ := h
  cases i <;> cases s <;> simp only [twoCalls, Args.passed, mem_singleton, not_mem_nil] at hi
  · subst hi
    decide
  · subst hi
    decide

theorem interleaving_takeTurns {guard} {who : List Bool}
    (h : Reach.Passes (fun d turn => Pool.OnTime d turn ∧ guard d turn)
      (Pool.step (samplePlatform fun _ => .ok []))
      (.launch twoCalls (sampleContext ⟨ascii "did:c"⟩) 5) (who.map fun i => ⟨i, sampleCall 5⟩)) :
    Pool.Interleaving (samplePlatform fun _ => .ok []) twoCalls (sampleContext ⟨ascii "did:c"⟩) 5
      guard (takeTurns who) := by
  have hinit : Pool.Interleaving (samplePlatform fun _ => .ok []) twoCalls
      (sampleContext ⟨ascii "did:c"⟩) 5 guard _ := .init rfl
  exact hinit.foldl h

theorem orderly_keeps_anchors : (takeTurns orderly).stage true = .done ∧
      (grantTo (ascii "did:d") ∈ (takeTurns orderly).ctx.held .provide ⟨ascii "did:a"⟩ ∨
        ∃ v ∈ (takeTurns orderly).ctx.held .provide ⟨ascii "did:a"⟩,
          v.subsumes (grantTo (ascii "did:d")) = true) :=
  ⟨by decide, addRoots_keeps_anchors (samplePlatform fun _ => .ok []) twoCalls
    (sampleContext ⟨ascii "did:c"⟩) 5 (by decide)
    (fun s key v hv => absurd hv (by cases s <;> exact not_mem_nil))
    (composes_of_noEmptyPath twoCalls _ twoCalls_noEmptyPath)
    (takeTurns orderly) (interleaving_takeTurns (by decide)) true (by decide) .provide
    (grantTo (ascii "did:d")) (by decide) (by decide)⟩

/-- Both calls return without an error, and the token of the second one is gone. -/
theorem disturbed_loses_anchor :
    Pool.Interleaving (samplePlatform fun _ => .ok []) twoCalls (sampleContext ⟨ascii "did:c"⟩) 5
        (fun _ _ => True) (takeTurns disturbed) ∧
      (∀ i, (twoCalls i).revoke = [] ∧ (takeTurns disturbed).stage i = .done) ∧
      grantTo (ascii "did:d") ∈ (twoCalls true).provide ∧
      (grantTo (ascii "did:d")).issuer = ⟨ascii "did:a"⟩ ∧
      (grantTo (ascii "did:d")).expireBefore (takeTurns disturbed).clock = false ∧
      (takeTurns disturbed).ctx.held .provide ⟨ascii "did:a"⟩ = [grantTo (ascii "did:c")] ∧
      (grantTo (ascii "did:c")).subsumes (grantTo (ascii "did:d")) = false :=
  ⟨interleaving_takeTurns (by decide), by decide, by decide, by decide, by decide, by decide,
    by decide⟩

end DMS.Ucan
