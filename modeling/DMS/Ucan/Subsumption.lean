import DMS.Ucan.Effects

/-! # What subsumption preserves

`Subsumes` compares issuer, subject, audience, expiry, capabilities and the chains. The questions
that a token answers also read its action, its topics and its depth limit; `Wider` is what has to
hold of these.
-/

namespace DMS.Ucan

open Did Capability

namespace Token

/-- What `Subsumes` establishes of the two tokens themselves. -/
structure Subsumption (a b : Token) : Prop where
  issuer : a.issuer = b.issuer
  subject : a.subject = b.subject
  audience : a.audience = b.audience
  expire : b.expire ≤ a.expire
  capability : Capability.allImplied a.capability b.capability = true

variable {a b : Token}

theorem Subsumption.of_head {body} (ha : a.body = body) (hhead : headSubsumes body b = true)
    (hcap : Capability.allImplied body.capability b.capability = true) : Subsumption a b := by
  subst ha
  simp only [headSubsumes, Bool.and_eq_true, DID.equal_iff, decide_eq_true_eq] at hhead
  obtain ⟨⟨⟨hissuer, hsubject⟩, haudience⟩, hexpire⟩ := hhead
  exact ⟨hissuer, hsubject, haudience, hexpire, hcap⟩

theorem subsumption_of_subsumes (h : a.subsumes b = true) : Subsumption a b := by
  cases a with
  | foreign => simp [subsumes] at h
  | root body =>
    simp only [subsumes, Bool.and_eq_true] at h
    exact .of_head rfl h.1.1 h.2
  | link body chain =>
    unfold subsumes at h
    split at h
    · simp at h
    · simp only [Bool.and_eq_true] at h
      exact .of_head rfl h.1.1 h.2

theorem expireBefore_of_subsumes (h : a.subsumes b = true) {deadline}
    (hb : b.expireBefore deadline = false) : a.expireBefore deadline = false := by
  have hexpire := (subsumption_of_subsumes h).expire
  have hself := (expireBefore_eq_false_iff.mp hb b b.mem_lineage_self).2
  induction a generalizing b with
  | foreign => simp [subsumes] at h
  | root body =>
    have hbody : b.expire ≤ body.expire := hexpire
    simp only [expireBefore, decide_eq_false_iff_not]
    omega
  | link body chain ih =>
    have hbody : b.expire ≤ body.expire := hexpire
    unfold subsumes at h
    split at h
    · simp at h
    next otChain hchain =>
    simp only [Bool.and_eq_true] at h
    have hrest : otChain.expireBefore deadline = false := by
      cases b with
      | foreign => simp [chain?] at hchain
      | root bb => simp at hchain
      | link bb bchain =>
        obtain rfl : bchain = otChain := by simpa using hchain
        simp only [expireBefore, Bool.or_eq_false_iff] at hb
        exact hb.2
    have hchainself := (expireBefore_eq_false_iff.mp hrest otChain otChain.mem_lineage_self).2
    simp only [expireBefore, Bool.or_eq_false_iff, decide_eq_false_iff_not]
    exact ⟨by omega, ih h.1.2 hrest (subsumption_of_subsumes h.1.2).expire hchainself⟩

theorem headSubsumes_trans {b ot ct} (h : headSubsumes b ot = true)
    (h' : headSubsumes ot.body ct = true) : headSubsumes b ct = true := by
  simp only [headSubsumes, Bool.and_eq_true, DID.equal_iff, decide_eq_true_eq] at h h' ⊢
  obtain ⟨⟨⟨hissuer, hsubject⟩, haudience⟩, hexpire⟩ := h
  obtain ⟨⟨⟨hissuer', hsubject'⟩, haudience'⟩, hexpire'⟩ := h'
  exact ⟨⟨⟨hissuer.trans hissuer', hsubject.trans hsubject'⟩, haudience.trans haudience'⟩,
    hexpire'.trans hexpire⟩

theorem headSubsumes_self (t : Token) : headSubsumes t.body t = true := by
  simp [headSubsumes, issuer, subject, audience, expire]

def NoEmptyPath (t : Token) : Prop := ∀ q ∈ t.lineage, ∀ c ∈ q.capability, c.text ≠ []

instance (t : Token) : Decidable t.NoEmptyPath := inferInstanceAs (Decidable (∀ q ∈ _, _))

theorem subsumes_trans {c} (ha : a.NoEmptyPath) (hab : a.subsumes b = true)
    (hbc : b.subsumes c = true) : a.subsumes c = true := by
  induction a generalizing b c with
  | foreign => simp [subsumes] at hab
  | root body =>
    have hne := ha (root body) (mem_lineage_self _)
    cases b with
    | foreign => simp [subsumes] at hbc
    | link bb bchain => simp [subsumes] at hab
    | root bb =>
      simp only [subsumes, Bool.and_eq_true] at hab hbc ⊢
      exact ⟨⟨headSubsumes_trans hab.1.1 hbc.1.1, hbc.1.2⟩, allImplied_trans hne hab.2 hbc.2⟩
  | link body chain ih =>
    have hne := ha (link body chain) (mem_lineage_self _)
    have hchain : chain.NoEmptyPath := fun q hq => ha q (.tail _ hq)
    cases b with
    | foreign => simp [subsumes] at hbc
    | root bb => simp [subsumes] at hab
    | link bb bchain =>
      cases hc : c.chain? with
      | none => simp [subsumes, hc] at hbc
      | some cchain =>
        simp only [subsumes, hc, chain?_link, Bool.and_eq_true] at hab hbc ⊢
        exact ⟨⟨headSubsumes_trans hab.1.1 hbc.1.1, ih hchain hab.1.2 hbc.1.2⟩,
          allImplied_trans hne hab.2 hbc.2⟩

theorem subsumes_self {t : Token} {deadline} (h : t.expireBefore deadline = false) :
    t.subsumes t = true := by
  induction t with
  | foreign => simp [expireBefore] at h
  | root body =>
    have hhead := headSubsumes_self (root body)
    simp only [body_root] at hhead
    simp [subsumes, hhead, allImplied_refl, capability]
  | link body chain ih =>
    have hhead := headSubsumes_self (link body chain)
    simp only [body_link] at hhead
    simp only [expireBefore, Bool.or_eq_false_iff] at h
    simp [subsumes, hhead, ih h.2, allImplied_refl, capability]

/-- Every question that `b` answers positively is answered positively by `a`. -/
structure KeepsAuthority (a b : Token) : Prop where
  invocation : ∀ subject audience c,
    b.allowInvocation subject audience c = true → a.allowInvocation subject audience c = true
  broadcast : ∀ subject topic c,
    b.allowBroadcast subject topic c = true → a.allowBroadcast subject topic c = true
  delegation : ∀ action issuer audience topics expire c,
    b.allowDelegation action issuer audience topics expire c = true →
      a.allowDelegation action issuer audience topics expire c = true
  action : ∀ ot, b.allowAction ot = true → a.allowAction ot = true

/-- The root capability of `b` is one of `a`, and not only implied by one. -/
def KeepsRoot (a b : Token) : Prop :=
  Capability.root ∈ b.capability → Capability.root ∈ a.capability

def DepthWider (a b : Token) : Prop := a.depth = 0 ∨ (b.depth ≠ 0 ∧ b.depth ≤ a.depth)

/-- The fields that `Subsumes` does not compare are wide enough, as far as `b`
answers anything. -/
def Wider (a b : Token) : Prop :=
  match b.action with
  | .invoke => b.capability = [] ∨ (a.action = .invoke ∧ KeepsRoot a b)
  | .broadcast =>
    b.audience.empty = false ∨ b.topic = [] ∨ b.capability = [] ∨
      (a.action = .broadcast ∧ Capability.Covers a.topic b.topic ∧ KeepsRoot a b)
  | .delegate =>
    b.expireBefore 0 = true ∨
      (a.action = .delegate ∧ DepthWider a b ∧ Capability.Covers a.topic b.topic ∧ KeepsRoot a b ∧
        (b.capability = [] ∨ ∀ n ∈ [1, 2], b.verifyDepth n = true → a.verifyDepth n = true))
  | .revoke => True
  | .other _ => True

/-- A token to ask about: `did` issued every token of its chain of length `n`. -/
def probe (did audience : DID) (capability topic : List Capability) : Nat → Token
  | 0 => .root ⟨.invoke, did, .zero, audience, topic, capability, [], 0, 0, []⟩
  | n + 1 =>
    .link ⟨.invoke, did, .zero, audience, topic, capability, [], 0, 0, []⟩
      (probe did audience capability topic n)

section Probe

variable (did aud : DID) (caps ts : List Capability) (n : Nat)

@[simp] theorem probe_expire : (probe did aud caps ts n).expire = 0 := by cases n <;> rfl

@[simp] theorem probe_audience : (probe did aud caps ts n).audience = aud := by cases n <;> rfl

@[simp] theorem probe_capability : (probe did aud caps ts n).capability = caps := by
  cases n <;> rfl

@[simp] theorem probe_topic : (probe did aud caps ts n).topic = ts := by cases n <;> rfl

@[simp] theorem probe_anchor : (probe did aud caps ts n).anchor did = true := by
  cases n <;> simp [probe, anchor]

@[simp] theorem probe_anchorDepth : (probe did aud caps ts n).anchorDepth did = some n := by
  induction n with
  | zero => simp [probe, anchorDepth]
  | succ n ih => simp [probe, anchorDepth, ih]

end Probe

theorem audienceAllows_self (t : Token) : t.audienceAllows t.audience = true := by
  simp [audienceAllows]

theorem audienceAllows_congr (h : a.audience = b.audience) (audience : DID) :
    a.audienceAllows audience = b.audienceAllows audience := by
  simp [audienceAllows, h]

theorem allowAction_probe {t : Token} (hact : t.action = .delegate) {caps ts n} :
    t.allowAction (probe t.subject t.audience caps ts n) = true ↔
      t.expireBefore 0 = false ∧ withinDepth t.body n = true ∧
        Capability.allImplied t.capability caps = true ∧
        Capability.allImplied t.topic ts = true := by
  rw [allowAction_iff]
  simp [hact, audienceAllows_self]

theorem depthWider_of_withinDepth
    (h : ∀ n, withinDepth b.body n = true → withinDepth a.body n = true) : DepthWider a b := by
  simp only [withinDepth_iff] at h
  have hbeyond := h (a.depth + 1)
  unfold DepthWider depth at *
  omega

theorem withinDepth_of_depthWider (h : DepthWider a b) {n}
    (hb : withinDepth b.body n = true) : withinDepth a.body n = true := by
  rw [withinDepth_iff] at hb ⊢
  unfold DepthWider depth at h
  omega

theorem keepsRoot_of_anyImplies (h : ∀ c, Capability.anyImplies b.capability c = true →
      Capability.anyImplies a.capability c = true) : KeepsRoot a b :=
  (covers_iff.mpr h).2

theorem allImplied_singleton {granted c} :
    Capability.allImplied granted [c] = Capability.anyImplies granted c := by
  simp [allImplied]

section Necessary

variable {a b : Token}

theorem KeepsAuthority.invoke (h : KeepsAuthority a b) (hact : b.action = .invoke)
    (hnil : b.capability ≠ []) : a.action = .invoke ∧ KeepsRoot a b := by
  have hask : ∀ c, anyImplies b.capability c = true →
      a.allowInvocation b.subject b.audience c = true := fun c hc =>
    h.invocation _ _ c (allowInvocation_iff.mpr ⟨hact, rfl, b.audienceAllows_self, hc⟩)
  obtain ⟨c, hc⟩ := List.exists_mem_of_ne_nil _ hnil
  refine ⟨(allowInvocation_iff.mp (hask c (anyImplies_of_mem hc))).1, ?_⟩
  exact keepsRoot_of_anyImplies fun c hc => (allowInvocation_iff.mp (hask c hc)).2.2.2

theorem KeepsAuthority.broadcasts (h : KeepsAuthority a b) (hact : b.action = .broadcast)
    (haud : b.audience.empty = true) (htopic : b.topic ≠ []) (hnil : b.capability ≠ []) :
    a.action = .broadcast ∧ Capability.Covers a.topic b.topic ∧ KeepsRoot a b := by
  have hask : ∀ topic c, anyImplies b.topic topic = true → anyImplies b.capability c = true →
      a.allowBroadcast b.subject topic c = true := fun topic c ht hc =>
    h.broadcast _ topic c (allowBroadcast_iff.mpr ⟨hact, rfl, haud, ht, hc⟩)
  obtain ⟨c, hc⟩ := List.exists_mem_of_ne_nil _ hnil
  obtain ⟨topic, ht⟩ := List.exists_mem_of_ne_nil _ htopic
  have hc := anyImplies_of_mem hc
  have ht := anyImplies_of_mem ht
  refine ⟨(allowBroadcast_iff.mp (hask topic c ht hc)).1, ?_, ?_⟩
  · exact covers_iff.mpr fun topic' ht' =>
      (allowBroadcast_iff.mp (hask topic' c ht' hc)).2.2.2.1
  · exact keepsRoot_of_anyImplies fun c' hc' =>
      (allowBroadcast_iff.mp (hask topic c' ht hc')).2.2.2.2

theorem KeepsAuthority.delegates (h : KeepsAuthority a b) (hsub : Subsumption a b)
    (hact : b.action = .delegate) (hlive : b.expireBefore 0 = false) :
    a.action = .delegate ∧ DepthWider a b ∧ Capability.Covers a.topic b.topic ∧ KeepsRoot a b ∧
      (b.capability = [] ∨ ∀ n ∈ [1, 2], b.verifyDepth n = true → a.verifyDepth n = true) := by
  have hask : ∀ {caps ts n}, withinDepth b.body n = true → allImplied b.capability caps = true →
      allImplied b.topic ts = true →
      a.action = .delegate ∧ withinDepth a.body n = true ∧ allImplied a.capability caps = true ∧
        allImplied a.topic ts = true := by
    intro caps ts n hn hcaps htopics
    have hyes := h.action _ ((allowAction_probe hact).mpr ⟨hlive, hn, hcaps, htopics⟩)
    have haction := (allowAction_iff.mp hyes).1
    rw [← hsub.subject, ← hsub.audience, allowAction_probe haction] at hyes
    exact ⟨haction, hyes.2⟩
  have hnil : allImplied b.capability [] = true := rfl
  have hnil' : allImplied b.topic [] = true := rfl
  have hzero : withinDepth b.body 0 = true := withinDepth_iff.mpr (by omega)
  refine ⟨(hask hzero hnil hnil').1, ?_, ?_, ?_, ?_⟩
  · exact depthWider_of_withinDepth fun n hn => (hask hn hnil hnil').2.1
  · refine covers_iff.mpr fun topic ht => ?_
    rw [← allImplied_singleton] at ht ⊢
    exact (hask hzero hnil ht).2.2.2
  · refine keepsRoot_of_anyImplies fun c hc => ?_
    rw [← allImplied_singleton] at hc ⊢
    exact (hask hzero hc hnil').2.2.1
  by_cases hcap : b.capability = []
  · exact .inl hcap
  obtain ⟨c, hc⟩ := List.exists_mem_of_ne_nil _ hcap
  have hlink : b.allowDelegationLink b.subject b.audience [] 0 c = true :=
    allowDelegationLink_iff.mpr ⟨hact, hlive, rfl, b.audienceAllows_self, rfl, anyImplies_of_mem hc⟩
  have hmint : ∀ action, b.verifyDepth (mintDepth action) = true →
      a.verifyDepth (mintDepth action) = true := fun action hn =>
    (allowDelegation_iff.mp (h.delegation action _ _ _ _ c
      (allowDelegation_iff.mpr ⟨hn, hlink⟩))).1
  refine .inr ?_
  simp only [List.mem_cons, List.not_mem_nil, or_false, forall_eq_or_imp, forall_eq]
  exact ⟨hmint .invoke, hmint .delegate⟩

theorem KeepsAuthority.wider (h : KeepsAuthority a b) (hsub : Subsumption a b) : Wider a b := by
  unfold Wider
  split
  · next hact =>
    by_cases hnil : b.capability = []
    · exact .inl hnil
    · exact .inr (h.invoke hact hnil)
  · next hact =>
    by_cases haud : b.audience.empty = false
    · exact .inl haud
    by_cases htopic : b.topic = []
    · exact .inr (.inl htopic)
    by_cases hnil : b.capability = []
    · exact .inr (.inr (.inl hnil))
    · exact .inr (.inr (.inr (h.broadcasts hact (by simpa using haud) htopic hnil)))
  · next hact =>
    by_cases hlive : b.expireBefore 0 = true
    · exact .inl hlive
    · exact .inr (h.delegates hsub hact (by simpa using hlive))
  · trivial
  · trivial

end Necessary

section Sufficient

variable {a b : Token}

theorem keepsAuthority_of_action (hinvoke : b.action ≠ .invoke) (hbroadcast : b.action ≠ .broadcast)
    (hdelegate : b.action ≠ .delegate) : KeepsAuthority a b where
  invocation _ _ _ h := absurd (allowInvocation_iff.mp h).1 hinvoke
  broadcast _ _ _ h := absurd (allowBroadcast_iff.mp h).1 hbroadcast
  delegation _ _ _ _ _ _ h :=
    absurd (allowDelegationLink_iff.mp (allowDelegation_iff.mp h).2).1 hdelegate
  action _ h := absurd (allowAction_iff.mp h).1 hdelegate

theorem capability_ne_nil {c} (h : Capability.anyImplies b.capability c = true) :
    b.capability ≠ [] := by
  intro hnil
  simp [hnil, anyImplies] at h

theorem keepsAuthority_of_invoke (hsub : a.subsumes b = true) (hact : b.action = .invoke)
    (h : b.capability = [] ∨ (a.action = .invoke ∧ KeepsRoot a b)) : KeepsAuthority a b := by
  have hspec := subsumption_of_subsumes hsub
  refine ⟨?_, ?_, ?_, ?_⟩
  · intro subject audience c hb
    obtain ⟨_, hsubject, haudience, hcap⟩ := allowInvocation_iff.mp hb
    obtain ⟨ha, hroot⟩ := h.resolve_left (capability_ne_nil hcap)
    exact allowInvocation_iff.mpr ⟨ha, hspec.subject.trans hsubject,
      (audienceAllows_congr hspec.audience audience).trans haudience,
      covers_iff.mp ⟨hspec.capability, hroot⟩ c hcap⟩
  · intro _ _ _ hb
    simp [allowBroadcast_iff, hact] at hb
  · intro _ _ _ _ _ _ hb
    simp [allowDelegation_iff, allowDelegationLink_iff, hact] at hb
  · intro _ hb
    simp [allowAction_iff, hact] at hb

theorem keepsAuthority_of_broadcast (hsub : a.subsumes b = true) (hact : b.action = .broadcast)
    (h : b.audience.empty = false ∨ b.topic = [] ∨ b.capability = [] ∨
      (a.action = .broadcast ∧ Capability.Covers a.topic b.topic ∧ KeepsRoot a b)) :
    KeepsAuthority a b := by
  have hspec := subsumption_of_subsumes hsub
  refine ⟨?_, ?_, ?_, ?_⟩
  · intro _ _ _ hb
    simp [allowInvocation_iff, hact] at hb
  · intro subject topic c hb
    obtain ⟨_, hsubject, haudience, htopic, hcap⟩ := allowBroadcast_iff.mp hb
    have htopicne : b.topic ≠ [] := by
      intro hnil
      simp [hnil, anyImplies] at htopic
    obtain ⟨ha, hcovers, hroot⟩ := ((h.resolve_left (by simp [haudience])).resolve_left
      htopicne).resolve_left (capability_ne_nil hcap)
    refine allowBroadcast_iff.mpr ⟨ha, hspec.subject.trans hsubject, ?_,
      covers_iff.mp hcovers topic htopic,
      covers_iff.mp ⟨hspec.capability, hroot⟩ c hcap⟩
    rw [hspec.audience]
    exact haudience
  · intro _ _ _ _ _ _ hb
    simp [allowDelegation_iff, allowDelegationLink_iff, hact] at hb
  · intro _ hb
    simp [allowAction_iff, hact] at hb

theorem keepsAuthority_of_delegate (hsub : a.subsumes b = true) (hact : b.action = .delegate)
    (h : b.expireBefore 0 = true ∨
      (a.action = .delegate ∧ DepthWider a b ∧ Capability.Covers a.topic b.topic ∧ KeepsRoot a b ∧
        (b.capability = [] ∨ ∀ n ∈ [1, 2], b.verifyDepth n = true → a.verifyDepth n = true))) :
    KeepsAuthority a b := by
  have hspec := subsumption_of_subsumes hsub
  have hlive : ∀ {deadline}, b.expireBefore deadline = false → b.expireBefore 0 = false :=
    fun hb => expireBefore_mono (Nat.zero_le _) hb
  refine ⟨?_, ?_, ?_, ?_⟩
  · intro _ _ _ hb
    simp [allowInvocation_iff, hact] at hb
  · intro _ _ _ hb
    simp [allowBroadcast_iff, hact] at hb
  · intro action issuer audience ts expire c hb
    obtain ⟨hdepth, hlink⟩ := allowDelegation_iff.mp hb
    obtain ⟨_, hexp, hsubject, haudience, htopics, hcap⟩ := allowDelegationLink_iff.mp hlink
    obtain ⟨ha, _, hcovers, hroot, hmint⟩ := h.resolve_left (by simp [hlive hexp])
    refine allowDelegation_iff.mpr ⟨?_, allowDelegationLink_iff.mpr ⟨ha,
      expireBefore_of_subsumes hsub hexp, hspec.subject.trans hsubject,
      (audienceAllows_congr hspec.audience audience).trans haudience,
      hcovers.allImplied htopics, covers_iff.mp ⟨hspec.capability, hroot⟩ c hcap⟩⟩
    refine hmint.resolve_left (capability_ne_nil hcap) _ ?_ hdepth
    unfold mintDepth
    split <;> simp
  intro ot hb
  obtain ⟨_, hexp, hanchor, hdepth, haudience, hcap, htopic⟩ := allowAction_iff.mp hb
  obtain ⟨ha, hwider, hcovers, hroot, _⟩ := h.resolve_left (by simp [hlive hexp])
  rw [← hspec.subject] at hanchor hdepth
  exact allowAction_iff.mpr ⟨ha, expireBefore_of_subsumes hsub hexp, hanchor,
    fun depth hd => withinDepth_of_depthWider hwider (hdepth depth hd),
    (audienceAllows_congr hspec.audience ot.audience).trans haudience,
    Capability.Covers.allImplied ⟨hspec.capability, hroot⟩ hcap, hcovers.allImplied htopic⟩

theorem Wider.keepsAuthority (h : Wider a b) (hsub : a.subsumes b = true) : KeepsAuthority a b := by
  unfold Wider at h
  split at h
  · next hact => exact keepsAuthority_of_invoke hsub hact h
  · next hact => exact keepsAuthority_of_broadcast hsub hact h
  · next hact => exact keepsAuthority_of_delegate hsub hact h
  · next hact => exact keepsAuthority_of_action (by simp [hact]) (by simp [hact]) (by simp [hact])
  · next hact => exact keepsAuthority_of_action (by simp [hact]) (by simp [hact]) (by simp [hact])

end Sufficient

theorem KeepsAuthority.refl (t : Token) : KeepsAuthority t t :=
  ⟨fun _ _ _ h => h, fun _ _ _ h => h, fun _ _ _ _ _ _ h => h, fun _ h => h⟩

end Token

namespace Context

open Token

theorem mem_consumeAnchorToken {s} {ctx : Context} (t : Token) {b key} (hb : b ∈ ctx.held s key) :
    b ∈ (consumeAnchorToken s ctx t).held s key ∨
      (key = t.issuer ∧ t.subsumes b = true ∧ t ∈ (consumeAnchorToken s ctx t).held s key) := by
  rcases consumeAnchorToken_cases s ctx t with ⟨_, heq⟩ | ⟨_, heq⟩
  · rw [heq]
    exact .inl hb
  rw [heq, held_setHeld]
  by_cases hkey : key = t.issuer
  · subst hkey
    cases hsub : t.subsumes b with
    | true => exact .inr ⟨rfl, rfl, by simp⟩
    | false => exact .inl (by simp [hb, hsub])
  · rw [if_neg (fun h => hkey h.2)]
    exact .inl hb

theorem mem_consumeAnchorToken_self (s : Shelf) (ctx : Context) (t : Token) :
    t ∈ (consumeAnchorToken s ctx t).held s t.issuer ∨
      ∃ ot ∈ (consumeAnchorToken s ctx t).held s t.issuer, ot.subsumes t = true := by
  rcases consumeAnchorToken_cases s ctx t with ⟨⟨ot, hot, hsub⟩, heq⟩ | ⟨_, heq⟩
  · rw [heq]
    exact .inr ⟨ot, hot, hsub⟩
  left
  rw [heq, held_setHeld]
  simp

end Context

/-- A token answers every question that a token it subsumes answers exactly when it is wider in
the fields that `Subsumes` does not compare. Where the compared tokens are wider, taking `a` in
loses no authority. -/
theorem subsumes_keepsAuthority_iff (a b : Token) :
    (a.subsumes b = true → (a.KeepsAuthority b ↔ a.Wider b)) ∧ ∀ (s : Shelf) (ctx : Context),
      (∀ ot ∈ ctx.held s a.issuer, (a.subsumes ot = true → a.Wider ot) ∧
        (ot.subsumes a = true → ot.Wider a)) → (∀ key, ∀ t ∈ ctx.held s key,
        ∃ u ∈ (Context.consumeAnchorToken s ctx a).held s key, u.KeepsAuthority t) ∧
      ∃ u ∈ (Context.consumeAnchorToken s ctx a).held s a.issuer, u.KeepsAuthority a := by
  constructor
  · intro hsub
    exact ⟨fun h => h.wider (Token.subsumption_of_subsumes hsub), fun h => h.keepsAuthority hsub⟩
  intro s ctx hwider
  constructor
  · intro key t ht
    rcases Context.mem_consumeAnchorToken a ht with hkept | ⟨rfl, hsub, ha⟩
    · exact ⟨t, hkept, .refl t⟩
    · exact ⟨a, ha, ((hwider t ht).1 hsub).keepsAuthority hsub⟩
  rcases Context.mem_consumeAnchorToken_self s ctx a with ha | ⟨ot, hot, hsub⟩
  · exact ⟨a, ha, .refl a⟩
  rcases Context.mem_held_consumeAnchorToken hot with hold | ⟨_, _, rfl⟩
  · exact ⟨ot, hot, ((hwider ot hold).2 hsub).keepsAuthority hsub⟩
  · exact ⟨ot, hot, .refl ot⟩

/-- Three delegations of `did:a` to `did:c`: with a topic, without one and for
longer, and for a narrower capability. -/
def topicGrant : Token :=
  .sealed (.root ⟨.delegate, ⟨ascii "did:a"⟩, ⟨ascii "did:c"⟩, .zero, [⟨ascii "/news"⟩],
    [⟨ascii "/dms"⟩], [1], 20, 0, []⟩)

def plainGrant : Token :=
  .sealed (.root ⟨.delegate, ⟨ascii "did:a"⟩, ⟨ascii "did:c"⟩, .zero, [], [⟨ascii "/dms"⟩], [2], 30,
    0, []⟩)

def nodeGrant : Token :=
  .sealed (.root ⟨.delegate, ⟨ascii "did:a"⟩, ⟨ascii "did:c"⟩, .zero, [], [⟨ascii "/dms/node"⟩],
    [3], 20, 2, []⟩)

theorem plainGrant_keepsAuthority : plainGrant.KeepsAuthority nodeGrant :=
  ((subsumes_keepsAuthority_iff plainGrant nodeGrant).1 (by decide)).mpr (.inr
    ⟨by decide, .inl (by decide), by decide, fun h => absurd h (by decide), .inr (by decide)⟩)

/-- The plain grant subsumes the one with the topic, and it drives it out of the
provide tokens; the topic can no longer be broadcast on. -/
theorem plainGrant_loses_topic : plainGrant.subsumes topicGrant = true ∧
      topicGrant.allowDelegation .broadcast ⟨ascii "did:c"⟩ .zero [⟨ascii "/news"⟩] 10
        ⟨ascii "/dms"⟩ = true ∧
      plainGrant.allowDelegation .broadcast ⟨ascii "did:c"⟩ .zero [⟨ascii "/news"⟩] 10
        ⟨ascii "/dms"⟩ = false ∧
      ((((sampleContext ⟨ascii "did:c"⟩).addRoots (samplePlatform fun _ => .ok []) (sampleCall 5) []
        [] [topicGrant] []).1.addRoots (samplePlatform fun _ => .ok []) (sampleCall 6) [] []
        [plainGrant] []).1.held .provide ⟨ascii "did:a"⟩ = [plainGrant]) := by
  refine ⟨by decide, by decide, by decide, by decide⟩

end DMS.Ucan
