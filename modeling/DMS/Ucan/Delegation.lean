import DMS.Ucan.Effects

/-! # Minting tokens

`Grant`, `Revoke`, `Delegate`, `DelegateInvocation` and `DelegateBroadcast` of a
context. The three delegation operations run the same loop over the tokens they
may chain on and differ in what they ask for, which is a `Minting`.
-/

namespace DMS.Ucan

open Did Outcome List

namespace Token

def withSignature (sig : GoString) : Token → Token
  | .foreign => .foreign
  | .root b => .root { b with signature := sig }
  | .link b chain => .link { b with signature := sig } chain

/-- Sign the encoded token; `text` is the wrapping of an encoder error. -/
def sign (p : Platform) (provider : Provider) (text : String) (t : Token) : Result Token :=
  ((t.signatureData p).mapError (GoError.wrap text)).bind fun data =>
    (wrapLibrary "sign" (provider.sign data)).map fun sig => t.withSignature sig

end Token

/-- What one of the delegation operations asks for. The expiry may depend on the
token that is chained on. -/
structure Minting where
  action : Action
  subject : DID
  audience : DID
  topics : List Capability
  expire : Token → Nat
  depth : Nat
  provide : List Capability

namespace Minting

/-- What `Delegate` asks for: no expiry of its own means the expiry of the chain. -/
def delegation (subject audience : DID) (topics : List GoString) (expire depth : Nat)
    (provide : List Capability) : Minting :=
  ⟨.delegate, subject, audience, topics.map Capability.mk,
    fun t => if expire = 0 then t.expire else expire, depth, provide⟩

def invocation (subject audience : DID) (expire : Nat) (provide : List Capability) : Minting :=
  ⟨.invoke, subject, audience, [], fun _ => expire, 0, provide⟩

def broadcast (subject : DID) (topic : GoString) (expire : Nat) (provide : List Capability) :
    Minting :=
  ⟨.broadcast, subject, .zero, [⟨topic⟩], fun _ => expire, 0, provide⟩

/-- The fields of the token that is put on top of `chain`. -/
def body (m : Minting) (issuer : DID) (nonce : GoString) (chain : Token) : TokenBody :=
  ⟨m.action, issuer, m.subject, m.audience, m.topics, m.provide, nonce, m.expire chain, m.depth, []⟩

/-- `delegate` of a DMS token, under the error text of the envelope. -/
def delegate (p : Platform) (provider : Provider) (m : Minting)
    (nonce : Except GoString GoString) (t : Token) : Result Token :=
  match t.body? with
  | none => .error (.new .badToken)
  | some _ =>
    Except.mapError (GoError.wrap "delegate invocation") <|
      if t.action ≠ .delegate then .error (.new .notAuthorized)
      else if !t.verifyDepth (Token.mintDepth m.action) then .error (.new .notAuthorized)
      else
        (wrapLibrary "nonce" nonce).bind fun nonce =>
          (Token.link (m.body provider.did nonce t) t).sign p provider "delegate"

/-- The capabilities that may be chained on `t`. -/
def providing (m : Minting) (issuer anchor : DID) (t : Token) : List Capability :=
  m.provide.filter fun c =>
    t.anchor anchor && t.allowDelegation m.action issuer m.audience m.topics (m.expire t) c

/-- The loop over the tokens of one anchor, with the number of reads of random bytes. A token that
allows only a part of what is asked for, or fails to be signed, is passed over. -/
def delegateFrom (p : Platform) (call : Call) (provider : Provider) (m : Minting) (anchor : DID) :
    List Token → Nat → List Token × Nat
  | [], n => ([], n)
  | t :: ts, n =>
    let providing := m.providing provider.did anchor t
    if providing = [] then delegateFrom p call provider m anchor ts n
    else if providing.length < m.provide.length then delegateFrom p call provider m anchor ts n
    else
      let (more, n') := delegateFrom p call provider m anchor ts (n + 1)
      match ({ m with provide := providing } : Minting).delegate p provider (call.rand n) t with
      | .error _ => (more, n')
      | .ok token => (token :: more, n')

end Minting

inductive SelfSign
  | no
  | also
  | only
deriving DecidableEq, Repr

namespace Context

def grant (p : Platform) (nonce : Except GoString GoString) (action : Action)
    (subject audience : DID) (topics : List Capability) (expire depth : Nat)
    (provide : List Capability) (ctx : Context) : Result Token :=
  (wrapLibrary "nonce" nonce).bind fun nonce =>
    (Token.root
      ⟨action, ctx.did, subject, audience, topics, provide, nonce, expire, depth, []⟩).sign
      p ctx.provider "grant"

/-- `Revoke`: a revocation with the key, the expiry and the capabilities of the token. -/
def revokeToken (p : Platform) (token : Token) (ctx : Context) : Result Token :=
  if !ctx.did.equal token.issuer then .error (.new .notAuthorized)
  else
    (Token.root
      ⟨.revoke, token.issuer, token.subject, .zero, [], token.capability, token.nonce,
        token.expire, 0, []⟩).sign p ctx.provider "revoke"

def delegateProvided (p : Platform) (call : Call) (m : Minting) :
    List DID → Context → Nat → List Token × Context × Nat
  | [], ctx, n => ([], ctx, n)
  | anchor :: rest, ctx, n =>
    let (tokenList, ctx) := ctx.getProvideTokens call.now anchor
    let (tokens, n) := m.delegateFrom p call ctx.provider anchor tokenList n
    let (more, ctx, n) := delegateProvided p call m rest ctx n
    (tokens ++ more, ctx, n)

/-- The provide anchors are passed over when only a self-signed token is wanted. -/
def chained (p : Platform) (call : Call) (m : Minting) (selfSign : SelfSign) (ctx : Context)
    (n : Nat) : List Token × Context × Nat :=
  if selfSign = .only then ([], ctx, n)
  else delegateProvided p call m (ctx.getProvideAnchors call) ctx n

/-- What follows the loops: nothing to give without self-signing is an error, and
a self-signed token comes last. -/
def selfSigned (p : Platform) (call : Call) (m : Minting) (expire : Nat) (text : String)
    (selfSign : SelfSign) (result : List Token) (n : Nat) (ctx : Context) :
    Context × Result (List Token) :=
  if selfSign = .no then
    (ctx, if result = [] then .error (.new .notAuthorized) else .ok result)
  else
    (ctx, ((grant p (call.rand n) m.action m.subject m.audience m.topics expire m.depth m.provide
      ctx).mapError (GoError.wrap text)).map fun token => result ++ [token])

def delegate (p : Platform) (call : Call) (subject audience : DID) (topics : List GoString)
    (expire depth : Nat) (provide : List Capability) (selfSign : SelfSign) (ctx : Context) :
    Context × Result (List Token) :=
  if provide = [] then (ctx, .ok [])
  else
    let m := Minting.delegation subject audience topics expire depth provide
    let (result, ctx, n) := chained p call m selfSign ctx 0
    selfSigned p call m expire "error granting invocation" selfSign result n ctx

def delegateInvocation (p : Platform) (call : Call) (target subject audience : DID) (expire : Nat)
    (provide : List Capability) (selfSign : SelfSign) (ctx : Context) :
    Context × Result (List Token) :=
  if provide = [] then (ctx, .ok [])
  else
    let m := Minting.invocation subject audience expire provide
    let (tokenList, ctx) := ctx.getSubjectTokens call.now ctx.did
    let (own, n) := m.delegateFrom p call ctx.provider target tokenList 0
    let (provided, ctx, n) := chained p call m selfSign ctx n
    selfSigned p call m expire "error granting invocation" selfSign (own ++ provided) n ctx

def delegateBroadcast (p : Platform) (call : Call) (subject : DID) (topic : GoString)
    (expire : Nat) (provide : List Capability) (selfSign : SelfSign) (ctx : Context) :
    Context × Result (List Token) :=
  if provide = [] then (ctx, .ok [])
  else
    let m := Minting.broadcast subject topic expire provide
    let (result, ctx, n) := chained p call m selfSign ctx 0
    selfSigned p call m expire "error granting broadcast" selfSign result n ctx

theorem delegateProvided_sheds (p : Platform) (call : Call) (m : Minting) (anchors : List DID)
    (ctx : Context) (n : Nat) : Sheds ctx (delegateProvided p call m anchors ctx n).2.1 := by
  induction anchors generalizing ctx n with
  | nil => exact Sheds.refl ctx
  | cons anchor rest ih =>
    have hread : Sheds ctx (ctx.getProvideTokens call.now anchor).2 :=
      getTokens_sheds call.now .provide anchor ctx
    exact hread.trans (ih _ _)

theorem chained_sheds (p : Platform) (call : Call) (m : Minting) (sign : SelfSign)
    (ctx : Context) (n : Nat) : Sheds ctx (chained p call m sign ctx n).2.1 := by
  unfold chained
  split
  · exact Sheds.refl ctx
  · exact delegateProvided_sheds ..

theorem selfSigned_fst (p : Platform) (call : Call) (m : Minting) (exp : Nat) (text : String)
    (sign : SelfSign) (r : List Token) (n : Nat) (ctx : Context) :
    (selfSigned p call m exp text sign r n ctx).1 = ctx := by
  unfold selfSigned
  split <;> rfl

theorem delegate_sheds (p : Platform) (call : Call) (sub aud : DID)
    (ts : List GoString) (exp depth : Nat) (prov : List Capability) (sign : SelfSign)
    (ctx : Context) : Sheds ctx (delegate p call sub aud ts exp depth prov sign ctx).1 := by
  unfold delegate
  split
  · exact Sheds.refl ctx
  rw [selfSigned_fst]
  exact chained_sheds ..

theorem delegateInvocation_sheds (p : Platform) (call : Call) (target sub aud : DID)
    (exp : Nat) (prov : List Capability) (sign : SelfSign) (ctx : Context) : Sheds ctx
      (delegateInvocation p call target sub aud exp prov sign ctx).1 := by
  have hread : Sheds ctx (ctx.getSubjectTokens call.now ctx.did).2 :=
    getTokens_sheds call.now .subject ctx.did ctx
  unfold delegateInvocation
  split
  · exact Sheds.refl ctx
  rw [selfSigned_fst]
  exact hread.trans (chained_sheds ..)

theorem delegateBroadcast_sheds (p : Platform) (call : Call) (sub : DID) (topic : GoString)
    (exp : Nat) (prov : List Capability) (sign : SelfSign) (ctx : Context) :
    Sheds ctx (delegateBroadcast p call sub topic exp prov sign ctx).1 := by
  unfold delegateBroadcast
  split
  · exact Sheds.refl ctx
  rw [selfSigned_fst]
  exact chained_sheds ..

end Context

/-- The loop put `token` on top of `t`: all that was asked for was allowed. -/
structure Minting.Mints (p : Platform) (call : Call) (provider : Provider) (m : Minting)
    (t token : Token) : Prop where
  nonempty : m.provide ≠ []
  allowed : ∀ c ∈ m.provide,
    t.allowDelegation m.action provider.did m.audience m.topics (m.expire t) c = true
  minted : ∃ n, m.delegate p provider (call.rand n) t = .ok token

/-- The context granted `token` by itself. -/
def Context.Grants (p : Platform) (call : Call) (m : Minting) (expire : Nat) (selfSign : SelfSign)
    (ctx : Context) (token : Token) : Prop :=
  selfSign ≠ .no ∧ ∃ n, ctx.grant p (call.rand n) m.action m.subject m.audience m.topics expire
    m.depth m.provide = .ok token

variable {p : Platform} {pr : Provider} {t token : Token} {m : Minting} {call : Call}

theorem Token.sign_eq_ok {text t'} (h : t.sign p pr text = .ok t') :
    ∃ data sig, t.signatureData p = .ok data ∧ pr.sign data = .ok sig ∧
      t' = t.withSignature sig := by
  obtain ⟨data, hdata, hmap⟩ := bind_eq_ok.mp h
  cases hsig : pr.sign data with
  | error e => simp [hsig, wrapLibrary, Except.mapError, Except.map] at hmap
  | ok sig =>
    simp only [hsig, wrapLibrary, Except.mapError, Except.map, Except.ok.injEq] at hmap
    exact ⟨data, sig, mapError_eq_ok.mp hdata, hsig, hmap.symm⟩

theorem Minting.delegate_eq_ok {nonce} (h : m.delegate p pr nonce t = .ok token) :
    ∃ bytes, nonce = .ok bytes ∧
      (Token.link (m.body pr.did bytes t) t).sign p pr "delegate" = .ok token := by
  unfold delegate at h
  split at h
  · simp at h
  have h := mapError_eq_ok.mp h
  simp only [ite_error_eq_ok, bind_eq_ok, wrapLibrary_eq_ok] at h
  exact h.2.2

theorem Minting.Mints.chain (h : m.Mints p call pr t token) :
    t.action = .delegate ∧ token.chain? = some t := by
  obtain ⟨c, hc⟩ := exists_mem_of_ne_nil _ h.nonempty
  obtain ⟨_, hallow⟩ := Token.allowDelegation_iff.mp (h.allowed c hc)
  obtain ⟨n, hmint⟩ := h.minted
  obtain ⟨_, _, hsign⟩ := delegate_eq_ok hmint
  obtain ⟨_, _, _, _, rfl⟩ := Token.sign_eq_ok hsign
  exact ⟨(Token.allowDelegationLink_iff.mp hallow).1, rfl⟩

variable {exp : Nat}

theorem Context.Grants.chain {sign} {ctx : Context}
    (h : ctx.Grants p call m exp sign token) : token.chain? = none := by
  obtain ⟨_, n, hgrant⟩ := h
  obtain ⟨_, _, hsign⟩ := bind_eq_ok.mp hgrant
  obtain ⟨_, _, _, _, rfl⟩ := Token.sign_eq_ok hsign
  rfl

theorem Minting.mem_delegateFrom {anchor ts n}
    (h : token ∈ (m.delegateFrom p call pr anchor ts n).1) :
    ∃ t ∈ ts, m.Mints p call pr t token := by
  induction ts generalizing n with
  | nil => simp [delegateFrom] at h
  | cons t ts ih =>
    have hrest : ∀ {n}, token ∈ (m.delegateFrom p call pr anchor ts n).1 →
        ∃ u ∈ t :: ts, m.Mints p call pr u token := by
      intro n h
      obtain ⟨u, hu, hmints⟩ := ih h
      exact ⟨u, by simp [hu], hmints⟩
    unfold delegateFrom at h
    dsimp only at h
    split at h
    · exact hrest h
    next hsome =>
    split at h
    · exact hrest h
    next hlen =>
    -- nothing was filtered out, so the request is provided as a whole
    have hall : m.providing pr.did anchor t = m.provide := by
      apply filter_sublist.eq_of_length
      have hle := length_filter_le (fun c => t.anchor anchor &&
        t.allowDelegation m.action pr.did m.audience m.topics (m.expire t) c) m.provide
      unfold providing at hlen
      omega
    rw [hall] at h hsome
    split at h
    · exact hrest h
    rename_i token' hmint
    rcases mem_cons.mp h with rfl | h
    · refine ⟨t, by simp, hsome, ?_, n, hmint⟩
      intro c hc
      rw [← hall] at hc
      have htest := (mem_filter.mp hc).2
      exact (Bool.and_eq_true_iff.mp htest).2
    · exact hrest h

namespace Context

variable {p : Platform} {call : Call} {ctx : Context} {m : Minting} {token : Token}
  {tokens : List Token}

theorem mem_delegateProvided {anchors n} (h : token ∈ (delegateProvided p call m anchors ctx n).1) :
    ∃ key, ∃ t ∈ ctx.held .provide key, m.Mints p call ctx.provider t token := by
  induction anchors generalizing ctx n with
  | nil => simp [delegateProvided] at h
  | cons anchor rest ih =>
    have hread : Sheds ctx (ctx.getProvideTokens call.now anchor).2 :=
      getTokens_sheds call.now .provide anchor ctx
    simp only [delegateProvided] at h
    rcases mem_append.mp h with h | h
    · rw [hread.provider] at h
      obtain ⟨t, ht, hmints⟩ := Minting.mem_delegateFrom h
      exact ⟨anchor, t, (mem_getTokens.mp ht).1, hmints⟩
    obtain ⟨key, t, ht, hmints⟩ := ih h
    rw [hread.provider] at hmints
    exact ⟨key, t, hread.mem ht, hmints⟩

/-- A token that follows from the loops over the provide anchors was listed before,
was put on a provide token or was granted. -/
theorem mem_selfSigned (own : List Token) {n text sign}
    (h : (selfSigned p call m exp text sign (own ++ (chained p call m sign ctx n).1)
      (chained p call m sign ctx n).2.2 (chained p call m sign ctx n).2.1).2 = .ok tokens)
    (ht : token ∈ tokens) :
    token ∈ own ∨ (∃ key, ∃ t ∈ ctx.held .provide key, m.Mints p call ctx.provider t token) ∨
      ctx.Grants p call m exp sign token := by
  have hsheds := chained_sheds p call m sign ctx n
  have hlisted : token ∈ own ++ (chained p call m sign ctx n).1 →
      token ∈ own ∨ ∃ key, ∃ t ∈ ctx.held .provide key, m.Mints p call ctx.provider t token := by
    intro ht
    rcases mem_append.mp ht with ht | ht
    · exact .inl ht
    unfold chained at ht
    split at ht
    · simp at ht
    · exact .inr (mem_delegateProvided ht)
  unfold selfSigned at h
  split at h
  · simp only [ite_error_eq_ok, Except.ok.injEq] at h
    rw [← h.2] at ht
    exact (hlisted ht).imp_right .inl
  rename_i hself
  generalize hgrant : grant p (call.rand (chained p call m sign ctx n).2.2) m.action
    m.subject m.audience m.topics exp m.depth m.provide
    (chained p call m sign ctx n).2.1 = granted at h
  have hctx : ctx.grant p (call.rand (chained p call m sign ctx n).2.2) m.action m.subject
      m.audience m.topics exp m.depth m.provide = granted := by
    rw [← hgrant]
    unfold grant did
    rw [hsheds.provider]
  cases granted with
  | error e => simp [Except.mapError, Except.map] at h
  | ok last =>
    simp only [Except.mapError, Except.map, Except.ok.injEq] at h
    subst h
    rcases mem_append.mp ht with ht | ht
    · exact (hlisted ht).imp_right .inl
    · obtain rfl : token = last := by simpa using ht
      exact .inr (.inr ⟨hself, _, hctx⟩)

section Operations

variable {sub aud : DID} {prov : List Capability} {sign : SelfSign}

theorem mem_delegate {ts depth} (h : (delegate p call sub aud ts exp depth prov sign ctx).2 =
      .ok tokens) (ht : token ∈ tokens) :
    (∃ key, ∃ t ∈ ctx.held .provide key, (Minting.delegation sub aud ts exp depth
      prov).Mints p call ctx.provider t token) ∨
    ctx.Grants p call (Minting.delegation sub aud ts exp depth prov) exp
      sign token := by
  unfold delegate at h
  split at h
  · obtain rfl : [] = tokens := by simpa using h
    simp at ht
  exact (mem_selfSigned [] h ht).resolve_left not_mem_nil

theorem mem_delegateInvocation {target}
    (h : (delegateInvocation p call target sub aud exp prov sign ctx).2 =
      .ok tokens) (ht : token ∈ tokens) : (∃ t ∈ ctx.held .subject ctx.did,
      (Minting.invocation sub aud exp prov).Mints p call ctx.provider t token) ∨
    (∃ key, ∃ t ∈ ctx.held .provide key,
      (Minting.invocation sub aud exp prov).Mints p call ctx.provider t token) ∨
    ctx.Grants p call (Minting.invocation sub aud exp prov) exp sign
      token := by
  unfold delegateInvocation at h
  split at h
  · obtain rfl : [] = tokens := by simpa using h
    simp at ht
  have hread : Sheds ctx (ctx.getSubjectTokens call.now ctx.did).2 :=
    getTokens_sheds call.now .subject ctx.did ctx
  have hlist : ∀ t ∈ (ctx.getSubjectTokens call.now ctx.did).1, t ∈ ctx.held .subject ctx.did :=
    fun t ht => (mem_getTokens.mp ht).1
  generalize ctx.getSubjectTokens call.now ctx.did = read at h hread hlist
  rcases mem_selfSigned _ h ht with hown | ⟨key, t, hheld, hmints⟩ | ⟨hself, n, hgrant⟩
  · obtain ⟨t, hmem, hmints⟩ := Minting.mem_delegateFrom hown
    rw [hread.provider] at hmints
    exact .inl ⟨t, hlist t hmem, hmints⟩
  · rw [hread.provider] at hmints
    exact .inr (.inl ⟨key, t, hread.mem hheld, hmints⟩)
  unfold grant did at hgrant
  rw [hread.provider] at hgrant
  exact .inr (.inr ⟨hself, n, hgrant⟩)

theorem mem_delegateBroadcast {topic}
    (h : (delegateBroadcast p call sub topic exp prov sign ctx).2 = .ok tokens)
    (ht : token ∈ tokens) : (∃ key, ∃ t ∈ ctx.held .provide key,
      (Minting.broadcast sub topic exp prov).Mints p call ctx.provider t token) ∨
    ctx.Grants p call (Minting.broadcast sub topic exp prov) exp sign token := by
  unfold delegateBroadcast at h
  split at h
  · obtain rfl : [] = tokens := by simpa using h
    simp at ht
  exact (mem_selfSigned [] h ht).resolve_left not_mem_nil

end Operations

end Context

end DMS.Ucan
