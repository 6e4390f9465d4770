import DMS.Ucan.Verify

/-! # The basic capability context

State and operations of `lib/ucan/context.go`. An operation is a function of the state before it
and of a `Call`: the clock, the order of its `range` loops and the random bytes. One that can fail
returns the state it leaves behind next to its result.
-/

namespace DMS.Ucan

open Did

abbrev TokenMap := GoMap DID (List Token)

structure Context where
  name : GoString
  provider : Provider
  roots : GoMap DID Unit
  require : TokenMap
  provide : TokenMap
  tokens : TokenMap
  revoke : RevocationSet

/-- `rand n` is the outcome of the `n`-th read of random bytes in the call. -/
structure Call where
  now : Nat
  order : RangeOrder
  rand : Nat → Except GoString GoString

inductive Shelf
  | require
  | provide
  | subject
deriving DecidableEq, Repr

namespace Context

def did (ctx : Context) : DID := ctx.provider.did

def shelf (ctx : Context) : Shelf → TokenMap
  | .require => ctx.require
  | .provide => ctx.provide
  | .subject => ctx.tokens

def setShelf (ctx : Context) (m : TokenMap) : Shelf → Context
  | .require => { ctx with require := m }
  | .provide => { ctx with provide := m }
  | .subject => { ctx with tokens := m }

def held (ctx : Context) (s : Shelf) (key : DID) : List Token := (ctx.shelf s).list key

def setHeld (ctx : Context) (s : Shelf) (key : DID) (l : List Token) : Context :=
  ctx.setShelf ((ctx.shelf s).insert key l) s

def getTokens (now : Nat) (s : Shelf) (key : DID) (ctx : Context) : List Token × Context :=
  match (ctx.shelf s).lookup key with
  | none => ([], ctx)
  | some tokenList =>
    let result := tokenList.filter fun t => !t.expireBefore now
    (result, ctx.setHeld s key result)

def getRequireTokens (now : Nat) (anchor : DID) (ctx : Context) : List Token × Context :=
  getTokens now .require anchor ctx

def getProvideTokens (now : Nat) (anchor : DID) (ctx : Context) : List Token × Context :=
  getTokens now .provide anchor ctx

def getSubjectTokens (now : Nat) (subject : DID) (ctx : Context) : List Token × Context :=
  getTokens now .subject subject ctx

def getRoots (call : Call) (ctx : Context) : List DID := call.order.visit ctx.roots.keys

def getRequireAnchors (call : Call) (ctx : Context) : List DID := call.order.visit ctx.require.keys

def getProvideAnchors (call : Call) (ctx : Context) : List DID := call.order.visit ctx.provide.keys

/-- The loop over the tokens already listed: nothing is stored when one of them
subsumes `t`, and the ones `t` subsumes are left out. -/
def consumeAnchorLoop (t : Token) : List Token → List Token → Option (List Token)
  | [], result => some (result ++ [t])
  | ot :: rest, result =>
    if ot.subsumes t then none
    else if t.subsumes ot then consumeAnchorLoop t rest result
    else consumeAnchorLoop t rest (result ++ [ot])

def consumeAnchorToken (s : Shelf) (ctx : Context) (t : Token) : Context :=
  match consumeAnchorLoop t (ctx.held s t.issuer) [] with
  | none => ctx
  | some result => ctx.setHeld s t.issuer result

def consumeRequireToken (ctx : Context) (t : Token) : Context := consumeAnchorToken .require ctx t

def consumeProvideToken (ctx : Context) (t : Token) : Context := consumeAnchorToken .provide ctx t

def consumeSubjectToken (ctx : Context) (t : Token) : Context :=
  ctx.setHeld .subject t.subject (ctx.held .subject t.subject ++ [t])

def consumeRevokeToken (ctx : Context) (t : Token) : Context :=
  { ctx with revoke := ctx.revoke.insert t.revocationKey t }

/-- The unexported `addRoots`. -/
def insertRoots (roots : List DID) (ctx : Context) : Context :=
  { ctx with roots := roots.foldl (fun m root => m.insert root ()) ctx.roots }

/-- One of the three loops of `AddRoots`. -/
def takeAll (check : Context → Token → Result Unit) (take : Context → Token → Context) :
    List Token → Context → Context × Result Unit
  | [], ctx => (ctx, .ok ())
  | t :: ts, ctx =>
    match check ctx t with
    | .error e => (ctx, .error (e.wrap "verify token"))
    | .ok _ => takeAll check take ts (take ctx t)

def checkToken (p : Platform) (now : Nat) (ctx : Context) (t : Token) : Result Unit :=
  t.verify p now ctx.revoke

def checkRevocation (p : Platform) (now : Nat) (ctx : Context) (t : Token) : Result Unit :=
  if t.action ≠ .revoke then .error (.new .badToken) else checkToken p now ctx t

/-- The read and the write-back of one list in `cleanUpTokens`. -/
def cleanUpList (p : Platform) (now : Nat) (s : Shelf) (ctx : Context) (anchor : DID) : Context :=
  let (tokenList, ctx) := getTokens now s anchor ctx
  ctx.setHeld s anchor (tokenList.filter fun t => decide (t.verify p now ctx.revoke = .ok ()))

def cleanUpSubjects (p : Platform) (call : Call) (ctx : Context) : Context := { ctx with
    tokens := GoMap.rangeUpdate
      (fun _ l => some (l.filter fun t => decide (t.verify p call.now ctx.revoke = .ok ())))
      (call.order.visit ctx.tokens.keys) ctx.tokens }

def cleanUpTokens (p : Platform) (call : Call) (ctx : Context) : Context :=
  let ctx := (ctx.getRequireAnchors call).foldl (cleanUpList p call.now .require) ctx
  let ctx := (ctx.getProvideAnchors call).foldl (cleanUpList p call.now .provide) ctx
  ctx.cleanUpSubjects p call

/-- Go on from the state a step left, unless the step returned an error. -/
def andThen (step : Context × Result Unit) (next : Context → Context × Result Unit) :
    Context × Result Unit :=
  match step.2 with
  | .error e => (step.1, .error e)
  | .ok _ => next step.1

def addRoots (p : Platform) (call : Call) (roots : List DID) (require provide revoke : List Token)
    (ctx : Context) : Context × Result Unit :=
  andThen
    (takeAll (checkRevocation p call.now) consumeRevokeToken revoke (ctx.insertRoots roots))
    fun ctx => andThen (takeAll (checkToken p call.now) consumeRequireToken require ctx)
    fun ctx => andThen (takeAll (checkToken p call.now) consumeProvideToken provide ctx)
    fun ctx => (ctx.cleanUpTokens p call, .ok ())

def blank (name : GoString) (provider : Provider) : Context := ⟨name, provider, ∅, ∅, ∅, ∅, ∅⟩

def newCapabilityContext (p : Platform) (call : Call) (name : GoString) (ctxDID : DID)
    (roots : List DID) (require provide revoke : List Token) : Result Context :=
  (wrapLibrary "new capability context" (p.trust.getProvider ctxDID)).bind fun provider =>
    let (ctx, result) := addRoots p call roots require provide revoke (blank name provider)
    (result.mapError (GoError.wrap "new capability context")).map fun _ => ctx

def removeAnchorToken (s : Shelf) (ctx : Context) (t : Token) : Context :=
  match (ctx.shelf s).lookup t.issuer with
  | none => ctx
  | some tokenList =>
    let tokenList := tokenList.filter fun ot => !decide (t.nonce = ot.nonce)
    if tokenList = [] then ctx.setShelf ((ctx.shelf s).erase t.issuer) s
    else ctx.setHeld s t.issuer tokenList

def removeRevocation (ctx : Context) (t : Token) : Context :=
  { ctx with revoke := ctx.revoke.erase t.revocationKey }

def removeRoots (trust : List DID) (require provide revoke : List Token) (ctx : Context) :
    Context :=
  let ctx := { ctx with roots := trust.foldl (fun m root => m.erase root) ctx.roots }
  let ctx := require.foldl (removeAnchorToken .require) ctx
  let ctx := provide.foldl (removeAnchorToken .provide) ctx
  revoke.foldl removeRevocation ctx

structure Roots where
  roots : List DID
  require : List Token
  provide : List Token
  revoke : List Token

def gather (now : Nat) (s : Shelf) : List DID → Context → List Token × Context
  | [], ctx => ([], ctx)
  | anchor :: rest, ctx =>
    let (tokenList, ctx) := getTokens now s anchor ctx
    let (more, ctx) := gather now s rest ctx
    (tokenList ++ more, ctx)

/-- `RevocationSet.List`. -/
def listRevocations (call : Call) (ctx : Context) : List Token :=
  ((call.order.visit ctx.revoke.keys).filterMap fun key => ctx.revoke.lookup key).filter
    fun t => !t.expireBefore call.now

def listRoots (call : Call) (ctx : Context) : Roots × Context :=
  let roots := ctx.getRoots call
  let (require, ctx) := gather call.now .require (ctx.getRequireAnchors call) ctx
  let (provide, ctx) := gather call.now .provide (ctx.getProvideAnchors call) ctx
  (⟨roots, require, provide, ctx.listRevocations call⟩, ctx)

def maxCapabilitySize : Nat := 16384

def sideAdmits (now : Nat) (test : Token → Bool) : List DID → Context → Context × Bool
  | [], ctx => (ctx, false)
  | anchor :: rest, ctx =>
    let (tokenList, ctx) := ctx.getRequireTokens now anchor
    if tokenList.any test then (ctx, true) else sideAdmits now test rest ctx

/-- One round of the loop in `Consume`: a token that is anchored somewhere and
that verifies is stored under its subject. -/
def consumeToken (p : Platform) (now : Nat) (origin : DID) (rootAnchors requireAnchors : List DID)
    (ctx : Context) (t : Token) : Context :=
  let (ctx, admitted) :=
    if t.anchor ctx.did || t.anchor origin || rootAnchors.any (fun a => t.anchor a) then
      (ctx, true)
    else sideAdmits now (fun rt => rt.allowAction t) requireAnchors ctx
  if admitted then
    if t.verify p now ctx.revoke = .ok () then ctx.consumeSubjectToken t else ctx
  else ctx

def consume (p : Platform) (call : Call) (origin : DID) (capToken : GoString) (ctx : Context) :
    Context × Result Unit :=
  if maxCapabilitySize < capToken.length then (ctx, .error (.new .tooBig))
  else
    match wrapLibrary "unmarshaling payload" (p.unmarshalTokens capToken) with
    | .error e => (ctx, .error e)
    | .ok tokens =>
      (tokens.foldl
        (consumeToken p call.now origin (ctx.getRoots call) (ctx.getRequireAnchors call)) ctx,
        .ok ())

/-- One round of the loop in `discardTokens`. -/
def discardToken (ctx : Context) (t : Token) : Context :=
  let subjectTokens := (ctx.held .subject t.subject).filter fun ot =>
    !(decide (t.issuer = ot.issuer) && decide (t.nonce = ot.nonce))
  if subjectTokens = [] then { ctx with tokens := ctx.tokens.erase t.subject }
  else ctx.setHeld .subject t.subject subjectTokens

def discard (p : Platform) (capTokens : GoString) (ctx : Context) : Context :=
  match p.unmarshalTokens capTokens with
  | .error _ => ctx
  | .ok tokens => tokens.foldl discardToken ctx

def authorizeLoop (now : Nat) (anchor : DID) (roots requireAnchors : List DID)
    (allow : Token → Capability → Bool) :
    List (Token × Capability) → Context → Context × Bool
  | [], ctx => (ctx, false)
  | (t, c) :: rest, ctx =>
    if t.anchor anchor && allow t c then (ctx, true)
    else if roots.any (fun a => t.anchor a && allow t c) then (ctx, true)
    else
      match sideAdmits now (fun rt => rt.allowAction t && allow t c) requireAnchors ctx with
      | (ctx, true) => (ctx, true)
      | (ctx, false) => authorizeLoop now anchor roots requireAnchors allow rest ctx

/-- The common part of `Require` and `RequireBroadcast`. -/
def authorize (call : Call) (anchor subject : DID) (allow : Token → Capability → Bool)
    (require : List Capability) (ctx : Context) : Context × Result Unit :=
  let (tokenList, ctx) := ctx.getSubjectTokens call.now subject
  match authorizeLoop call.now anchor (ctx.getRoots call) (ctx.getRequireAnchors call) allow
      (tokenList.flatMap fun t => require.map fun c => (t, c)) ctx with
  | (ctx, true) => (ctx, .ok ())
  | (ctx, false) => (ctx, .error (.new .notAuthorized))

/-- `Require`. -/
def requireInvocation (p : Platform) (call : Call) (anchor : DID) (subject audience : GoString)
    (require : List Capability) (ctx : Context) : Context × Result Unit :=
  if require = [] then (ctx, .error ⟨["no capabilities"], .notAuthorized⟩)
  else
    match wrapLibrary "DID for subject" (p.fromID subject) with
    | .error e => (ctx, .error e)
    | .ok subjectDID =>
      match wrapLibrary "DID for audience" (p.fromID audience) with
      | .error e => (ctx, .error e)
      | .ok audienceDID =>
        authorize call anchor subjectDID (fun t c => t.allowInvocation subjectDID audienceDID c)
          require ctx

def requireBroadcast (p : Platform) (call : Call) (anchor : DID) (subject topic : GoString)
    (require : List Capability) (ctx : Context) : Context × Result Unit :=
  if require = [] then (ctx, .error ⟨["no capabilities"], .notAuthorized⟩)
  else
    match wrapLibrary "DID for subject" (p.fromID subject) with
    | .error e => (ctx, .error e)
    | .ok subjectDID =>
      authorize call anchor subjectDID (fun t c => t.allowBroadcast subjectDID ⟨topic⟩ c)
        require ctx

def gcList (now : Nat) (l : List Token) : Option (List Token) :=
  let kept := l.filter fun t => !t.expireBefore now
  if kept = [] then none else some kept

def gcMap (call : Call) (m : TokenMap) : TokenMap :=
  GoMap.rangeUpdate (fun _ l => gcList call.now l) (call.order.visit m.keys) m

/-- `RevocationSet.gc`. -/
def gcRevocations (call : Call) (revoke : RevocationSet) : RevocationSet :=
  GoMap.rangeUpdate (fun _ t => if t.expireBefore call.now then none else some t)
    (call.order.visit revoke.keys) revoke

def gcTokens (call : Call) (ctx : Context) : Context := { ctx with
    require := gcMap call ctx.require
    provide := gcMap call ctx.provide
    revoke := gcRevocations call ctx.revoke
    tokens := gcMap call ctx.tokens }

end Context

def sampleCall (now : Nat) : Call := ⟨now, .stored, fun n => .ok [UInt8.ofNat n]⟩

/-- An empty context that signs as the sample platform's key of `did` does. -/
def sampleContext (did : DID) : Context :=
  .blank (ascii "dms") ⟨did, fun data => .ok (did.uri ++ data)⟩

end DMS.Ucan
