import DMS.Jobs.Manifest
import Mathlib.Data.Finset.Basic
import Mathlib.Data.Finset.Lattice.Lemmas
import Mathlib.Data.Nat.Log

/-! # A round of bidding

`BidCoordinator.bid` of `dms/orchestrator/bid.go`. Bids are collected until there is one for every
node; then candidates are drawn at random until one passes the edge constraints. The clock, the
bids that arrive, the random numbers and the answers of the peers are inputs.
-/

namespace DMS.Orchestrator

open Jobs

def maxBidMultiplier : Nat := 8

def maxPermutations : Nat := 1000000

/-- `BidRequestTimeout` in nanoseconds. -/
def bidRequestTimeout : Int := 5000000000

abbrev Candidate := GoMap GoString Bid

inductive BidCause
  | candidateNotFound
  | deploymentFailed
  | request (text : String)
deriving DecidableEq, Repr

/-- What the coordinator knows: its ensemble, whether a bid is signed by its peer, and whether
light needs longer between two locations than a round trip may take. -/
structure Coordinator where
  eid : GoString
  validate : Bid → Bool
  minRTTExceeds : Location → Location → Nat → Bool

/-- Making a bid request and sending it, and the bids that arrive until the timer of the
request fires. -/
structure BidRequest where
  make : Except String Unit
  now : Int
  send : Except String Unit
  arriving : List Bid

structure Residual where
  now : Int
  order : RangeOrder
  shuffle : GoString → RangeOrder
  intn : GoString → Nat
  request : BidRequest

/-- One turn of the loop over the candidates: the clock, and the measured edges in the
order in which the results come in. -/
structure Check where
  now : Int
  measure : Nat → Bool
  order : RangeOrder

structure BidInputs where
  order : RangeOrder
  initial : BidRequest
  residuals : List Residual
  shuffle : GoString → RangeOrder
  draws : Nat → Option Nat
  checks : List Check

/-- `bidMap` and `peerExclusion`. The last two fields record the bids that were taken
from the channel and those of them that were added. -/
structure Collected where
  bidMap : GoMap GoString (List Bid)
  peerExclusion : Finset GoString
  received : List Bid
  added : List Bid

def nodeForTargetPeer (order : RangeOrder) (cfg : EnsembleConfig) : GoMap GoString GoString :=
  (order.visit cfg.nodes.entries).foldl
    (fun targets e => if e.2.peer ≠ [] then targets.insert e.2.peer e.1 else targets) ∅

def exclude (targets : GoMap GoString GoString) (candidates : Candidate) :
    List GoString → Collected → Collected
  | [], s => s
  | peerID :: rest, s =>
    let s := { s with peerExclusion := insert peerID s.peerExclusion }
    match targets.lookup peerID with
    | none => exclude targets candidates rest s
    | some nodeID =>
      match candidates.lookup nodeID with
      | none => exclude targets candidates rest s
      | some bid =>
        exclude targets candidates rest { s with bidMap := s.bidMap.push nodeID bid }

def acceptPeerLocation (cfg : EnsembleConfig) (nodeID peerID : GoString) (loc : Location) : Bool :=
  match cfg.node nodeID with
  | none => false
  | some n => if n.peer ≠ [] then n.peer = peerID else loc.satisfies n.location

/-- The checks of `addBid`, in their order. -/
def admissible (c : Coordinator) (cfg : EnsembleConfig) (targets : GoMap GoString GoString)
    (bid : Bid) (s : Collected) : Bool :=
  (match targets.lookup bid.peer with
    | some nodeID => nodeID = bid.nodeID
    | none => true) &&
  bid.peer ∉ s.peerExclusion &&
  c.validate bid &&
  (cfg.node bid.nodeID).isSome &&
  acceptPeerLocation cfg bid.nodeID bid.peer bid.location &&
  (s.bidMap.list bid.nodeID).length < maxBidMultiplier

def addBid (c : Coordinator) (cfg : EnsembleConfig) (targets : GoMap GoString GoString)
    (bid : Bid) (s : Collected) : Collected × Bool :=
  if admissible c cfg targets bid s then
    ({ s with
      bidMap := s.bidMap.push bid.nodeID bid
      peerExclusion := insert bid.peer s.peerExclusion
      added := bid :: s.added }, true)
  else (s, false)

def rmBid (bid : Bid) (s : Collected) : Collected :=
  let s := { s with peerExclusion := s.peerExclusion.erase bid.peer }
  match (s.bidMap.list bid.nodeID).findIdx? fun b => b.peer = bid.peer with
  | none => s
  | some i =>
    { s with bidMap := s.bidMap.insert bid.nodeID ((s.bidMap.list bid.nodeID).eraseIdx i) }

/-- `collectBids`, after `bidCount` bids were added. -/
def collectBids (c : Coordinator) (cfg : EnsembleConfig) (targets : GoMap GoString GoString)
    (maxBids : Int) : List Bid → Int → Collected → Collected
  | [], _, s => s
  | bid :: rest, bidCount, s =>
    let s := { s with received := bid :: s.received }
    if !c.validate bid || bid.ensembleID ≠ c.eid then
      collectBids c cfg targets maxBids rest bidCount s
    else
      match addBid c cfg targets bid s with
      | (s, false) => collectBids c cfg targets maxBids rest bidCount s
      | (s, true) =>
        if bidCount + 1 ≥ maxBids then s
        else collectBids c cfg targets maxBids rest (bidCount + 1) s

/-- `requestBids` up to the point where bids arrive. -/
def requestBids (expiry : Int) (request : BidRequest) : Except (GoError BidCause) Unit :=
  if expiry < request.now + bidRequestTimeout then
    .error ((GoError.new .deploymentFailed).wrap "not enough time for deployment")
  else
    match request.send with
    | .error text => .error (.new (.request text))
    | .ok _ => .ok ()

/-- An array after a shorter slice was written to its beginning. -/
def overwrite (slice backing : List Bid) : List Bid := slice ++ backing.drop slice.length

/-- The loop over the bids of a node in `makeResidualBidRequest`. It ranges over the array that
`rmBid` shifts, and so skips bids and meets some again. -/
def dropLoop (n : GoString) (desiredSize : Nat) : Nat → Nat → List Bid → Collected → Collected
  | 0, _, _, s => s
  | fuel + 1, i, backing, s =>
    match backing[i]? with
    | none => s
    | some bid =>
      if i > desiredSize then
        dropLoop n desiredSize fuel (i + 1) (overwrite ((rmBid bid s).bidMap.list n) backing)
          (rmBid bid s)
      else dropLoop n desiredSize fuel (i + 1) backing s

/-- The loop over the nodes. Without bids `rand.Intn` panics. -/
def dropBids (r : Residual) : List GoString → Collected → Option Collected
  | [], s => some s
  | n :: rest, s =>
    let bids := s.bidMap.list n
    if bids = [] then none
    else
      let desiredSize := (r.intn n % bids.length) / 2
      let backing := (r.shuffle n).visit bids
      dropBids r rest (dropLoop n desiredSize bids.length 0 backing
        { s with bidMap := s.bidMap.insert n backing })

structure Permutator where
  mod : Int
  node : GoString
  bids : List Bid

/-- Arithmetic of `int64`, or of `big.Int` when the flag is set. -/
def scale (big : Bool) (modulus : Int) (len : Nat) : Int :=
  if big then modulus * len else (modulus * len).bmod (2 ^ 64)

def permutators (big : Bool) : List (GoString × List Bid) → Int → List Permutator × Int
  | [], modulus => ([], modulus)
  | (node, bids) :: rest, modulus =>
    let (ps, last) := permutators big rest (scale big modulus bids.length)
    (⟨modulus, node, bids⟩ :: ps, last)

/-- The choice that an index makes for every node; a choice outside a list panics. -/
def getPermutation (index : Int) : List Permutator → Option Candidate
  | [] => some ∅
  | p :: ps =>
    let selection := (index.tdiv p.mod).tmod p.bids.length
    match p.bids[selection.toNat]?, getPermutation index ps with
    | some bid, some result => some (result.insert p.node bid)
    | _, _ => none

def bitsOf (len : Nat) : Int := if len = 0 then -2 ^ 63 else Nat.clog 2 len

structure Generator where
  big : Bool
  permutators : List Permutator
  nperm : Int

def makeCandidateDeployments (order : RangeOrder) (shuffle : GoString → RangeOrder)
    (cfg : EnsembleConfig) (bids : GoMap GoString (List Bid)) : Option Generator :=
  if cfg.nodes.keys.length ≠ bids.keys.length then none
  else
    let lists := (order.visit bids.entries).map fun e => (e.1, (shuffle e.1).visit e.2)
    let big : Bool := lists.foldl (fun bits e => bits + bitsOf e.2.length) 0 > 63
    let (ps, modulus) := permutators big lists 1
    some ⟨big, ps, if big then maxPermutations else min modulus maxPermutations⟩

/-- The next index, unless the random bytes cannot be read. -/
def Generator.index (g : Generator) (draw : Option Nat) : Option Int :=
  if g.big then draw.map fun n => (n : Int) else some ((draw.getD 0 : Int).tmod g.nperm)

def checkPermutationEdgeConstraints (c : Coordinator) (cfg : EnsembleConfig)
    (candidate : Candidate) : Bool :=
  cfg.edges.all fun cst =>
    cst.rtt = 0 ||
      match candidate.lookup cst.s, candidate.lookup cst.t with
      | some bidS, some bidT => !c.minRTTExceeds bidS.location bidT.location cst.rtt
      | _, _ => false

/-- The generated function, with the number of permutations that it may still try. It
panics, returns no candidate, or a candidate. -/
def nextCandidate (c : Coordinator) (cfg : EnsembleConfig) (draws : Nat → Option Nat)
    (g : Generator) : Nat → Option (Option (Candidate × Nat))
  | 0 => some none
  | left + 1 =>
    match g.index (draws left) with
    | none => some none
    | some index =>
      match getPermutation index g.permutators with
      | none => none
      | some perm =>
        if checkPermutationEdgeConstraints c cfg perm then some (some (perm, left))
        else nextCandidate c cfg draws g left

/-- The key of the cache; a candidate without a bid for an end of the edge panics. -/
def edgeKey (candidate : Candidate) (cst : EdgeConstraint) : Option GoString :=
  match candidate.lookup cst.s, candidate.lookup cst.t with
  | some bidS, some bidT => some (bidS.peer ++ ascii ":" ++ bidT.peer)
  | _, _ => none

/-- The constraints that were not measured before, or nothing when one of the measured
ones failed. -/
def toVerify (candidate : Candidate) (cache : GoMap GoString Bool) :
    List EdgeConstraint → Option (Option (List GoString))
  | [] => some (some [])
  | cst :: rest =>
    match edgeKey candidate cst with
    | none => none
    | some key =>
      match cache.lookup key with
      | some false => some none
      | some true => toVerify candidate cache rest
      | none => (toVerify candidate cache rest).map fun keys => keys.map fun ks => key :: ks

def verifyEdgeConstraints (check : Check) (cfg : EnsembleConfig) (candidate : Candidate)
    (cache : GoMap GoString Bool) : Option (Bool × GoMap GoString Bool) :=
  match toVerify candidate cache cfg.edges with
  | none => none
  | some none => some (false, cache)
  | some (some keys) =>
    let results := keys.zipIdx.map fun k => (k.1, check.measure k.2)
    some (results.all fun r => r.2,
      (check.order.visit results).foldl (fun cache r => cache.insert r.1 r.2) cache)

/-- What a round returns, with the bids that it received and added and the verdicts of
`verifyEdgeConstraints` in their order. -/
structure Round where
  candidate : Candidate
  result : Except (GoError BidCause) Unit
  collected : Collected
  verdicts : List (Candidate × Bool)

/-- The inputs of a loop are those of its turns: a loop that ends before they are used
up is no run. -/
def ending {α : Type} {β : Type 1} (rest : List β) (outcome : α) : Option α :=
  if rest.isEmpty then some outcome else none

/-- The loop that asks for missing bids. It ends with a generator, with an error, or at
a clock that has reached the expiry. -/
def gather (c : Coordinator) (cfg : EnsembleConfig) (targets : GoMap GoString GoString)
    (expiry : Int) (order : RangeOrder) (shuffle : GoString → RangeOrder) :
    List Residual → Collected → Option (Collected × Except (GoError BidCause) Generator)
  | [], _ => none
  | r :: rest, s =>
    if expiry ≤ r.now then
      ending rest (s, .error ((GoError.new .candidateNotFound).wrap
        "failed to create candidate deployments - trying again"))
    else
      match makeCandidateDeployments order shuffle cfg s.bidMap with
      | some g => ending rest (s, .ok g)
      | none =>
        match dropBids r (r.order.visit s.bidMap.keys) s with
        | none => none
        | some s =>
          match r.request.make with
          | .error text => ending rest (s, .error ((GoError.new (.request text)).wrap
              "creating residual bid request"))
          | .ok _ =>
            match requestBids expiry r.request with
            | .error e => ending rest (s, .error (e.wrap "collecting residual bids"))
            | .ok _ =>
              let maxBids : Int := maxBidMultiplier *
                ((cfg.nodes.keys.length : Int) - s.bidMap.keys.length)
              gather c cfg targets expiry order shuffle rest
                (collectBids c cfg targets maxBids r.request.arriving 0 s)

/-- The loop over the candidates. When the clock has reached the expiry, it ends with
the candidate at hand and no error. -/
def search (c : Coordinator) (cfg : EnsembleConfig) (expiry : Int) (draws : Nat → Option Nat)
    (g : Generator) (s : Collected) :
    List Check → Nat → Candidate → GoMap GoString Bool → List (Candidate × Bool) → Option Round
  | [], _, _, _, _ => none
  | check :: rest, left, candidate, cache, verdicts =>
    if expiry ≤ check.now then
      ending rest ⟨candidate, .ok (), s, verdicts⟩
    else
      match nextCandidate c cfg draws g left with
      | none => none
      | some none =>
        ending rest ⟨∅, .error ((GoError.new .candidateNotFound).wrap
          "failed to find candidate that satisfies edge constraints"), s, verdicts⟩
      | some (some (candidate, left)) =>
        match verifyEdgeConstraints check cfg candidate cache with
        | none => none
        | some (true, _) =>
          ending rest ⟨candidate, .ok (), s, verdicts ++ [(candidate, true)]⟩
        | some (false, cache) =>
          search c cfg expiry draws g s rest left candidate cache (verdicts ++ [(candidate, false)])

def bid (c : Coordinator) (cfg : EnsembleConfig) (candidates : Candidate) (expiry : Int)
    (inputs : BidInputs) : Option Round :=
  let targets := nodeForTargetPeer inputs.order cfg
  let s := exclude targets candidates cfg.excludePeers ⟨∅, ∅, [], []⟩
  match inputs.initial.make with
  | .error text =>
    some ⟨∅, .error ((GoError.new (.request text)).wrap "creating bid request"), ⟨∅, ∅, [], []⟩, []⟩
  | .ok _ =>
    match requestBids expiry inputs.initial with
    | .error e => some ⟨∅, .error (e.wrap "request bids"), s, []⟩
    | .ok _ =>
      let maxBids : Int := maxBidMultiplier * cfg.nodes.keys.length
      let s := collectBids c cfg targets maxBids inputs.initial.arriving 0 s
      match gather c cfg targets expiry inputs.order inputs.shuffle inputs.residuals s with
      | none => none
      | some (s, .error e) => some ⟨∅, .error e, s, []⟩
      | some (s, .ok g) =>
        search c cfg expiry inputs.draws g s inputs.checks g.nperm.toNat ∅ ∅ []

end DMS.Orchestrator
