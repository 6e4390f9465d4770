import DMS.Core.GoMap
import DMS.Core.GoValue
import DMS.Core.Reach

/-! # The connections of a subnet

`proxiedConns` of `network/libp2p/subnet.go`. The VPN handler of `startIPProxy` stores the
connection of whoever asks under the address that the request names, and `proxyPacket` stores what
it dials. A call of `proxyPacket` is cut where it does not hold the lock of the table.
-/

namespace DMS.Network

open Option List

abbrev PeerID := GoString

/-- `rtable`, as far as packets and certificates are concerned. -/
structure RoutingTable where
  idx : GoMap PeerID (List GoString)
  revIdx : GoMap GoString PeerID

def RoutingTable.getByIP (rt : RoutingTable) (addr : GoString) : Option PeerID :=
  rt.revIdx.lookup addr

/-- The subnet that the table belongs to, with its addresses on this host, and the routing
tables of the host's other subnets. -/
structure SubnetInfo where
  id : GoString
  rtable : RoutingTable
  ifaces : List GoString
  others : List RoutingTable
  isIPv4 : GoString → Bool

/-- What `makeVerifySubnetPeerCertificateFn` asks of the peer at the other end: it has to be a
member of some subnet of this host. -/
def SubnetInfo.verified (info : SubnetInfo) (peerID : PeerID) : Bool :=
  (info.rtable :: info.others).any fun rt => peerID ∈ rt.idx

structure Conn where
  id : Nat
  remote : PeerID
deriving DecidableEq, Repr

inductive WriteResult
  | ok
  | closed
  | failed
deriving DecidableEq, Repr

/-- A call of `proxyPacket` to `dst`, between the sections in which it holds the lock. -/
inductive Sender
  | writing (destIP : GoString) (dst : PeerID) (conn : Conn)
  | redialing (destIP : GoString) (dst : PeerID) (conn : Conn)
  | retrying (destIP : GoString) (dst : PeerID) (conn : Conn)
  | finished
deriving DecidableEq, Repr

/-- The table of connections with the calls in progress. `made` counts connections, and
`delivered` has the address of every packet with the peer that got it. -/
structure ProxiedConns where
  conns : GoMap GoString Conn
  senders : List Sender
  made : Nat
  delivered : List (GoString × PeerID)

namespace ProxiedConns

def new : ProxiedConns := ⟨∅, [], 0, []⟩

def cleanupConn (ip : GoString) (conn : Conn) (s : ProxiedConns) : ProxiedConns :=
  if s.conns.lookup ip = some conn then { s with conns := s.conns.erase ip } else s

def store (ip : GoString) (remote : PeerID) (s : ProxiedConns) : ProxiedConns :=
  { s with conns := s.conns.insert ip ⟨s.made, remote⟩, made := s.made + 1 }

/-- The checks of the VPN handler before the connection of the peer is stored; `served` is what
parsing the request and answering it comes to. -/
def serves (info : SubnetInfo) (peerID : PeerID) (subnetID srcIP : GoString) (served : Bool) :
    Bool :=
  subnetID ≠ [] && srcIP ≠ [] && info.isIPv4 srcIP && subnetID = info.id &&
    info.verified peerID && served

def request (info : SubnetInfo) (peerID : PeerID) (subnetID srcIP : GoString) (served : Bool)
    (s : ProxiedConns) : ProxiedConns :=
  if serves info peerID subnetID srcIP served then s.store srcIP peerID else s

/-- `dialIPProxy`: the peer that answers, if the connection comes about. -/
def dialled (info : SubnetInfo) (answer : Option PeerID) : Option PeerID :=
  answer.filter info.verified

/-- `Route` and the first section of `proxyPacket`. -/
def route (info : SubnetInfo) (srcIP destIP : GoString) (answer : Option PeerID)
    (s : ProxiedConns) : ProxiedConns :=
  match info.rtable.getByIP destIP with
  | none => s
  | some dst =>
    if (info.rtable.getByIP srcIP).isNone || destIP ∈ info.ifaces then s
    else
      match s.conns.lookup destIP with
      | some conn => { s with senders := s.senders ++ [.writing destIP dst conn] }
      | none =>
        match dialled info answer with
        | none => s
        | some remote =>
          { s.store destIP remote with
            senders := s.senders ++ [.writing destIP dst ⟨s.made, remote⟩] }

def setSender (i : Nat) (sender : Sender) (s : ProxiedConns) : ProxiedConns :=
  { s with senders := s.senders.set i sender }

def deliver (destIP : GoString) (conn : Conn) (s : ProxiedConns) : ProxiedConns :=
  { s with delivered := (destIP, conn.remote) :: s.delivered }

def write (i : Nat) (result : WriteResult) (s : ProxiedConns) : ProxiedConns :=
  match s.senders[i]? with
  | some (.writing destIP dst conn) =>
    match result with
    | .ok => (s.deliver destIP conn).setSender i .finished
    | .closed => (s.cleanupConn destIP conn).setSender i (.redialing destIP dst conn)
    | .failed => (s.cleanupConn destIP conn).setSender i .finished
  | _ => s

/-- After the dial: a connection that others have stored meanwhile is used instead. -/
def redial (info : SubnetInfo) (i : Nat) (answer : Option PeerID) (s : ProxiedConns) :
    ProxiedConns :=
  match s.senders[i]? with
  | some (.redialing destIP dst conn) =>
    match dialled info answer with
    | none => s.setSender i .finished
    | some remote =>
      match s.conns.lookup destIP with
      | some current =>
        if current ≠ conn then
          ({ s with made := s.made + 1 } : ProxiedConns).setSender i (.retrying destIP dst current)
        else (s.store destIP remote).setSender i (.retrying destIP dst ⟨s.made, remote⟩)
      | none => (s.store destIP remote).setSender i (.retrying destIP dst ⟨s.made, remote⟩)
  | _ => s

def retry (i : Nat) (result : WriteResult) (s : ProxiedConns) : ProxiedConns :=
  match s.senders[i]? with
  | some (.retrying destIP _ conn) =>
    match result with
    | .ok => (s.deliver destIP conn).setSender i .finished
    | _ => (s.cleanupConn destIP conn).setSender i .finished
  | _ => s

inductive Event
  | request (peerID : PeerID) (subnetID srcIP : GoString) (served : Bool)
  | route (srcIP destIP : GoString) (answer : Option PeerID)
  | write (i : Nat) (result : WriteResult)
  | redial (i : Nat) (answer : Option PeerID)
  | retry (i : Nat) (result : WriteResult)
  | cleanup (ip : GoString) (conn : Conn)

def step (info : SubnetInfo) (s : ProxiedConns) : Event → ProxiedConns
  | .request peerID subnetID srcIP served => s.request info peerID subnetID srcIP served
  | .route srcIP destIP answer => s.route info srcIP destIP answer
  | .write i result => s.write i result
  | .redial i answer => s.redial info i answer
  | .retry i result => s.retry i result
  | .cleanup ip conn => s.cleanupConn ip conn

/-- Every connection belongs to the peer to which its address is routed, and so does every
packet that was delivered. -/
structure Owned (info : SubnetInfo) (s : ProxiedConns) : Prop where
  stored : ∀ ip conn, s.conns.lookup ip = some conn → info.rtable.getByIP ip = some conn.remote
  sent : ∀ packet ∈ s.delivered, info.rtable.getByIP packet.1 = some packet.2

/-- The peer of a request that gets through is the one of its source address, and a dial that
is stored was answered by the peer that was dialled. -/
def Rightful (info : SubnetInfo) (s : ProxiedConns) : Event → Prop
  | .request peerID subnetID srcIP served =>
    serves info peerID subnetID srcIP served = true → info.rtable.getByIP srcIP = some peerID
  | .route srcIP destIP answer =>
    ∀ dst remote, info.rtable.getByIP destIP = some dst →
      (info.rtable.getByIP srcIP).isSome → destIP ∉ info.ifaces → destIP ∉ s.conns →
        dialled info answer = some remote → remote = dst
  | .redial i answer =>
    ∀ destIP dst conn remote, s.senders[i]? = some (.redialing destIP dst conn) →
      dialled info answer = some remote →
        (∀ current, s.conns.lookup destIP = some current → current = conn) → remote = dst
  | _ => True

def Addressed (info : SubnetInfo) : Sender → Prop
  | .writing destIP dst conn =>
    info.rtable.getByIP destIP = some dst ∧ conn.remote = dst
  | .redialing destIP dst _ => info.rtable.getByIP destIP = some dst
  | .retrying destIP dst conn =>
    info.rtable.getByIP destIP = some dst ∧ conn.remote = dst
  | .finished => True

structure Kept (info : SubnetInfo) (s : ProxiedConns) : Prop where
  owned : s.Owned info
  senders : ∀ sender ∈ s.senders, Addressed info sender

section Steps

variable {info : SubnetInfo} {s : ProxiedConns}

theorem Kept.new (info : SubnetInfo) : new.Kept info := by
  refine ⟨⟨?_, ?_⟩, ?_⟩ <;> simp [ProxiedConns.new]

theorem Owned.cleanupConn (h : s.Owned info) (ip : GoString) (conn : Conn) :
    (s.cleanupConn ip conn).Owned info := by
  unfold ProxiedConns.cleanupConn
  split
  · refine ⟨?_, h.sent⟩
    exact fun ip' conn' hlookup => h.stored ip' conn' (GoMap.lookup_of_erase hlookup).2
  · exact h

theorem Kept.cleanupConn (h : s.Kept info) (ip : GoString) (conn : Conn) :
    (s.cleanupConn ip conn).Kept info := by
  refine ⟨h.owned.cleanupConn ip conn, ?_⟩
  unfold ProxiedConns.cleanupConn
  split <;> exact h.senders

theorem Owned.store_iff (h : s.Owned info) (ip : GoString) (remote : PeerID) :
    (s.store ip remote).Owned info ↔ info.rtable.getByIP ip = some remote := by
  constructor
  · exact fun hstore => hstore.stored ip ⟨s.made, remote⟩ (AList.lookup_insert _)
  · exact fun hroute => ⟨GoMap.forall_lookup_insert h.stored hroute, h.sent⟩

theorem Kept.setSender (h : s.Kept info) (i : Nat) (snd : Sender)
    (hsender : Addressed info snd) : (s.setSender i snd).Kept info := by
  refine ⟨⟨h.owned.stored, h.owned.sent⟩, ?_⟩
  intro sender' hmem
  rcases mem_or_eq_of_mem_set hmem with hmem | rfl
  · exact h.senders sender' hmem
  · exact hsender

theorem Kept.deliver (h : s.Kept info) {ip} {conn : Conn}
    (hroute : info.rtable.getByIP ip = some conn.remote) : (s.deliver ip conn).Kept info := by
  refine ⟨⟨h.owned.stored, ?_⟩, h.senders⟩
  intro packet hpacket
  rcases mem_cons.mp hpacket with rfl | hpacket
  · exact hroute
  · exact h.owned.sent packet hpacket

theorem Kept.addSender (h : s.Kept info) (snd : Sender) (hsender : Addressed info snd) :
    Kept info { s with senders := s.senders ++ [snd] } := by
  refine ⟨⟨h.owned.stored, h.owned.sent⟩, ?_⟩
  intro sender' hmem
  rcases mem_append.mp hmem with hmem | hmem
  · exact h.senders sender' hmem
  · rw [mem_singleton.mp hmem]
    exact hsender

theorem Kept.store (h : s.Kept info) {ip remote}
    (hroute : info.rtable.getByIP ip = some remote) : (s.store ip remote).Kept info :=
  ⟨(h.owned.store_iff ip remote).mpr hroute, h.senders⟩

/-- A step that may be taken under `R` only ends in a state that is kept under `R`, and otherwise
in one that is not even owned. -/
def Decides (info : SubnetInfo) (R : Prop) (t : ProxiedConns) : Prop :=
  (R ↔ t.Owned info) ∧ (R → t.Kept info)

theorem Kept.decides (h : s.Kept info) {R : Prop} (hR : R) : Decides info R s :=
  ⟨iff_of_true hR h.owned, fun _ => h⟩

theorem decides_of_stored {R : Prop} {ip dst} {conn : Conn}
    (hdst : info.rtable.getByIP ip = some dst) (hR : R ↔ conn.remote = dst)
    (hconn : s.conns.lookup ip = some conn) (hkept : conn.remote = dst → s.Kept info) :
    Decides info R s := by
  refine ⟨hR.trans ⟨fun heq => (hkept heq).owned, fun howned => ?_⟩, fun h => hkept (hR.mp h)⟩
  exact some.inj ((howned.stored ip conn hconn).symm.trans hdst)

theorem request_decides (h : s.Kept info) (pid : PeerID) (net srcIP : GoString) (served : Bool) :
    Decides info (s.Rightful info (.request pid net srcIP served))
      (s.request info pid net srcIP served) := by
  rw [request, Rightful]
  split
  · next hserves =>
    simp only [hserves, true_implies]
    exact ⟨(h.owned.store_iff srcIP pid).symm, h.store⟩
  · next hserves => exact h.decides fun hs => absurd hs hserves

theorem route_decides (h : s.Kept info) (srcIP ip : GoString) (ans : Option PeerID) :
    Decides info (s.Rightful info (.route srcIP ip ans)) (s.route info srcIP ip ans) := by
  rw [route, Rightful]
  cases hdst : info.rtable.getByIP ip with
  | none => exact h.decides nofun
  | some dst =>
    dsimp only
    split
    · next hskip =>
      refine h.decides ?_
      intro _ _ _ hsrc hlocal
      simp [isNone_iff_eq_none, ne_none_iff_isSome.mpr hsrc, hlocal] at hskip
    rename_i hgo
    simp only [Bool.or_eq_true, isNone_iff_eq_none, decide_eq_true_eq, not_or,
      ← ne_none_iff_isSome] at hgo ⊢
    cases hconn : s.conns.lookup ip with
    | some conn =>
      have hremote := h.owned.stored ip conn hconn
      refine (h.addSender (.writing ip dst conn)
        ⟨hdst, some.inj (hremote.symm.trans hdst)⟩).decides ?_
      intro _ _ _ _ _ hnone
      rw [← AList.lookup_eq_none, hconn] at hnone
      exact absurd hnone (some_ne_none _)
    | none =>
      have hnone : ip ∉ s.conns := AList.lookup_eq_none.mp hconn
      cases hdial : dialled info ans with
      | none => exact h.decides fun _ _ _ _ _ _ => nofun
      | some remote =>
        refine decides_of_stored hdst ⟨?_, ?_⟩ (AList.lookup_insert _) ?_
        · exact fun hall => hall dst remote rfl hgo.1 hgo.2 hnone rfl
        · rintro rfl _ _ hdst' _ _ _ hdial'
          rw [← some.inj hdst', ← some.inj hdial']
        · rintro rfl
          exact (h.store hdst).addSender (.writing ip _ ⟨s.made, remote⟩) ⟨hdst, rfl⟩

theorem redial_decides (h : s.Kept info) (i : Nat) (ans : Option PeerID) :
    Decides info (s.Rightful info (.redial i ans)) (s.redial info i ans) := by
  rw [redial, Rightful]
  split
  · next ip dst conn hsender =>
    have hroute : info.rtable.getByIP ip = some dst := h.senders _ (mem_of_getElem? hsender)
    cases hdial : dialled info ans with
    | none => exact (h.setSender i .finished trivial).decides fun _ _ _ _ _ => nofun
    | some remote =>
      have hstored (hcurrent : ∀ current, s.conns.lookup ip = some current → current = conn) :
          Decides info (∀ destIP' dst' conn' remote',
            s.senders[i]? = some (.redialing destIP' dst' conn') → some remote = some remote' →
            (∀ current, s.conns.lookup destIP' = some current → current = conn') →
              remote' = dst')
            ((s.store ip remote).setSender i (.retrying ip dst ⟨s.made, remote⟩)) := by
        refine decides_of_stored hroute ⟨?_, ?_⟩ (AList.lookup_insert _) ?_
        · exact fun hall => hall ip dst conn remote hsender rfl hcurrent
        · rintro rfl destIP' dst' conn' remote' hsender' hremote _
          cases hsender.symm.trans hsender'
          exact (some.inj hremote).symm
        · rintro rfl
          exact (h.store hroute).setSender i (.retrying ip _ ⟨s.made, remote⟩) ⟨hroute, rfl⟩
      cases hlookup : s.conns.lookup ip with
      | none => exact hstored (by simp [hlookup])
      | some current =>
        dsimp only
        split
        · next hne =>
          have hremote := h.owned.stored ip current hlookup
          have hmade : Kept info { s with made := s.made + 1 } :=
            ⟨⟨h.owned.stored, h.owned.sent⟩, h.senders⟩
          refine (hmade.setSender i (.retrying ip dst current)
            ⟨hroute, some.inj (hremote.symm.trans hroute)⟩).decides ?_
          intro destIP' dst' conn' _ hsender' _ hcurrent
          cases hsender.symm.trans hsender'
          exact absurd (hcurrent current hlookup) hne
        rename_i heq
        refine hstored fun current' hcurrent' => ?_
        rw [hlookup] at hcurrent'
        exact some.inj hcurrent' ▸ not_not.mp heq
  · next hnot => exact h.decides fun ip dst conn _ hsender => absurd hsender (hnot _ _ _)

theorem write_kept (h : s.Kept info) (i : Nat) (r : WriteResult) : (s.write i r).Kept info := by
  unfold write
  split
  · next ip dst conn hsender =>
    obtain ⟨hroute, hremote⟩ := h.senders _ (mem_of_getElem? hsender)
    cases r with
    | ok => exact (h.deliver (hremote ▸ hroute)).setSender i .finished trivial
    | closed => exact (h.cleanupConn ip conn).setSender i (.redialing ip dst conn) hroute
    | failed => exact (h.cleanupConn ip conn).setSender i .finished trivial
  · exact h

theorem retry_kept (h : s.Kept info) (i : Nat) (r : WriteResult) : (s.retry i r).Kept info := by
  unfold retry
  split
  · next ip dst conn hsender =>
    obtain ⟨hroute, hremote⟩ := h.senders _ (mem_of_getElem? hsender)
    split
    · exact (h.deliver (hremote ▸ hroute)).setSender i .finished trivial
    · exact (h.cleanupConn ip conn).setSender i .finished trivial
  · exact h

theorem step_decides (h : s.Kept info) (e : Event) :
    Decides info (s.Rightful info e) (s.step info e) := by
  cases e with
  | request pid net srcIP served => exact request_decides h pid net srcIP served
  | route srcIP destIP ans => exact route_decides h srcIP destIP ans
  | write i r => exact (write_kept h i r).decides trivial
  | redial i ans => exact redial_decides h i ans
  | retry i r => exact (retry_kept h i r).decides trivial
  | cleanup ip conn => exact (h.cleanupConn ip conn).decides trivial

end Steps

/-- In every state of a run all connections belong to the peers of their addresses exactly when
every connection stored on the way does. -/
theorem owned_iff_rightful (info : SubnetInfo) (events : List Event) :
    (∀ past, past <+: events → (past.foldl (step info) new).Owned info) ↔
      Reach.Passes (Rightful info) (step info) new events := by
  exact (Reach.passes_iff_forall (Kept info) (Owned info) events (Kept.new info)
    (Kept.new info).owned (fun s e h => (step_decides h e).1)
    fun s e h => (step_decides h e).2).symm

def sampleInfo : SubnetInfo :=
  let entries := [(ascii "10.0.0.2", ascii "p"), (ascii "10.0.0.3", ascii "q")]
  ⟨ascii "net", ⟨entries.foldl (fun m e => m.push e.2 e.1) ∅,
    entries.foldl (fun m e => m.insert e.1 e.2) ∅⟩, [ascii "10.0.0.1"], [], fun _ => true⟩

/-- The peer of one address asks for a connection under the address of the other one. -/
theorem address_taken_over :
    ¬ ([Event.request (ascii "q") (ascii "net") (ascii "10.0.0.2") true].foldl (step sampleInfo)
      new).Owned sampleInfo := by
  intro h
  exact absurd (h.stored (ascii "10.0.0.2") ⟨0, ascii "q"⟩ (by decide)) (by decide)

end ProxiedConns

end DMS.Network
