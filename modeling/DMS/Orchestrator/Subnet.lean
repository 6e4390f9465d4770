import DMS.Core.Leases
import DMS.Core.Reach
import DMS.Jobs.Manifest

/-! # The addresses of a subnet

The subnet manifest of `dms/orchestrator/subnet.go` with every place that writes it, in
`provision.go` and `teardown.go`. Addresses are chosen by `GetNextIP` of `network/utils/utils.go`.
The three tables are an address book of the leases of the members.
-/

namespace DMS.Orchestrator

open Jobs AList

/-- A `net.IP` of four bytes. -/
structure IPv4 where
  b0 : UInt8
  b1 : UInt8
  b2 : UInt8
  b3 : UInt8
deriving DecidableEq, Repr

def slash : UInt8 := 47

def IPv4.string (ip : IPv4) : GoString :=
  itoa ip.b0.toNat ++ dot :: itoa ip.b1.toNat ++ dot :: itoa ip.b2.toNat ++ dot :: itoa ip.b3.toNat

def parseOctet (field : GoString) : Option UInt8 :=
  if field = [] ∨ (1 < field.length ∧ field.head? = some 48) then none
  else (digitsValue field).bind fun n => if n ≤ 255 then some (UInt8.ofNat n) else none

/-- `netip.ParseAddr` for a dotted address. -/
def parseIPv4 (text : GoString) : Option IPv4 :=
  match (text.splitOn dot).map parseOctet with
  | [some b0, some b1, some b2, some b3] => some ⟨b0, b1, b2, b3⟩
  | _ => none

/-- `net.IPNet` with its mask as the number of leading ones. -/
structure IPNet where
  ip : IPv4
  ones : Nat

/-- The byte of a mask with `ones` leading ones that stands at a position. -/
def maskByte (ones position : Nat) : UInt8 :=
  let set := min 8 (ones - 8 * position)
  UInt8.ofNat (256 - 2 ^ (8 - set))

def IPv4.mask (ones : Nat) (ip : IPv4) : IPv4 where
  b0 := ip.b0 &&& maskByte ones 0
  b1 := ip.b1 &&& maskByte ones 1
  b2 := ip.b2 &&& maskByte ones 2
  b3 := ip.b3 &&& maskByte ones 3

def IPNet.contains (net : IPNet) (ip : IPv4) : Bool := ip.mask net.ones = net.ip.mask net.ones

/-- `net.ParseCIDR` for a dotted address; the address of the network it returns is masked. -/
def parseCIDR (cidr : GoString) : Option IPNet := (cut [slash] cidr).bind fun parts =>
    (parseIPv4 parts.1).bind fun ip =>
      if parts.2 = [] then none
      else (digitsValue parts.2).bind fun ones =>
        if ones ≤ 32 then some ⟨ip.mask ones, ones⟩ else none

/-- `nextIP`. The bytes are changed in place, so that a later test reads what an earlier
branch has written. -/
def nextIP (ip : IPv4) (netmask : Int) : Option IPv4 :=
  if netmask = 0 ∧ ip.b0 = 255 ∧ ip.b1 = 255 ∧ ip.b2 = 255 ∧ ip.b3 = 254 then none
  else
    let ip : IPv4 :=
      if netmask = 0 ∧ ip.b1 = 255 ∧ ip.b2 = 255 ∧ ip.b3 = 254 then ⟨ip.b0 + 1, 0, 0, 0⟩ else ip
    if netmask = 8 ∧ ip.b1 = 255 ∧ ip.b2 = 255 ∧ ip.b3 = 254 then none
    else
      let ip : IPv4 :=
        if netmask = 8 ∧ ip.b1 < 255 ∧ ip.b2 = 255 ∧ ip.b3 = 254 then
          { ip with b1 := ip.b1 + 1, b2 := 0, b3 := 0 }
        else ip
      if netmask = 16 ∧ ip.b2 = 255 ∧ ip.b3 = 254 then none
      else
        let ip : IPv4 :=
          if (netmask = 16 ∨ netmask = 8) ∧ ip.b2 < 255 ∧ ip.b3 = 254 then
            { ip with b2 := ip.b2 + 1, b3 := 0 }
          else ip
        if netmask = 24 ∧ ip.b3 = 254 then none
        else some { ip with b3 := ip.b3 + 1 }

/-- The loop of `GetNextIP`, for at most `fuel` turns. With prefix length 0 the source can come
back to an address and never end; here it runs out of turns. -/
def searchIP (used : GoString → Bool) (net : IPNet) (netmask : Int) :
    Nat → Option IPv4 → Option IPv4
  | 0, _ => none
  | _ + 1, none => none
  | fuel + 1, some ip =>
    if net.contains ip = false then none
    else if used ip.string = false then some ip
    else searchIP used net netmask fuel (nextIP ip netmask)

def getNextIP (cidr : GoString) (used : GoString → Bool) : Except String IPv4 :=
  match cidr.splitOn slash with
  | [_, length] =>
    match atoi length with
    | none => .error ("strconv.Atoi: parsing \"" ++ printed length ++ "\": invalid syntax")
    | some netmask =>
      match parseCIDR cidr with
      | none => .error ("invalid CIDR address: " ++ printed cidr)
      | some net =>
        let networkMask := net.ip.mask net.ones
        match searchIP used net netmask (2 ^ 32)
            (some { networkMask with b3 := networkMask.b3 + 1 }) with
        | some ip => .ok ip
        | none => .error ("no available IPs in CIDR " ++ printed cidr)
  | _ => .error ("invalid CIDR " ++ printed cidr)

theorem searchIP_unused {used net netmask fuel start ip}
    (h : searchIP used net netmask fuel start = some ip) :
    used ip.string = false := by
  fun_induction searchIP used net netmask fuel start with
  | case1 | case2 | case3 => simp at h
  | case4 fuel ip' _ hfree =>
    obtain rfl : ip' = ip := Option.some.inj h
    exact hfree
  | case5 fuel ip' _ _ ih => exact ih h

theorem getNextIP_unused {cidr used ip}
    (h : getNextIP cidr used = .ok ip) : used ip.string = false := by
  unfold getNextIP at h
  split at h
  · split at h
    · simp at h
    split at h
    · simp at h
    dsimp only at h
    split at h
    · next hsearch =>
      obtain rfl := Except.ok.inj h
      exact searchIP_unused hsearch
    · simp at h
  · simp at h

structure SubnetManifest where
  cidr : GoString
  gatewayIP : GoString
  broadcastIP : GoString
  usedIPs : GoMap GoString Bool
  routingTable : GoMap GoString GoString
  indexRoutingTable : GoMap GoString GoString
  dnsRecords : GoMap GoString GoString

def orchSubnetName : GoString := ascii "orchestrator"

/-- `GetRandomCIDRInRange` for a mask of 24 bits and the addresses from `10.0.0.0` to
`10.255.255.255`; the second and the third byte are drawn at random. -/
def getRandomCIDRInRange (b1 b2 : UInt8) : GoString :=
  (IPv4.mk 10 b1 b2 0).string ++ slash :: itoa 24

def newSubnetManifest (b1 b2 : UInt8) : SubnetManifest :=
  let cidr := getRandomCIDRInRange b1 b2
  let parts := ((cidr.splitOn slash).headD []).splitOn dot
  let network := parts.getD 0 [] ++ dot :: parts.getD 1 [] ++ dot :: parts.getD 2 []
  let gatewayIP := network ++ dot :: ascii "1"
  let broadcastIP := network ++ dot :: ascii "255"
  { cidr
    gatewayIP
    broadcastIP
    usedIPs := (AList.insert gatewayIP true ∅).insert broadcastIP true
    routingTable := ∅
    indexRoutingTable := ∅
    dnsRecords := ∅ }

namespace SubnetManifest

/-- `UsedIPs[ip]` -/
def isUsed (m : SubnetManifest) (ip : GoString) : Bool := (m.usedIPs.lookup ip).getD false

def addAllocationToSubnet (mf : EnsembleManifest) (allocName : GoString) (m : SubnetManifest) :
    Except String SubnetManifest :=
  if (m.indexRoutingTable.lookup allocName).isSome then .ok m
  else
    match getNextIP m.cidr m.isUsed with
    | .error e => .error ("error getting next IP: " ++ e)
    | .ok ip =>
      match mf.allocations.lookup allocName with
      | none => .error ("allocation " ++ printed allocName ++ " not found in manifest")
      | some allocManifest =>
        .ok { m with
          routingTable := m.routingTable.insert ip.string
            ((mf.nodes.lookup allocManifest.nodeID).getD .zero).peer
          indexRoutingTable := m.indexRoutingTable.insert allocName ip.string
          dnsRecords := m.dnsRecords.insert allocManifest.dnsName ip.string
          usedIPs := m.usedIPs.insert ip.string true }

def removeAllocation (mf : EnsembleManifest) (m : SubnetManifest) (allocName : GoString) :
    SubnetManifest :=
  match mf.allocations.lookup allocName with
  | none => m
  | some allocManifest =>
    match m.indexRoutingTable.lookup allocName with
    | none => m
    | some ip =>
      { m with
        usedIPs := m.usedIPs.erase ip
        routingTable := m.routingTable.erase ip
        indexRoutingTable := m.indexRoutingTable.erase allocName
        dnsRecords :=
          if allocManifest.dnsName = [] then m.dnsRecords
          else m.dnsRecords.erase allocManifest.dnsName }

def removeAllocationsFromSubnet (mf : EnsembleManifest) (allocsNames : List GoString)
    (m : SubnetManifest) : SubnetManifest :=
  allocsNames.foldl (removeAllocation mf) m

/-- What `removeNodeFromManifest` does to the subnet, before it takes the node and its
allocations out of the manifest. -/
def removeNodeFromSubnet (mf : EnsembleManifest) (name : GoString) (m : SubnetManifest) :
    SubnetManifest :=
  match mf.nodes.lookup name with
  | none => m
  | some n => n.allocations.foldl (removeAllocation mf) m

/-- The orchestrator joins the subnet; `hostID` is that of its own actor. -/
def joinOrchestrator (hostID : GoString) (m : SubnetManifest) : Except String SubnetManifest :=
  if (m.indexRoutingTable.lookup orchSubnetName).isSome then .ok m
  else
    match getNextIP m.cidr m.isUsed with
    | .error e => .error ("error getting next IP: " ++ e)
    | .ok ip =>
      .ok { m with
        routingTable := m.routingTable.insert ip.string hostID
        indexRoutingTable := m.indexRoutingTable.insert orchSubnetName ip.string
        usedIPs := m.usedIPs.insert ip.string true
        dnsRecords := m.dnsRecords.insert orchSubnetName ip.string }

/-- The loop of `provisionSubnet` over the allocations; it stops at the first that finds
no address. -/
def addAllocations (mf : EnsembleManifest) :
    List GoString → SubnetManifest → SubnetManifest × Option String
  | [], m => (m, none)
  | allocName :: names, m =>
    match addAllocationToSubnet mf allocName m with
    | .error e =>
      (m, some ("error adding allocation " ++ printed allocName ++ " to subnet: " ++ e))
    | .ok m => addAllocations mf names m

/-- What `provisionSubnet` does to the subnet before it sends the first request; `join` is
`manifest.Subnet.Join`. -/
def provisionSubnet (order : RangeOrder) (mf : EnsembleManifest) (join : Bool)
    (hostID : GoString) (m : SubnetManifest) : SubnetManifest × Option String :=
  match addAllocations mf (order.visit mf.allocations.keys) m with
  | (m, some e) => (m, some e)
  | (m, none) =>
    if join then
      match joinOrchestrator hostID m with
      | .error e => (m, some e)
      | .ok m => (m, none)
    else (m, none)

/-- `revertSubnetManifest`. When the orchestrator has not joined its address reads as the
empty text. -/
def revertSubnetManifest (m : SubnetManifest) : SubnetManifest :=
  let orchestratorIP := (m.indexRoutingTable.lookup orchSubnetName).getD []
  { m with
    indexRoutingTable := m.indexRoutingTable.erase orchSubnetName
    routingTable := m.routingTable.erase orchestratorIP
    usedIPs := m.usedIPs.erase orchestratorIP
    dnsRecords := m.dnsRecords.erase orchSubnetName }

def book (m : SubnetManifest) : AddressBook GoString GoString GoString where
  index := m.indexRoutingTable
  routes := m.routingTable
  used := m.usedIPs

def Reserved (m : SubnetManifest) (ip : GoString) : Prop := ip = m.gatewayIP ∨ ip = m.broadcastIP

/-- The tables show leases, and the empty text is not taken for an address. -/
structure Sound (m : SubnetManifest) : Prop where
  shows : ∃ b : Leases GoString GoString m.Reserved, m.book.Shows b
  empty : m.isUsed [] = false

theorem flags_pair (x y a : GoString) :
    ((((AList.insert x true ∅).insert y true : GoMap GoString Bool).lookup a).getD false = true) ↔
      a = x ∨ a = y := by
  by_cases hy : a = y
  · subst hy
    simp
  rw [lookup_insert_ne hy, or_iff_left hy]
  by_cases hx : a = x
  · subst hx
    rw [lookup_insert]
    simp
  · rw [lookup_insert_ne hx]
    simp [hx]

theorem sound_newSubnetManifest (b1 b2 : UInt8) : (newSubnetManifest b1 b2).Sound where
  shows := by
    refine ⟨Leases.vacant, ⟨fun n => ?_, fun a => ?_, fun a => ?_⟩⟩
    · rfl
    · exact iff_of_false (notMem_empty _) (Leases.not_taken_vacant a)
    · rw [or_iff_right (Leases.not_taken_vacant a)]
      exact flags_pair _ _ a
  empty := by
    rw [← Bool.not_eq_true]
    intro h
    rcases (flags_pair _ _ []).mp h with h | h
    · simp at h
    · simp at h

variable {m : SubnetManifest}

theorem Sound.take (h : m.Sound) {name peer dnsName ip}
    (hname : m.indexRoutingTable.lookup name = none) (hip : getNextIP m.cidr m.isUsed = .ok ip) :
    Sound { m with
      routingTable := m.routingTable.insert ip.string peer
      indexRoutingTable := m.indexRoutingTable.insert name ip.string
      dnsRecords := m.dnsRecords.insert dnsName ip.string
      usedIPs := m.usedIPs.insert ip.string true } where
  shows := by
    obtain ⟨b, hb⟩ := h.shows
    exact ⟨_, hb.assign hname (getNextIP_unused hip) peer⟩
  empty := by
    simp only [isUsed, lookup_insert_ne (show [] ≠ ip.string by simp [IPv4.string])]
    exact h.empty

theorem Sound.addAllocationToSubnet {m'} (h : m.Sound) {mf name}
    (hadd : m.addAllocationToSubnet mf name = .ok m') : m'.Sound := by
  unfold SubnetManifest.addAllocationToSubnet at hadd
  split at hadd
  · obtain rfl := Except.ok.inj hadd
    exact h
  rename_i hname
  split at hadd
  · simp at hadd
  rename_i ip hip
  split at hadd
  · simp at hadd
  · obtain rfl := Except.ok.inj hadd
    exact h.take (by simpa using hname) hip

theorem Sound.joinOrchestrator {m'} (h : m.Sound) {hostID}
    (hjoin : m.joinOrchestrator hostID = .ok m') : m'.Sound := by
  unfold SubnetManifest.joinOrchestrator at hjoin
  split at hjoin
  · obtain rfl := Except.ok.inj hjoin
    exact h
  rename_i hname
  split at hjoin
  · simp at hjoin
  rename_i ip hip
  obtain rfl := Except.ok.inj hjoin
  exact h.take (by simpa using hname) hip

theorem Sound.leave (h : m.Sound) {name ip dnsRecords}
    (hip : m.indexRoutingTable.lookup name = some ip) :
    Sound { m with
      usedIPs := m.usedIPs.erase ip
      routingTable := m.routingTable.erase ip
      indexRoutingTable := m.indexRoutingTable.erase name
      dnsRecords } where
  shows := by
    obtain ⟨b, hb⟩ := h.shows
    exact ⟨_, hb.withdraw hip⟩
  empty := by
    by_cases hnil : [] = ip
    · subst hnil
      simp [isUsed]
    · simp only [isUsed, lookup_erase_ne hnil]
      exact h.empty

theorem Sound.removeAllocation (h : m.Sound) (mf : EnsembleManifest)
    (name : GoString) : (m.removeAllocation mf name).Sound := by
  unfold SubnetManifest.removeAllocation
  split
  · exact h
  split
  · exact h
  · next ip hip => exact h.leave hip

theorem Sound.removeAllocations (h : m.Sound) (mf : EnsembleManifest)
    (allocsNames : List GoString) :
    (allocsNames.foldl (SubnetManifest.removeAllocation mf) m).Sound :=
  List.foldlRecOn _ _ h fun _ h name _ => h.removeAllocation mf name

theorem Sound.removeNodeFromSubnet (h : m.Sound) (mf : EnsembleManifest)
    (name : GoString) : (m.removeNodeFromSubnet mf name).Sound := by
  unfold SubnetManifest.removeNodeFromSubnet
  split
  · exact h
  · exact h.removeAllocations mf _

theorem Sound.revertSubnetManifest (h : m.Sound) : m.revertSubnetManifest.Sound := by
  unfold SubnetManifest.revertSubnetManifest
  cases hip : m.indexRoutingTable.lookup orchSubnetName with
  | some ip => exact h.leave hip
  | none =>
    -- nothing is known under the empty text, so the deletions leave the tables as they are
    obtain ⟨b, hb⟩ := h.shows
    refine ⟨⟨b, hb.withdraw_absent hip h.empty⟩, ?_⟩
    simp [isUsed]

theorem Sound.addAllocations (h : m.Sound) (mf : EnsembleManifest)
    (names : List GoString) : (m.addAllocations mf names).1.Sound := by
  induction names generalizing m with
  | nil => exact h
  | cons name names ih =>
    unfold SubnetManifest.addAllocations
    split
    · exact h
    · next m' hadd => exact ih (h.addAllocationToSubnet hadd)

theorem Sound.provisionSubnet (h : m.Sound) (order : RangeOrder)
    (mf : EnsembleManifest) (join : Bool) (hostID : GoString) :
    (m.provisionSubnet order mf join hostID).1.Sound := by
  have hadded := h.addAllocations mf (order.visit mf.allocations.keys)
  unfold SubnetManifest.provisionSubnet
  split
  · next m' e heq =>
    rwa [heq] at hadded
  rename_i m' heq
  rw [heq] at hadded
  split
  · split
    · exact hadded
    · next m'' hjoin => exact hadded.joinOrchestrator hjoin
  · exact hadded

inductive Op
  | newSubnetManifest (b1 b2 : UInt8)
  | addAllocationToSubnet (mf : EnsembleManifest) (allocName : GoString)
  | removeAllocationsFromSubnet (mf : EnsembleManifest) (allocsNames : List GoString)
  | joinOrchestrator (hostID : GoString)
  | provisionSubnet (order : RangeOrder) (mf : EnsembleManifest) (join : Bool) (hostID : GoString)
  | revertSubnetManifest
  | removeNodeFromSubnet (mf : EnsembleManifest) (name : GoString)

/-- A call that fails leaves the tables as they are, except for what a loop had done. -/
def step (m : SubnetManifest) : Op → SubnetManifest
  | .newSubnetManifest b1 b2 => Orchestrator.newSubnetManifest b1 b2
  | .addAllocationToSubnet mf allocName =>
    (m.addAllocationToSubnet mf allocName).toOption.getD m
  | .removeAllocationsFromSubnet mf allocsNames => m.removeAllocationsFromSubnet mf allocsNames
  | .joinOrchestrator hostID => (m.joinOrchestrator hostID).toOption.getD m
  | .provisionSubnet order mf join hostID => (m.provisionSubnet order mf join hostID).1
  | .revertSubnetManifest => m.revertSubnetManifest
  | .removeNodeFromSubnet mf name => m.removeNodeFromSubnet mf name

theorem Sound.toOption (h : m.Sound) {r : Except String SubnetManifest}
    (hr : ∀ m', r = .ok m' → m'.Sound) : (r.toOption.getD m).Sound := by
  cases r with
  | error e => exact h
  | ok m' => exact hr m' rfl

theorem Sound.step (h : m.Sound) (op : Op) : (m.step op).Sound := by
  cases op with
  | newSubnetManifest b1 b2 => exact sound_newSubnetManifest b1 b2
  | addAllocationToSubnet mf allocName =>
    exact h.toOption fun m' hadd => h.addAllocationToSubnet hadd
  | removeAllocationsFromSubnet mf allocsNames => exact h.removeAllocations mf allocsNames
  | joinOrchestrator hostID => exact h.toOption fun m' hjoin => h.joinOrchestrator hjoin
  | provisionSubnet order mf join hostID => exact h.provisionSubnet order mf join hostID
  | revertSubnetManifest => exact h.revertSubnetManifest
  | removeNodeFromSubnet mf name => exact h.removeNodeFromSubnet mf name

def Reachable : SubnetManifest → Prop :=
  Reach (fun m => ∃ b1 b2, m = Orchestrator.newSubnetManifest b1 b2) (fun _ _ => True) step

/-- No two names have the same address, every route belongs to a name, and exactly the
addresses of names and the two reserved ones are in use. -/
structure Consistent (m : SubnetManifest) : Prop where
  unshared : ∀ name name' ip, m.indexRoutingTable.lookup name = some ip →
    m.indexRoutingTable.lookup name' = some ip → name = name'
  routes : ∀ ip, ip ∈ m.routingTable ↔ ∃ name, m.indexRoutingTable.lookup name = some ip
  used : ∀ ip, m.isUsed ip = true ↔
    (∃ name, m.indexRoutingTable.lookup name = some ip) ∨ ip = m.gatewayIP ∨ ip = m.broadcastIP

theorem Sound.consistent (h : m.Sound) : m.Consistent := by
  obtain ⟨b, hb⟩ := h.shows
  have htaken : ∀ ip, b.Taken ip ↔ ∃ name, m.indexRoutingTable.lookup name = some ip := by
    intro ip
    exact exists_congr fun name => by rw [← hb.index name]; rfl
  constructor
  · intro name name' ip hname hname'
    exact b.unshared ((hb.index name).symm.trans hname) ((hb.index name').symm.trans hname')
  · intro ip
    rw [← htaken]
    exact hb.routes ip
  intro ip
  rw [← htaken]
  exact hb.used ip

/-- Whatever calls are made in whatever order, the tables of the subnet agree. -/
theorem reachable_consistent {m : SubnetManifest} (h : Reachable m) : m.Consistent := by
  have hsound : m.Sound := by
    refine Reach.invariant Sound ?_ ?_ h
    · rintro _ ⟨b1, b2, rfl⟩
      exact sound_newSubnetManifest b1 b2
    · intro m op hm _
      exact hm.step op
  exact hsound.consistent

def sampleMembers : EnsembleManifest where
  allocations := AList.insert (ascii "n.a")
    { AllocationManifest.zero with nodeID := ascii "n", dnsName := ascii "a.internal" } ∅
  nodes := AList.insert (ascii "n") { NodeManifest.zero with peer := ascii "peer" } ∅

/-- The orchestrator joins and leaves, its address goes to an allocation that is added
twice, and it joins again. -/
def sampleCalls : List Op :=
  [.joinOrchestrator (ascii "host"), .revertSubnetManifest, .revertSubnetManifest,
    .addAllocationToSubnet sampleMembers (ascii "n.a"),
    .addAllocationToSubnet sampleMembers (ascii "n.a"), .joinOrchestrator (ascii "host")]

theorem reachable_consistent_sample : let m := sampleCalls.foldl step (newSubnetManifest 1 2)
    Reachable m ∧ m.indexRoutingTable.lookup (ascii "n.a") = some (ascii "10.1.2.2") ∧
      m.indexRoutingTable.lookup orchSubnetName = some (ascii "10.1.2.3") ∧ m.Consistent := by
  have hreach : Reachable (sampleCalls.foldl step (newSubnetManifest 1 2)) :=
    Reach.foldl (.init ⟨1, 2, rfl⟩) (by simp [sampleCalls, Reach.Passes])
  exact ⟨hreach, by decide, by decide, reachable_consistent hreach⟩

end SubnetManifest

end DMS.Orchestrator
