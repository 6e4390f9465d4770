import Mathlib.Data.Finset.Card
import Mathlib.Order.Interval.Finset.Nat
import DMS.Orchestrator.Subnet

/-! # Room for the members of a subnet

The network of a subnet has 256 addresses; `GetNextIP` visits those that end in 1 to 254, and the
first of them is the gateway's. The tables are keyed by the texts of the addresses.
-/

namespace DMS.Orchestrator

open Jobs List

theorem not_mem_itoa {c : UInt8} (hc : ¬ (48 ≤ c ∧ c ≤ 57)) (n : Nat) : c ∉ itoa n :=
  fun h => hc ((digitsValue_itoa n).2 c h)

theorem splitOn_string (ip : IPv4) : ip.string.splitOn dot =
    [itoa ip.b0.toNat, itoa ip.b1.toNat, itoa ip.b2.toNat, itoa ip.b3.toNat] := by
  have hdot := not_mem_itoa (c := dot) (by decide)
  simp only [IPv4.string, append_assoc, cons_append]
  repeat rw [splitOn_append_cons_self, splitOn_eq_singleton (hdot _)]
  rw [splitOn_eq_singleton (hdot _)]
  rfl

theorem parseIPv4_string (ip : IPv4) : parseIPv4 ip.string = some ip := by
  have hall : ∀ n < 256, parseOctet (itoa n) = some (UInt8.ofNat n) := by decide +kernel
  have hoctet (b : UInt8) : parseOctet (itoa b.toNat) = some b := by
    rw [hall _ b.toNat_lt, UInt8.ofNat_toNat]
  rw [parseIPv4, splitOn_string]
  simp only [map_cons, map_nil, hoctet]

section Network

variable (b1 b2 : UInt8) {used : GoString → Bool}

/-- The address that ends in `n`. -/
def subnetIP (n : Nat) : IPv4 := ⟨10, b1, b2, UInt8.ofNat n⟩

variable {b1 b2} in
/-- Different addresses have different texts. -/
theorem eq_of_subnetIP {n n' : Nat} (hn : n < 256) (hn' : n' < 256)
    (h : (subnetIP b1 b2 n).string = (subnetIP b1 b2 n').string) : n = n' := by
  have hparse := congrArg parseIPv4 h
  rw [parseIPv4_string, parseIPv4_string, Option.some.injEq] at hparse
  have hlast := congrArg (fun ip => ip.b3.toNat) hparse
  simp only [subnetIP, UInt8.toNat_ofNat'] at hlast
  omega

theorem mask_subnetIP (n : Nat) : (subnetIP b1 b2 n).mask 24 = subnetIP b1 b2 0 := by
  have hbyte (b : UInt8) : b &&& 255 = b := UInt8.and_neg_one
  simp [IPv4.mask, maskByte, subnetIP, hbyte]

/-- A search that finds nothing has seen that the addresses up to 254 are in use. -/
theorem used_of_searchIP {n fuel : Nat} (hn : n ≤ 254) (hfuel : 254 < fuel + n)
    (h : searchIP used ⟨subnetIP b1 b2 0, 24⟩ 24 fuel (some (subnetIP b1 b2 n)) = none) :
    ∀ k, n ≤ k → k ≤ 254 → used (subnetIP b1 b2 k).string = true := by
  induction fuel generalizing n with
  | zero => omega
  | succ fuel ih =>
    rw [searchIP, if_neg (by simp [IPNet.contains, mask_subnetIP])] at h
    split at h
    · cases h
    rename_i hused
    intro k hk hlast
    by_cases heq : k = n
    · subst heq
      simpa using hused
    have hnext : nextIP (subnetIP b1 b2 n) 24 = some (subnetIP b1 b2 (n + 1)) := by
      have hne : UInt8.ofNat n ≠ 254 := fun h => by
        have := congrArg UInt8.toNat h
        rw [UInt8.toNat_ofNat'] at this
        change _ = 254 at this
        omega
      simp [nextIP, subnetIP, hne]
    rw [hnext] at h
    exact ih (by omega) (by omega) h k (by omega) hlast

theorem cidr_parts :
    (getRandomCIDRInRange b1 b2).splitOn slash = [(subnetIP b1 b2 0).string, itoa 24] ∧
    parseCIDR (getRandomCIDRInRange b1 b2) = some ⟨subnetIP b1 b2 0, 24⟩ := by
  have hslash := not_mem_itoa (c := slash) (by decide)
  have hstring : slash ∉ (subnetIP b1 b2 0).string := by
    simp [IPv4.string, hslash, show slash ≠ dot by decide]
  have hcidr : getRandomCIDRInRange b1 b2 = (subnetIP b1 b2 0).string ++ slash :: itoa 24 := rfl
  refine ⟨splitOn_two_parts hstring (hslash 24), ?_⟩
  rw [parseCIDR, hcidr, cut_singleton hstring]
  have hne : itoa 24 ≠ [] := by decide +kernel
  simp [parseIPv4_string, (digitsValue_itoa 24).1, mask_subnetIP, hne]

theorem used_of_getNextIP {e} (h : getNextIP (getRandomCIDRInRange b1 b2) used = .error e) :
    ∀ n, 1 ≤ n → n ≤ 254 → used (subnetIP b1 b2 n).string = true := by
  have hfirst : { subnetIP b1 b2 0 with b3 := (subnetIP b1 b2 0).b3 + 1 } = subnetIP b1 b2 1 := rfl
  rw [getNextIP, (cidr_parts b1 b2).1, (cidr_parts b1 b2).2] at h
  simp only [show atoi (itoa 24) = some 24 by decide +kernel, mask_subnetIP, hfirst] at h
  split at h
  · cases h
  · next hsearch => exact used_of_searchIP b1 b2 (by decide) (by decide) hsearch

end Network

namespace SubnetManifest

variable {b1 b2 : UInt8} {m : SubnetManifest}

/-- The subnet is the network `10.b1.b2.0/24`. -/
structure IsNetwork (b1 b2 : UInt8) (m : SubnetManifest) : Prop where
  cidr : m.cidr = getRandomCIDRInRange b1 b2
  gateway : m.gatewayIP = (subnetIP b1 b2 1).string
  broadcast : m.broadcastIP = (subnetIP b1 b2 255).string

theorem isNetwork_newSubnetManifest (b1 b2 : UInt8) :
    (newSubnetManifest b1 b2).IsNetwork b1 b2 := by
  have hone : ascii "1" = itoa 1 ∧ ascii "255" = itoa 255 := by decide +kernel
  constructor <;> rw [newSubnetManifest, (cidr_parts b1 b2).1] <;>
    simp only [headD_cons, splitOn_string, hone] <;> rfl

theorem addAllocationToSubnet_network (h : m.IsNetwork b1 b2) (mf : EnsembleManifest)
    (name : GoString) : ((m.addAllocationToSubnet mf name).toOption.getD m).IsNetwork b1 b2 := by
  unfold addAllocationToSubnet
  repeat' split
  all_goals exact ⟨h.cidr, h.gateway, h.broadcast⟩

theorem joinOrchestrator_network (h : m.IsNetwork b1 b2) (hostID : GoString) :
    ((m.joinOrchestrator hostID).toOption.getD m).IsNetwork b1 b2 := by
  unfold joinOrchestrator
  repeat' split
  all_goals exact ⟨h.cidr, h.gateway, h.broadcast⟩

theorem removeAllocations_network (h : m.IsNetwork b1 b2) (mf : EnsembleManifest)
    (names : List GoString) : (names.foldl (removeAllocation mf) m).IsNetwork b1 b2 := by
  refine List.foldlRecOn _ _ h fun m h name _ => ?_
  unfold removeAllocation
  repeat' split
  all_goals exact ⟨h.cidr, h.gateway, h.broadcast⟩

theorem addAllocations_network (h : m.IsNetwork b1 b2) (mf : EnsembleManifest)
    (names : List GoString) : (m.addAllocations mf names).1.IsNetwork b1 b2 := by
  induction names generalizing m with
  | nil => exact h
  | cons name names ih =>
    have hadd := addAllocationToSubnet_network h mf name
    unfold addAllocations
    split
    · exact h
    · next heq =>
      rw [heq] at hadd
      exact ih hadd

theorem step_network (h : m.IsNetwork b1 b2) (op : Op) : ∃ b1 b2, (m.step op).IsNetwork b1 b2 := by
  cases op with
  | newSubnetManifest b1 b2 => exact ⟨b1, b2, isNetwork_newSubnetManifest b1 b2⟩
  | addAllocationToSubnet mf name => exact ⟨b1, b2, addAllocationToSubnet_network h mf name⟩
  | removeAllocationsFromSubnet mf names => exact ⟨b1, b2, removeAllocations_network h mf names⟩
  | joinOrchestrator hostID => exact ⟨b1, b2, joinOrchestrator_network h hostID⟩
  | provisionSubnet order mf join hostID =>
    refine ⟨b1, b2, ?_⟩
    have hadded := addAllocations_network h mf (order.visit mf.allocations.keys)
    unfold step provisionSubnet
    dsimp only
    split
    · next heq => rwa [heq] at hadded
    rename_i heq
    rw [heq] at hadded
    have hjoin := joinOrchestrator_network hadded hostID
    split
    · split
      · exact hadded
      · next heq' => rwa [heq'] at hjoin
    · exact hadded
  | revertSubnetManifest => exact ⟨b1, b2, h.cidr, h.gateway, h.broadcast⟩
  | removeNodeFromSubnet mf name =>
    refine ⟨b1, b2, ?_⟩
    unfold step removeNodeFromSubnet
    dsimp only
    split
    · exact h
    · exact removeAllocations_network h mf _

theorem length_keys_insert_le {K V : Type} [DecidableEq K] (t : GoMap K V) (k : K) (v : V) :
    (t.insert k v).keys.length ≤ t.keys.length + 1 := by
  rw [AList.keys_insert, length_cons]
  exact Nat.succ_le_succ length_erase_le

/-- With fewer members than addresses between those of the gateway and the broadcast, one of the
addresses is free. -/
theorem exists_getNextIP (h : m.Sound) (hnet : m.IsNetwork b1 b2)
    (hroom : m.indexRoutingTable.keys.length < 253) : ∃ ip, getNextIP m.cidr m.isUsed = .ok ip := by
  cases hnext : getNextIP m.cidr m.isUsed with
  | ok ip => exact ⟨ip, rfl⟩
  | error e =>
    rw [hnet.cidr] at hnext
    have hused := used_of_getNextIP b1 b2 hnext
    have hname : ∀ n ∈ Finset.Icc 2 254, ∃ name,
        m.indexRoutingTable.lookup name = some (subnetIP b1 b2 n).string := by
      intro n hn
      rw [Finset.mem_Icc] at hn
      rcases (h.consistent.used _).mp (hused n (by omega) hn.2) with hheld | hgate | hbroad
      · exact hheld
      · have := eq_of_subnetIP (by omega) (by decide) (hgate.trans hnet.gateway)
        omega
      · have := eq_of_subnetIP (by omega) (by decide) (hbroad.trans hnet.broadcast)
        omega
    choose! f hf using hname
    have hkeys : Set.MapsTo f (Finset.Icc 2 254) m.indexRoutingTable.keys.toFinset := by
      intro n hn
      rw [Finset.mem_coe, mem_toFinset, ← AList.mem_keys, ← AList.lookup_isSome, hf n hn]
      rfl
    have hinj : Set.InjOn f (Finset.Icc 2 254) := by
      intro n hn n' hn' heq
      have hsame := hf n hn
      rw [heq, hf n' hn', Option.some.injEq] at hsame
      rw [Finset.coe_Icc, Set.mem_Icc] at hn hn'
      exact (eq_of_subnetIP (by omega) (by omega) hsame).symm
    have hcard := Finset.card_le_card_of_injOn f hkeys hinj
    have hle := toFinset_card_le m.indexRoutingTable.keys
    rw [Nat.card_Icc] at hcard
    omega

theorem addAllocationToSubnet_room (h : m.Sound) (hnet : m.IsNetwork b1 b2)
    (hroom : m.indexRoutingTable.keys.length < 253) {mf name} (hname : name ∈ mf.allocations) :
    ∃ m', m.addAllocationToSubnet mf name = .ok m' ∧
      m'.indexRoutingTable.keys.length ≤ m.indexRoutingTable.keys.length + 1 ∧
      ∀ name', name' = name ∨ name' ∈ m.indexRoutingTable → name' ∈ m'.indexRoutingTable := by
  obtain ⟨ip, hip⟩ := exists_getNextIP h hnet hroom
  obtain ⟨entry, hentry⟩ := GoMap.exists_lookup hname
  rw [addAllocationToSubnet, hip, hentry]
  split
  · next hmem =>
    refine ⟨m, rfl, Nat.le_succ _, ?_⟩
    rintro _ (rfl | hold)
    · exact AList.lookup_isSome.mp hmem
    · exact hold
  · refine ⟨_, rfl, ?_, ?_⟩
    · exact length_keys_insert_le _ _ _
    · simp

theorem addAllocations_room {mf names} (h : m.Sound) (hnet : m.IsNetwork b1 b2)
    (hroom : m.indexRoutingTable.keys.length + names.length ≤ 253)
    (hnames : ∀ name ∈ names, name ∈ mf.allocations) :
    (m.addAllocations mf names).2 = none ∧
      (m.addAllocations mf names).1.indexRoutingTable.keys.length ≤
        m.indexRoutingTable.keys.length + names.length ∧
      ∀ name, name ∈ names ∨ name ∈ m.indexRoutingTable →
        name ∈ (m.addAllocations mf names).1.indexRoutingTable := by
  induction names generalizing m with
  | nil => exact ⟨rfl, Nat.le_refl _, by simp [addAllocations]⟩
  | cons name names ih =>
    rw [length_cons] at hroom ⊢
    obtain ⟨m', hadd, hle, hmem⟩ := addAllocationToSubnet_room h hnet (by omega)
      (hnames name (.head _))
    have hnet' := addAllocationToSubnet_network hnet mf name
    rw [hadd] at hnet'
    obtain ⟨hok, hle', hmem'⟩ := ih (h.addAllocationToSubnet hadd) hnet' (by omega)
      fun n hn => hnames n (.tail _ hn)
    simp only [addAllocations, hadd]
    refine ⟨hok, by omega, fun n hn => hmem' n ?_⟩
    rw [mem_cons, or_assoc, or_left_comm] at hn
    exact hn.imp_right (hmem n)

/-- Whatever was done to a subnet before, provisioning it does not run out of addresses while its
members and the allocations are fewer than 253, and every allocation gets an address. -/
theorem provisionSubnet_room (h : m.Reachable) {mf : EnsembleManifest}
    (hroom : m.indexRoutingTable.keys.length + mf.allocations.keys.length < 253)
    (order : RangeOrder) (join : Bool) (hostID : GoString) :
    let result := m.provisionSubnet order mf join hostID
    result.2 = none ∧ ∀ name ∈ mf.allocations, name ∈ result.1.indexRoutingTable := by
  obtain ⟨hsound, b1, b2, hnet⟩ : m.Sound ∧ ∃ b1 b2, m.IsNetwork b1 b2 := by
    refine Reach.invariant (fun m => m.Sound ∧ ∃ b1 b2, m.IsNetwork b1 b2) ?_ ?_ h
    · rintro _ ⟨b1, b2, rfl⟩
      exact ⟨sound_newSubnetManifest b1 b2, b1, b2, isNetwork_newSubnetManifest b1 b2⟩
    · rintro m op ⟨hsound, b1, b2, hnet⟩ -
      exact ⟨hsound.step op, step_network hnet op⟩
  have hlen := (order.perm mf.allocations.keys).length_eq
  have hnames : ∀ name ∈ order.visit mf.allocations.keys, name ∈ mf.allocations := fun name hn =>
    AList.mem_keys.mpr (order.mem_visit.mp hn)
  obtain ⟨hok, hle, hmem⟩ := addAllocations_room hsound hnet (by omega) hnames
  have hsound' := hsound.addAllocations mf (order.visit mf.allocations.keys)
  have hnet' := addAllocations_network hnet mf (order.visit mf.allocations.keys)
  obtain ⟨m', hadded⟩ : ∃ m', m.addAllocations mf (order.visit mf.allocations.keys) = (m', none) :=
    ⟨_, Prod.ext rfl hok⟩
  rw [hadded] at hle hmem hsound' hnet'
  have hall : ∀ name ∈ mf.allocations, name ∈ m'.indexRoutingTable := fun name hn =>
    hmem name (.inl (order.mem_visit.mpr (AList.mem_keys.mp hn)))
  obtain ⟨ip, hip⟩ := exists_getNextIP hsound' hnet' (by dsimp only at hle ⊢; omega)
  simp only [provisionSubnet, hadded]
  split
  · simp only [joinOrchestrator, hip]
    by_cases horch : (m'.indexRoutingTable.lookup orchSubnetName).isSome
    · rw [if_pos horch]
      exact ⟨rfl, hall⟩
    · rw [if_neg horch]
      exact ⟨rfl, fun name hn => by simp [hall name hn]⟩
  · exact ⟨rfl, hall⟩

/-- `sampleMembers` with an allocation that has no address yet. -/
def sampleJoined : EnsembleManifest :=
  { sampleMembers with
    allocations := sampleMembers.allocations.insert (ascii "n.b")
      { AllocationManifest.zero with nodeID := ascii "n", dnsName := ascii "b.internal" } }

theorem provisionSubnet_room_sample : let m := sampleCalls.foldl step (newSubnetManifest 1 2)
    m.Reachable ∧ ascii "n.b" ∉ m.indexRoutingTable ∧
      let result := m.provisionSubnet .stored sampleJoined true []
      result.2 = none ∧ ascii "n.b" ∈ result.1.indexRoutingTable := by
  have hreach : Reachable (sampleCalls.foldl step (newSubnetManifest 1 2)) :=
    Reach.foldl (.init ⟨1, 2, rfl⟩) (by simp [sampleCalls, Reach.Passes])
  have hroom : (sampleCalls.foldl step (newSubnetManifest 1 2)).indexRoutingTable.keys.length +
      sampleJoined.allocations.keys.length < 253 := by
    decide
  obtain ⟨hok, hall⟩ := provisionSubnet_room hreach hroom .stored true []
  exact ⟨hreach, by decide, hok, hall (ascii "n.b") (by decide)⟩

end SubnetManifest

end DMS.Orchestrator
