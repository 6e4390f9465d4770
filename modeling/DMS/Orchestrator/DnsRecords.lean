import DMS.Orchestrator.Commit
import DMS.Orchestrator.Subnet

/-! # The DNS records of a subnet

`addAllocationToSubnet` and the loop of `removeAllocationsFromSubnet` in
`dms/orchestrator/subnet.go`. Addresses are kept by allocation, and records by the name that
`newManifest` makes of the configuration, which the replicas of an allocation share.
-/

namespace DMS.Orchestrator.SubnetManifest

open Jobs AList

variable (mf : EnsembleManifest)

/-- The name of an allocation whose configuration sets none. -/
def unnamed : GoString := ascii ".internal"

structure Resolves (m : SubnetManifest) : Prop where
  named : ∀ a alloc, a ∈ m.indexRoutingTable → mf.allocations.lookup a = some alloc →
    alloc.dnsName ≠ unnamed → alloc.dnsName ∈ m.dnsRecords
  pointed : ∀ name ip, m.dnsRecords.lookup name = some ip → ∃ a alloc,
    m.indexRoutingTable.lookup a = some ip ∧ mf.allocations.lookup a = some alloc ∧
      alloc.dnsName = name

inductive Change
  | add (allocName : GoString)
  | remove (allocName : GoString)

def alter (m : SubnetManifest) : Change → SubnetManifest
  | .add allocName => m.step (.addAllocationToSubnet mf allocName)
  | .remove allocName => m.step (.removeAllocationsFromSubnet mf [allocName])

/-- An allocation is removed only while no other one in the table has the name that its
configuration sets. -/
def Unshared (m : SubnetManifest) : Change → Prop
  | .add _ => True
  | .remove a => ∀ b alloc other, a ∈ m.indexRoutingTable → b ∈ m.indexRoutingTable →
    mf.allocations.lookup a = some alloc → mf.allocations.lookup b = some other →
    alloc.dnsName = other.dnsName → other.dnsName ≠ unnamed → b = a

variable {mf} {m : SubnetManifest}

theorem Resolves.add (h : m.Resolves mf) (a : GoString) : (m.alter mf (.add a)).Resolves mf := by
  change ((m.addAllocationToSubnet mf a).toOption.getD m).Resolves mf
  unfold addAllocationToSubnet
  split
  · exact h
  rename_i habsent
  split
  · exact h
  split
  · exact h
  rename_i alloc halloc
  constructor
  · intro b other hb hother hname
    rcases (mem_insert _).mp hb with rfl | hb
    · cases halloc.symm.trans hother
      exact (mem_insert _).mpr (.inl rfl)
    · exact (mem_insert _).mpr (.inr (h.named b other hb hother hname))
  intro name ip' hip
  by_cases hname : name = alloc.dnsName
  · subst hname
    cases (lookup_insert _).symm.trans hip
    exact ⟨a, alloc, lookup_insert _, halloc, rfl⟩
  obtain ⟨b, other, hb, hother⟩ :=
    h.pointed name ip' ((lookup_insert_ne hname).symm.trans hip)
  refine ⟨b, other, (lookup_insert_ne ?_).trans hb, hother⟩
  rintro rfl
  simp [hb] at habsent

theorem Resolves.remove_iff (h : m.Resolves mf) (a : GoString)
    (hne : ∀ a alloc, mf.allocations.lookup a = some alloc → alloc.dnsName ≠ []) :
    m.Unshared mf (.remove a) ↔ (m.alter mf (.remove a)).Resolves mf := by
  change _ ↔ (m.removeAllocation mf a).Resolves mf
  unfold removeAllocation
  split
  · next hnone => exact iff_of_true (fun _ _ _ _ _ ha => nomatch hnone.symm.trans ha) h
  rename_i alloc halloc
  split
  · next hnone =>
    exact iff_of_true (fun _ _ _ ha => absurd ha (lookup_eq_none.mp hnone)) h
  rename_i ip hip
  have hin : a ∈ m.indexRoutingTable := lookup_isSome.mp (by simp [hip])
  rw [if_neg (hne a alloc halloc)]
  constructor
  · intro hunshared
    constructor
    · intro b other hb hother hname
      obtain ⟨hba, hb⟩ := mem_erase.mp hb
      refine mem_erase.mpr ⟨fun heq => hba ?_, h.named b other hb hother hname⟩
      exact hunshared b alloc other hin hb halloc hother heq.symm hname
    intro name ip' hip'
    have hname : name ≠ alloc.dnsName := by
      rintro rfl
      simp at hip'
    obtain ⟨b, other, hb, hother, rfl⟩ :=
      h.pointed name ip' ((lookup_erase_ne hname).symm.trans hip')
    refine ⟨b, other, (lookup_erase_ne ?_).trans hb, hother, rfl⟩
    rintro rfl
    cases halloc.symm.trans hother
    exact hname rfl
  rintro hresolves b _ other _ hb halloc' hother heq hname
  cases halloc.symm.trans halloc'
  by_contra hba
  have hrecord := hresolves.named b other (mem_erase.mpr ⟨hba, hb⟩) hother hname
  exact (mem_erase.mp hrecord).1 heq.symm

theorem dnsName_ne_nil {eid cfg a alloc}
    (h : (newManifest eid cfg).allocations.lookup a = some alloc) :
    alloc.dnsName ≠ [] := by
  rcases GoMap.lookup_insertAll_cases h with hin | hempty
  · obtain ⟨e, -, hin⟩ := List.mem_flatMap.mp hin
    obtain ⟨key, -, hkey⟩ := List.mem_filterMap.mp hin
    unfold newAllocationManifest at hkey
    split at hkey
    · obtain ⟨acfg, -, hkey⟩ := Option.bind_eq_some_iff.mp hkey
      obtain ⟨id, -, ⟨⟩⟩ := Option.map_eq_some_iff.mp hkey
      exact List.append_ne_nil_of_right_ne_nil _ (by decide)
    · cases hkey
  · cases hempty

/-- Along a run that adds and removes allocations of an ensemble the names keep resolving
exactly when no allocation is removed that shares its name. -/
theorem names_resolve_iff (eid : GoString) (cfg : EnsembleConfig) (b1 b2 : UInt8)
    (changes : List Change) : (∀ past, past <+: changes →
      (past.foldl (alter (newManifest eid cfg)) (newSubnetManifest b1 b2)).Resolves
        (newManifest eid cfg)) ↔
    Reach.Passes (Unshared (newManifest eid cfg)) (alter (newManifest eid cfg))
      (newSubnetManifest b1 b2) changes := by
  have hstep (m : SubnetManifest) (c : Change) (h : m.Resolves (newManifest eid cfg)) :
      m.Unshared (newManifest eid cfg) c ↔
        (m.alter (newManifest eid cfg) c).Resolves (newManifest eid cfg) := by
    cases c with
    | add a => exact iff_of_true trivial (h.add a)
    | remove a => exact h.remove_iff a fun _ _ => dnsName_ne_nil
  have hstart : (newSubnetManifest b1 b2).Resolves (newManifest eid cfg) :=
    ⟨fun _ _ ha => absurd ha (notMem_empty _), fun _ _ h => nomatch h⟩
  exact (Reach.passes_iff_forall (Resolves _) (Resolves _) changes hstart hstart hstep
    fun m c h => (hstep m c h).mp).symm

def replicated : EnsembleConfig :=
  ⟨(∅ : GoMap GoString AllocationConfig).insert (ascii "a") ⟨ascii "web", []⟩,
    (∅ : GoMap GoString NodeConfig).insert (ascii "n") ⟨[ascii "a"], [], ⟨[], []⟩, [], 1⟩,
    [], ⟨[], []⟩, []⟩

/-- A primary and its replica are added, and the replica is removed: the primary keeps its
address and has no record. -/
theorem replica_takes_name : let mf := newManifest (ascii "e") replicated
    let m := [.add (ascii "n.a"), .add (ascii "n-standby-1.a"),
      .remove (ascii "n-standby-1.a")].foldl (alter mf) (newSubnetManifest 1 2)
    m.indexRoutingTable.lookup (ascii "n.a") = some (ascii "10.1.2.2") ∧
      (mf.allocations.lookup (ascii "n.a")).map AllocationManifest.dnsName =
        some (ascii "web.internal") ∧ m.dnsRecords.lookup (ascii "web.internal") = none := by
  decide

end DMS.Orchestrator.SubnetManifest
