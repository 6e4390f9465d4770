import DMS.Node.Allocator
import DMS.Resources.Capacity

/-! # Taking a commitment back

When does `Uncommit` undo `Commit`, and the revert of a deployment an `Allocate` that failed?
Resources are keyed by the identifier in the request, ports and commits by the one of the call, and
an allocation has one list for its static and dynamic ports.
-/

namespace DMS.Node

open DMS.Types Resources PortAllocator List

variable {κ : Type}

namespace PortAllocator

variable {pa : PortAllocator} {id : GoString}

structure Same (pa pa' : PortAllocator) : Prop where
  reserved : pa.reserved = pa'.reserved
  allocations : GoMap.Same pa.allocations pa'.allocations

theorem Same.refl (pa : PortAllocator) : Same pa pa := ⟨rfl, .refl _⟩

theorem release_allocations (id : GoString) (pa : PortAllocator) :
    (pa.release id).allocations = pa.allocations.erase id := by
  unfold release
  cases hlookup : pa.allocations.lookup id with
  | none =>
    have habsent := AList.lookup_eq_none.mp hlookup
    exact (AList.ext (kerase_of_notMem_keys habsent)).symm
  | some allocated => rfl

theorem release_reserve {free text ports r} (hok : (pa.reserve free text id ports).2 = .ok r) :
    let after := (pa.reserve free text id ports).1.release id
    after.reserved = pa.reserved ∧
      after.allocations = (pa.allocations.insert id ports).erase id := by
  obtain ⟨rfl, hfresh, hstate⟩ := reserve_ok hok
  dsimp only
  rw [hstate, release_allocations, release_reserved, ports_insert, if_pos rfl]
  refine ⟨?_, rfl⟩
  rw [Finset.union_sdiff_right, Finset.sdiff_eq_self_iff_disjoint, Finset.disjoint_right]
  simpa using hfresh

theorem same_release_iff : Same (pa.release id) pa ↔ id ∉ pa.allocations := by
  constructor
  · intro h
    have hlists := h.allocations
    rw [release_allocations] at hlists
    exact GoMap.Same.erase_iff.mp hlists
  intro habsent
  have hnone : pa.ports id = [] := by
    simp [ports, GoMap.list, AList.lookup_eq_none.mpr habsent]
  refine ⟨by rw [release_reserved, hnone]; simp, ?_⟩
  rw [release_allocations]
  exact GoMap.Same.erase_iff.mpr habsent

end PortAllocator

section Ports

variable {env : CommitEnv κ} {id : GoString} {ports : GoMap Int Int}
  {n : Int} {pa pa' : PortAllocator}

/-- The keys of the map of ports, in the order in which `Commit` ranges over them. -/
def CommitEnv.staticPorts (env : CommitEnv κ) (ports : GoMap Int Int) : List Int :=
  env.call.order.visit ports.keys

theorem staticPorts_eq_nil : env.staticPorts ports = [] ↔ ports.keys = [] := by
  have hperm : (env.staticPorts ports).Perm ports.keys := env.call.order.perm ports.keys
  rw [← length_eq_zero_iff, ← length_eq_zero_iff, hperm.length_eq]

theorem same_release_static_iff {static u} (hok : pa.allocate env.static id static = (pa', .ok u)) :
    (pa'.release id).Same pa ↔ id ∉ pa.allocations := by
  by_cases hnil : static = []
  · rw [allocate, if_pos hnil] at hok
    obtain ⟨rfl, _⟩ := Prod.mk.inj hok
    exact same_release_iff
  rw [allocate_of_ne_nil hnil] at hok
  obtain ⟨rfl, hresult⟩ := Prod.mk.inj hok
  cases hres : (pa.reserve env.static.bind cannotAllocate id static).2 with
  | error e => simp [hres, Except.map] at hresult
  | ok r =>
    obtain ⟨hreserved, hlists⟩ := release_reserve hres
    constructor
    · intro h
      have hsame := h.allocations
      rw [hlists] at hsame
      exact GoMap.Same.erase_insert_iff.mp hsame
    intro habsent
    refine ⟨hreserved, ?_⟩
    rw [hlists]
    exact GoMap.Same.erase_insert_iff.mpr habsent

theorem same_release_dynamic_iff {pa'' static r u}
    (hstatic : pa.allocate env.static id static = (pa', .ok u))
    (hdynamic : pa'.allocateRandom env.dynamic id n = (pa'', .ok r)) :
    (pa''.release id).Same pa ↔ id ∉ pa.allocations ∧ static = [] := by
  have hresult := congrArg Prod.snd hdynamic
  rw [allocateRandom_ok hresult] at hdynamic hresult
  obtain ⟨hreserved, hlists⟩ := release_reserve hresult
  rw [hdynamic] at hreserved hlists
  by_cases hnil : static = []
  · rw [allocate, if_pos hnil] at hstatic
    obtain ⟨rfl, _⟩ := Prod.mk.inj hstatic
    simp only [hnil, and_true]
    rw [← GoMap.Same.erase_insert_iff, ← hlists]
    exact ⟨fun h => h.allocations, fun h => ⟨hreserved, h⟩⟩
  rw [allocate_of_ne_nil hnil] at hstatic
  obtain ⟨rfl, hok⟩ := Prod.mk.inj hstatic
  cases hres : (pa.reserve env.static.bind cannotAllocate id static).2 with
  | error e => simp [hres, Except.map] at hok
  | ok result' =>
    obtain ⟨_, hfresh, hstate⟩ := reserve_ok hres
    simp only [hnil, and_false, iff_false]
    intro h
    have hunion := h.reserved
    rw [hreserved, hstate] at hunion
    obtain ⟨port, hport⟩ := exists_mem_of_ne_nil static hnil
    apply hfresh port hport
    rw [← hunion]
    simp [hport]

/-- The condition on the ports. A failure for the static ones frees all of them; later
the list of the allocation is released, whatever was on it before. -/
def PortsReversible (env : CommitEnv κ) (allocationID : GoString) (ports : GoMap Int Int)
    (numDynamicPorts : Int) (pa : PortAllocator) : Prop :=
  match pa.allocate env.static allocationID (env.staticPorts ports) with
  | (_, .error _) => ∀ port ∈ ports.keys, port ∉ pa.reserved
  | (pa', .ok _) =>
    allocationID ∉ pa.allocations ∧ (ports.keys = [] ∨ numDynamicPorts ≤ 0 ∨
        (pa'.allocateRandom env.dynamic allocationID numDynamicPorts).2.isOk = false)

/-- The ports after the two calls: those that `Commit` left, when it failed, and else
those that `Uncommit` releases. -/
def portTrip (env : CommitEnv κ) (allocationID : GoString) (ports : GoMap Int Int)
    (numDynamicPorts : Int) (pa : PortAllocator) : PortAllocator :=
  match commitPorts env allocationID ports numDynamicPorts pa with
  | (pa, .error _) => pa
  | (pa, .ok _) => pa.release allocationID

theorem same_portTrip_iff (env : CommitEnv κ) (id : GoString) (ports : GoMap Int Int)
    (n : Int) (pa : PortAllocator) : (portTrip env id ports n pa).Same pa ↔
      PortsReversible env id ports n pa := by
  unfold portTrip commitPorts PortsReversible CommitEnv.staticPorts
  rcases hstatic : pa.allocate env.static id (env.call.order.visit ports.keys) with
    ⟨pa', e | u⟩
  · have hstate := allocate_error (congrArg Prod.snd hstatic)
    rw [hstatic] at hstate
    simp only at hstate
    simp only [hstate]
    have hmem : (∀ port ∈ ports.keys, port ∉ pa.reserved) ↔
        ∀ port ∈ env.call.order.visit ports.keys, port ∉ pa.reserved := by
      simp [RangeOrder.mem_visit]
    rw [hmem, ← sdiff_reserved_eq_self]
    constructor
    · intro h
      rw [show pa.reserved \ _ = pa.reserved from h.reserved]
    intro h
    rw [h]
    exact .refl pa
  have hkeep := same_release_static_iff hstatic
  dsimp only
  by_cases hn : n > 0
  · rw [if_pos hn]
    rcases hdynamic : pa'.allocateRandom env.dynamic id n with
      ⟨pa'', e | r⟩
    · have hstate := allocateRandom_error (congrArg Prod.snd hdynamic)
      rw [hdynamic] at hstate
      simp only at hstate
      simp [hstate, hkeep, Except.isOk, Except.toBool, or_true, and_true]
    have hnil : env.call.order.visit ports.keys = [] ↔ ports.keys = [] := staticPorts_eq_nil
    simp only [same_release_dynamic_iff hstatic hdynamic, hnil, Except.isOk, Except.toBool,
      Bool.true_eq_false, or_false]
    have hpos : ¬ n ≤ 0 := by omega
    simp [hpos, or_false]
  rw [if_neg hn]
  have hneg : n ≤ 0 := by omega
  simp [hkeep, hneg, true_or, or_true, and_true]

end Ports

section Resources

variable [Cores κ] {call : Call κ} {c : CommittedResources κ} {s : Store κ}

theorem commitResources_cases (s : Store κ) (call : Call κ) (c : CommittedResources κ) : ∃ ob,
      (∃ e, s.commitResources call c = ({ s with onboardedResources := ob }, .error e)) ∨
        c.allocationID ∉ s.committedResources ∧ s.commitResources call c =
          ({ s with onboardedResources := ob }.commit c, .ok ()) := by
  unfold Store.commitResources
  split
  · exact ⟨_, .inl ⟨_, rfl⟩⟩
  split
  · exact ⟨_, .inl ⟨_, rfl⟩⟩
  rename_i hfresh
  obtain ⟨ob, hstate⟩ := checkCapacity_maps s call c.resources
  refine ⟨ob, ?_⟩
  split
  · next s' e heq =>
    rw [heq] at hstate
    dsimp only at hstate
    exact .inl ⟨_, by rw [hstate]⟩
  rename_i s' u heq
  rw [heq] at hstate
  dsimp only at hstate
  exact .inr ⟨hfresh, by rw [hstate]⟩

end Resources

namespace Allocator

variable {a : Allocator κ} {id : GoString}

/-- The same commitments, allocated resources, reserved ports and lists of ports. -/
structure Same (a a' : Allocator κ) : Prop where
  committed : GoMap.Same a.resources.committedResources a'.resources.committedResources
  allocated : GoMap.Same a.resources.allocations a'.resources.allocations
  ports : a.ports.Same a'.ports
  commits : GoMap.Same a.commits a'.commits
  commitPorts : GoMap.Same a.commitPorts a'.commitPorts
  commitDynamicPorts : GoMap.Same a.commitDynamicPorts a'.commitDynamicPorts

structure Idle (a : Allocator κ) (allocationID : GoString) : Prop where
  committed : allocationID ∉ a.resources.committedResources
  allocated : allocationID ∉ a.resources.allocations
  commits : allocationID ∉ a.commits
  commitPorts : allocationID ∉ a.commitPorts
  commitDynamicPorts : allocationID ∉ a.commitDynamicPorts
  allocations : allocationID ∉ a.allocations

/-- `Commit`, and `Uncommit` when it succeeded. -/
def commitUncommit [Cores κ] (env : CommitEnv κ) (allocationID : GoString)
    (resources : CommittedResources κ) (ports : GoMap Int Int) (numDynamicPorts expiry : Int)
    (a : Allocator κ) : Allocator κ :=
  match a.commit env allocationID resources ports numDynamicPorts expiry with
  | (a, .ok _) => (a.uncommit allocationID).1
  | (a, .error _) => a

/-- The hardware and the resource manager accept the commitment. -/
def Accepted [Cores κ] (env : CommitEnv κ) (resources : CommittedResources κ)
    (a : Allocator κ) : Prop :=
  env.hardware = .ok true ∧ (a.resources.commitResources env.call resources).2 = .ok ()

def Reversible [Cores κ] (env : CommitEnv κ) (allocationID : GoString)
    (resources : CommittedResources κ) (ports : GoMap Int Int) (numDynamicPorts : Int)
    (a : Allocator κ) : Prop :=
  Accepted env resources a → resources.allocationID = allocationID ∧
    PortsReversible env allocationID ports numDynamicPorts a.ports

theorem hardwareCheck_eq_ok {ans} : hardwareCheck (κ := κ) ans = .ok () ↔ ans = .ok true := by
  unfold hardwareCheck
  split <;> simp

variable {env : CommitEnv κ} {r : CommittedResources κ}

theorem commit_of_not_accepted [Cores κ]
    (h : ¬ Accepted env r a) (id : GoString) (ports : GoMap Int Int) (n exp : Int) :
    ∃ ob e, a.commit env id r ports n exp =
      ({ a with resources := { a.resources with onboardedResources := ob } }, .error e) := by
  unfold commit
  cases hcheck : hardwareCheck env.hardware with
  | error e => exact ⟨a.resources.onboardedResources, e, rfl⟩
  | ok u =>
    obtain ⟨ob, ⟨e, heq⟩ | ⟨_, heq⟩⟩ := commitResources_cases a.resources env.call r
    · exact ⟨ob, _, by rw [heq]⟩
    · exact absurd ⟨hardwareCheck_eq_ok.mp hcheck, by rw [heq]⟩ h

theorem uncommit_of_mem (hcommits : id ∈ a.commits)
    (hcommitted : id ∈ a.resources.committedResources) : (a.uncommit id).1 = { a with
        resources := a.resources.clear id
        ports := a.ports.release id
        commits := a.commits.erase id
        commitPorts := a.commitPorts.erase id
        commitDynamicPorts := a.commitDynamicPorts.erase id } := by
  simp [uncommit, Store.uncommitResources, hcommits, hcommitted]

theorem uncommit_of_not_mem (hcommitted : id ∉ a.resources.committedResources) :
    (a.uncommit id).1 = { a with ports := a.ports.release id } := by
  by_cases hcommits : id ∈ a.commits
  · simp [uncommit, Store.uncommitResources, hcommits, hcommitted]
  · simp [uncommit, hcommits]

theorem same_commitUncommit_iff_ports [Cores κ] (hidle : a.Idle id) (haccepted : Accepted env r a)
    (hid : r.allocationID = id) (ports : GoMap Int Int) (n exp : Int) :
    (a.commitUncommit env id r ports n exp).Same a ↔
      (portTrip env id ports n a.ports).Same a.ports := by
  obtain ⟨ob, ⟨e, heq⟩ | ⟨_, heq⟩⟩ := commitResources_cases a.resources env.call r
  · have hok := haccepted.2
    simp [heq] at hok
  subst hid
  have hcleared := GoMap.Same.erase_insert_iff (v := r).mpr hidle.committed
  rw [commitUncommit, commit, portTrip, hardwareCheck_eq_ok.mpr haccepted.1, heq]
  rcases Node.commitPorts env r.allocationID ports n a.ports with ⟨pa, e | u⟩
  · simp only [Store.uncommitResources, Store.commit, AList.mem_insert, true_or,
      not_true_eq_false, if_false, Store.clear]
    exact ⟨fun h => h.ports, fun h => ⟨hcleared, .refl _, h, .refl _, .refl _, .refl _⟩⟩
  dsimp only
  rw [uncommit_of_mem (by simp) (by simp [Store.commit])]
  exact ⟨fun h => h.ports, fun h => ⟨hcleared, .refl _, h,
    GoMap.Same.erase_insert_iff.mpr hidle.commits,
    GoMap.Same.erase_insert_iff.mpr hidle.commitPorts,
    GoMap.Same.erase_insert_iff.mpr hidle.commitDynamicPorts⟩⟩

theorem not_same_commitUncommit [Cores κ] (hidle : a.Idle id) (haccepted : Accepted env r a)
    (hid : r.allocationID ≠ id) (ports : GoMap Int Int) (n exp : Int) :
    ¬ (a.commitUncommit env id r ports n exp).Same a := by
  obtain ⟨ob, ⟨e, heq⟩ | ⟨hfresh, heq⟩⟩ := commitResources_cases a.resources env.call r
  · have hok := haccepted.2
    simp [heq] at hok
  have habsent : id ∉ a.resources.committedResources.insert r.allocationID r := by
    simp [AList.mem_insert, hid.symm, hidle.committed]
  rw [commitUncommit, commit, hardwareCheck_eq_ok.mpr haccepted.1, heq]
  rcases Node.commitPorts env id ports n a.ports with ⟨pa, e | u⟩
  · intro h
    refine h.committed.not_mem hfresh ?_
    simp [Store.uncommitResources, Store.commit, habsent]
  intro h
  dsimp only at h
  rw [uncommit_of_not_mem habsent] at h
  exact h.commits.not_mem hidle.commits (by simp)

end Allocator

/-- A `Commit` that fails, or that succeeds and is followed by `Uncommit`, leaves the
resources and ports as they were exactly when the commitment is reversible. -/
theorem commit_uncommit_identity_iff [Cores κ] (env : CommitEnv κ) (allocationID : GoString)
    (resources : CommittedResources κ) (ports : GoMap Int Int) (numDynamicPorts expiry : Int)
    (a : Allocator κ) (hidle : a.Idle allocationID) :
    (a.commitUncommit env allocationID resources ports numDynamicPorts expiry).Same a ↔
      Allocator.Reversible env allocationID resources ports numDynamicPorts a := by
  unfold Allocator.Reversible
  by_cases haccepted : Allocator.Accepted env resources a
  · by_cases hid : resources.allocationID = allocationID
    · rw [Allocator.same_commitUncommit_iff_ports hidle haccepted hid, same_portTrip_iff]
      simp [haccepted, hid]
    have hnot := Allocator.not_same_commitUncommit hidle haccepted hid ports numDynamicPorts expiry
    simp [hnot, haccepted, hid]
  obtain ⟨onboarded, e, heq⟩ :=
    Allocator.commit_of_not_accepted haccepted allocationID ports numDynamicPorts expiry
  simp only [haccepted, false_imp_iff, iff_true, Allocator.commitUncommit, heq]
  exact ⟨.refl _, .refl _, .refl _, .refl _, .refl _, .refl _⟩

def sampleAllocator : Allocator Hundredths := ⟨.new, samplePorts, ∅, ∅, ∅, ∅⟩

def sampleCommitEnv : CommitEnv Hundredths := ⟨.ok true, sampleCall, allFree, allFree, 0⟩

def sampleCommitment (id : String) : CommittedResources Hundredths := ⟨⟨⟨100⟩, [], 4, 8⟩, ascii id⟩

def samplePortMap : GoMap Int Int := (∅ : GoMap Int Int).insert 30000 80

def committedAllocator : Allocator Hundredths :=
  (sampleAllocator.commit sampleCommitEnv (ascii "a") (sampleCommitment "a") samplePortMap 0 60).1

theorem commit_uncommit_identity_static :
    (sampleAllocator.commit sampleCommitEnv (ascii "a") (sampleCommitment "a") samplePortMap 0
        60).2 = .ok () ∧
      (sampleAllocator.commitUncommit sampleCommitEnv (ascii "a") (sampleCommitment "a")
        samplePortMap 0 60).Same sampleAllocator := by
  refine ⟨by rfl, (commit_uncommit_identity_iff _ _ _ _ _ _ _
    (show sampleAllocator.Idle _ from ⟨nofun, nofun, nofun, nofun, nofun, nofun⟩)).mpr ?_⟩
  intro _
  exact ⟨rfl, by decide, .inr (.inl (by decide))⟩

/-- Three commitments that leave something behind: for another identifier, for static and dynamic
ports, and for the port of another allocation, which it frees. -/
theorem commit_uncommit_leaves_traces :
    ((sampleAllocator.commit sampleCommitEnv (ascii "a") (sampleCommitment "b") ∅ 0 60).2 = .ok () ∧
      ¬ (sampleAllocator.commitUncommit sampleCommitEnv (ascii "a") (sampleCommitment "b") ∅ 0
        60).Same sampleAllocator) ∧
    ((sampleAllocator.commit sampleCommitEnv (ascii "a") (sampleCommitment "a") samplePortMap 1
        60).2 = .ok () ∧
      ¬ (sampleAllocator.commitUncommit sampleCommitEnv (ascii "a") (sampleCommitment "a")
        samplePortMap 1 60).Same sampleAllocator) ∧ (committedAllocator.Idle (ascii "b") ∧
      (committedAllocator.commit sampleCommitEnv (ascii "b") (sampleCommitment "b") samplePortMap 0
        60).2.isOk = false ∧
      ¬ (committedAllocator.commitUncommit sampleCommitEnv (ascii "b") (sampleCommitment "b")
        samplePortMap 0 60).Same committedAllocator) := by
  refine ⟨⟨by rfl, ?_⟩, ⟨by rfl, ?_⟩,
    ⟨by decide, by decide, by decide, by decide, by decide, by decide⟩, by rfl, ?_⟩
  · intro h
    exact absurd (h.commits (ascii "a")) (by decide)
  · intro h
    exact absurd h.ports.reserved (by decide)
  · intro h
    exact absurd h.ports.reserved (by decide)

namespace Allocator

variable {a : Allocator κ} {id : GoString} {env : AllocateEnv κ}

def promisedPorts (a : Allocator κ) (allocationID : GoString) : List Int :=
  ((a.commitPorts.lookup allocationID).getD ∅).keys

/-- After a revert nothing is left of what the allocation had before. -/
structure Undone (before after : Allocator κ) (allocationID : GoString) : Prop where
  committed : allocationID ∉ after.resources.committedResources
  allocated : allocationID ∉ after.resources.allocations
  listed : after.ports.ports allocationID = []
  free : ∀ port ∈ before.ports.ports allocationID ++ before.promisedPorts allocationID,
    port ∉ after.ports.reserved
  commits : allocationID ∉ after.commits
  commitPorts : allocationID ∉ after.commitPorts
  commitDynamicPorts : allocationID ∉ after.commitDynamicPorts

/-- `Allocate` does not get past the resource manager. -/
def FailsEarly (env : AllocateEnv κ) (allocationID : GoString) (a : Allocator κ) : Prop :=
  env.hardware ≠ .ok true ∨ env.mount ≠ .ok () ∨
    (a.resources.allocateResources env.call allocationID).2 ≠ .ok ()

structure Consistent (a : Allocator κ) (allocationID : GoString) : Prop where
  allocations : allocationID ∉ a.allocations
  committed : allocationID ∈ a.resources.committedResources
  allocated : allocationID ∉ a.resources.allocations
  promised : ∀ port ∈ a.promisedPorts allocationID, port ∈ a.ports.reserved →
    port ∈ a.ports.ports allocationID

theorem allocateResources_cases (s : Store κ) (call : Call κ) (id : GoString) :
    (∃ e, s.allocateResources call id = (s, .error e)) ∨
      ∃ s', s.allocateResources call id = (s', .ok ()) ∧ id ∉ s'.committedResources := by
  unfold Store.allocateResources
  repeat' split
  · exact .inl ⟨_, rfl⟩
  · exact .inl ⟨_, rfl⟩
  · exact .inl ⟨_, rfl⟩
  · exact .inr ⟨_, rfl, by simp [Store.clear]⟩

/-- A failure either comes before the resources are moved, and changes nothing, or
after, when the resource manager has no commitment any more. -/
theorem allocate_error_cases {e} (hcommits : id ∈ a.commits)
    (hfail : (a.allocate env id).2 = .error e) : (FailsEarly env id a ∧ (a.allocate env id).1 = a) ∨
      (¬ FailsEarly env id a ∧ ∃ s, id ∉ s.committedResources ∧
        (a.allocate env id).1 = { a with resources := s }) := by
  unfold allocate at hfail ⊢
  unfold FailsEarly
  rw [if_neg (not_not.mpr hcommits)] at hfail ⊢
  match hhardware : hardwareCheck env.hardware, env.mount, hfail with
  | .error _, _, _ =>
    have hrefused : env.hardware ≠ .ok true := by
      intro h
      simp [hardwareCheck_eq_ok.mpr h] at hhardware
    exact .inl ⟨.inl hrefused, rfl⟩
  | .ok _, .error _, _ => exact .inl ⟨.inr (.inl nofun), rfl⟩
  | .ok _, .ok _, hfail =>
    rcases allocateResources_cases a.resources env.call id with
      ⟨e', heq⟩ | ⟨s', heq, habsent⟩
    · rw [heq]
      exact .inl ⟨.inr (.inr nofun), rfl⟩
    rw [heq] at hfail ⊢
    refine .inr ⟨by simp [hardwareCheck_eq_ok.mp hhardware], s', habsent, ?_⟩
    match env.newAllocation, env.start, hfail with
    | .error _, _, _ => rfl
    | .ok _, .error _, _ => rfl

theorem release_commits (env : ReleaseEnv κ) (id : GoString) (a : Allocator κ) :
    (a.release env id).1.commits = a.commits := by
  unfold release
  dsimp only
  repeat' split
  all_goals rfl

/-- The revert drops the commit only for an allocation that is not registered and whose
commitment the resource manager knows. -/
theorem mem_commits_revert (env : ReleaseEnv κ) (hcommits : id ∈ a.commits)
    (h : id ∈ a.allocations ∨ id ∉ a.resources.committedResources) :
    id ∈ (a.revert env id).commits := by
  unfold revert
  split
  · rw [release_commits]
    exact hcommits
  rename_i hregistered
  rw [uncommit_of_not_mem (h.resolve_left hregistered)]
  exact hcommits

theorem undone_uncommit_iff (hcommits : id ∈ a.commits)
    (hcommitted : id ∈ a.resources.committedResources) : Undone a (a.uncommit id).1 id ↔
      id ∉ a.resources.allocations ∧ ∀ port ∈ a.promisedPorts id,
        port ∈ a.ports.reserved → port ∈ a.ports.ports id := by
  rw [uncommit_of_mem hcommits hcommitted]
  constructor
  · intro h
    refine ⟨h.allocated, ?_⟩
    intro port hport hreserved
    by_contra hlisted
    apply h.free port (mem_append.mpr (.inr hport))
    simp [release_reserved, hreserved, hlisted]
  rintro ⟨hallocated, hpromised⟩
  refine ⟨by simp [Store.clear], hallocated, by simp [ports_release], ?_, by simp, by simp, by simp⟩
  intro port hport
  simp only [release_reserved, Finset.mem_sdiff, mem_toFinset, not_and, not_not]
  intro hreserved
  rcases mem_append.mp hport with hlisted | hstatic
  · exact hlisted
  · exact hpromised port hstatic hreserved

end Allocator

/-- The revert of a failed `Allocate` undoes the commitment exactly when the failure
came before the resources were moved and the books agreed about it. -/
theorem failed_allocate_undone_iff (env : AllocateEnv κ) (revertEnv : ReleaseEnv κ)
    (allocationID : GoString) (a : Allocator κ) (hcommits : allocationID ∈ a.commits)
    (e : GoError (AllocatorCause κ)) (hfail : (a.allocate env allocationID).2 = .error e) :
    Allocator.Undone a ((a.allocate env allocationID).1.revert revertEnv allocationID)
        allocationID ↔ Allocator.FailsEarly env allocationID a ∧ a.Consistent allocationID := by
  rcases Allocator.allocate_error_cases hcommits hfail with
    ⟨hearly, hstate⟩ | ⟨hlate, s, habsent, hstate⟩
  · rw [hstate]
    by_cases hknown : allocationID ∉ a.allocations ∧ allocationID ∈ a.resources.committedResources
    · obtain ⟨hregistered, hcommitted⟩ := hknown
      rw [Allocator.revert, if_neg hregistered, Allocator.undone_uncommit_iff hcommits hcommitted]
      constructor
      · rintro ⟨hallocated, hpromised⟩
        exact ⟨hearly, hregistered, hcommitted, hallocated, hpromised⟩
      · intro h
        exact ⟨h.2.allocated, h.2.promised⟩
    have hkept : allocationID ∈ a.allocations ∨
        allocationID ∉ a.resources.committedResources := by tauto
    constructor
    · intro h
      exact absurd (Allocator.mem_commits_revert revertEnv hcommits hkept) h.commits
    · intro h
      exact absurd ⟨h.2.allocations, h.2.committed⟩ hknown
  constructor
  · intro h
    rw [hstate] at h
    exact absurd (Allocator.mem_commits_revert (a := { a with resources := s }) revertEnv hcommits
      (.inr habsent)) h.commits
  · intro h
    exact absurd h.1 hlate

/-- The answers in a call of `Allocate` in which everything up to the start succeeds. -/
def sampleAllocateEnv (hardware : Bool) (start : Except String Unit) : AllocateEnv Hundredths :=
  ⟨.ok hardware, .ok (), sampleCall, .ok (), start⟩

def sampleReleaseEnv : ReleaseEnv Hundredths := ⟨.ok (), sampleCall, .ok ()⟩

theorem refused_allocate_undone :
    ascii "a" ∈ committedAllocator.commits ∧ Allocator.Undone committedAllocator
        ((committedAllocator.allocate (sampleAllocateEnv false (.ok ())) (ascii "a")).1.revert
          sampleReleaseEnv (ascii "a")) (ascii "a") := by
  refine ⟨by decide, (failed_allocate_undone_iff _ _ _ _ (by decide) _ rfl).mpr ?_⟩
  exact ⟨.inl (by decide), by decide, by decide, by decide, by decide⟩

/-- When the start fails, the resources have been moved already. The revert then neither
releases them nor drops the commit. -/
theorem failed_start_not_undone :
    ascii "a" ∈ committedAllocator.commits ∧ committedAllocator.Consistent (ascii "a") ∧
      let failed := committedAllocator.allocate (sampleAllocateEnv true (.error "executor"))
        (ascii "a")
      failed.2.isOk = false ∧
        ascii "a" ∈ (failed.1.revert sampleReleaseEnv (ascii "a")).resources.allocations ∧
        ascii "a" ∈ (failed.1.revert sampleReleaseEnv (ascii "a")).commits ∧
        ¬ Allocator.Undone committedAllocator (failed.1.revert sampleReleaseEnv (ascii "a"))
          (ascii "a") := by
  refine ⟨by decide, ⟨by decide, by decide, by decide, by decide⟩, by rfl, by decide, by decide, ?_⟩
  intro h
  exact h.allocated (by decide)

end DMS.Node
