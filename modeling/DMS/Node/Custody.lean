import DMS.Node.RecoveredBooks

/-! # What a running allocation keeps

A registered allocation that was not terminated should still have its entry in the resource manager
and its ports. `Uncommit` and `Release` begin with giving the ports back, whoever the identifier
belongs to and whatever comes next.
-/

namespace DMS.Node

open DMS.Types Resources PortAllocator List AList

variable {κ : Type}

/-! ## Ports -/

namespace PortAllocator

variable {pa : PortAllocator} {id id' : GoString} {held : List Int}

def Secures (pa : PortAllocator) (id : GoString) (held : List Int) : Prop :=
  ∀ p ∈ held, p ∈ pa.ports id ∧ p ∈ pa.reserved

theorem secures_release_iff :
    (pa.release id).Secures id' held ↔ pa.Secures id' held ∧ ∀ p ∈ held, p ∉ pa.ports id := by
  simp only [Secures, release_reserved, ports_release, ← forall₂_and, Finset.mem_sdiff,
    mem_toFinset]
  refine forall₂_congr fun p _ => ?_
  split
  · next hid => exact iff_of_false (fun h => not_mem_nil h.1) fun h => h.2 (hid ▸ h.1.1)
  · exact and_assoc.symm

theorem secures_sdiff_iff {ports : List Int} (h : pa.Secures id' held) :
    { pa with reserved := pa.reserved \ ports.toFinset }.Secures id' held ↔
      ∀ p ∈ held, p ∉ ports := by
  simp only [Secures, Finset.mem_sdiff, mem_toFinset]
  exact ⟨fun hafter p hp => (hafter p hp).2.2,
    fun hfree p hp => ⟨(h p hp).1, (h p hp).2, hfree p hp⟩⟩

theorem secures_reserve_iff {free text ports r} (id' : GoString) (h : ∀ p ∈ held, p ∈ pa.reserved)
    (hok : (pa.reserve free text id ports).2 = .ok r) :
    (pa.reserve free text id ports).1.Secures id' held ↔
      if id' = id then held = [] else pa.Secures id' held := by
  obtain ⟨_, hfresh, hstate⟩ := reserve_ok hok
  simp only [Secures, hstate, ports_insert]
  split
  · constructor
    · exact fun hafter => eq_nil_iff_forall_not_mem.mpr fun p hp =>
        hfresh p (hafter p hp).1 (h p hp)
    · rintro rfl
      exact fun _ hp => absurd hp not_mem_nil
  · exact forall₂_congr fun p hp => by simp [h p hp]

end PortAllocator

section CommitPorts

variable {env : CommitEnv κ} {id id' : GoString} {ports : GoMap Int Int} {n : Int}
  {pa : PortAllocator} {held : List Int}

/-- When the ports of a commitment are reserved, the holder of some ports keeps them: a failed
request for static ports is not for one of them, the list is not the one written over, and when
only dynamic ports cannot be had, none is listed under the identifier. -/
def PortsSpared (env : CommitEnv κ) (id : GoString) (ports : GoMap Int Int) (numDynamicPorts : Int)
    (pa : PortAllocator) (id' : GoString) (held : List Int) : Prop :=
  if (pa.allocate env.static id (env.staticPorts ports)).2.isOk then
    (id' = id → ports.keys ≠ [] ∨ 0 < numDynamicPorts → held = []) ∧
      (ports.keys = [] → 0 < numDynamicPorts →
        (pa.allocateRandom env.dynamic id numDynamicPorts).2.isOk = false →
        ∀ p ∈ held, p ∉ pa.ports id)
  else ∀ p ∈ held, p ∉ ports.keys

theorem commitPorts_of_static {pa' u}
    (h : pa.allocate env.static id (env.staticPorts ports) = (pa', .ok u)) :
    (commitPorts env id ports n pa).1 = if 0 < n then
        if (pa'.allocateRandom env.dynamic id n).2.isOk then
          (pa'.allocateRandom env.dynamic id n).1
        else pa'.release id
      else pa' := by
  rw [commitPorts, show env.call.order.visit ports.keys = env.staticPorts ports from rfl, h]
  dsimp only
  by_cases hpos : 0 < n
  · rw [if_pos hpos, if_pos hpos]
    rcases hdynamic : pa'.allocateRandom env.dynamic id n with ⟨pa'', e | r⟩
    · have hsame := allocateRandom_error (congrArg Prod.snd hdynamic)
      rw [hdynamic] at hsame
      exact congrArg (PortAllocator.release id) hsame
    · rfl
  · rw [if_neg hpos, if_neg hpos]

theorem commitPorts_secures_of_static {pa' u} (hheld : ∀ p ∈ held, p ∈ pa'.reserved)
    (h : pa.allocate env.static id (env.staticPorts ports) = (pa', .ok u)) :
    (commitPorts env id ports n pa).1.Secures id' held ↔ if 0 < n then
        if (pa'.allocateRandom env.dynamic id n).2.isOk then
          if id' = id then held = [] else pa'.Secures id' held
        else pa'.Secures id' held ∧ ∀ p ∈ held, p ∉ pa'.ports id
      else pa'.Secures id' held := by
  rw [commitPorts_of_static h]
  split
  · split
    · next hisOk =>
      obtain ⟨r, hok⟩ := Outcome.isOk_iff.mp hisOk
      have hreserve := allocateRandom_ok hok
      rw [hreserve] at hok ⊢
      exact secures_reserve_iff id' hheld hok
    · exact secures_release_iff
  · rfl

theorem commitPorts_secures_of_nil (hnil : env.staticPorts ports = []) (h : pa.Secures id' held) :
    (commitPorts env id ports n pa).1.Secures id' held ↔
      PortsSpared env id ports n pa id' held := by
  have hstatic : pa.allocate env.static id (env.staticPorts ports) = (pa, .ok ()) := if_pos hnil
  have hown (hid : id' = id) : (∀ p ∈ held, p ∉ pa.ports id) → held = [] := fun hfree =>
    eq_nil_iff_forall_not_mem.mpr fun p hp => hfree p hp (hid ▸ (h p hp).1)
  rw [PortsSpared, if_pos (by rw [hstatic]; rfl),
    commitPorts_secures_of_static (fun p hp => (h p hp).2) hstatic]
  by_cases hpos : 0 < n <;> by_cases hid : id' = id <;>
    cases (pa.allocateRandom env.dynamic id n).2.isOk <;>
    simp_all [staticPorts_eq_nil.mp hnil]

theorem commitPorts_secures_of_reserved {r} (hne : env.staticPorts ports ≠ [])
    (hok : (pa.reserve env.static.bind cannotAllocate id (env.staticPorts ports)).2 = .ok r)
    (h : pa.Secures id' held) :
    (commitPorts env id ports n pa).1.Secures id' held ↔ (id' = id → held = []) := by
  obtain ⟨_, hfresh, hstate⟩ := reserve_ok hok
  have hheld (p : Int) (hp : p ∈ held) : p ∈ pa.reserved := (h p hp).2
  have hstatic : pa.allocate env.static id (env.staticPorts ports) =
      ((pa.reserve env.static.bind cannotAllocate id (env.staticPorts ports)).1, .ok ()) := by
    rw [allocate_of_ne_nil hne, hok]
    rfl
  have hsecures := secures_reserve_iff id' hheld hok
  have hgrown : ∀ p ∈ held, p ∈ pa.reserved ∪ (env.staticPorts ports).toFinset :=
    fun p hp => Finset.mem_union_left _ (hheld p hp)
  have hfree : ∀ p ∈ held, p ∉ env.staticPorts ports := fun p hp hlisted =>
    hfresh p hlisted (hheld p hp)
  rw [hstate] at hstatic hsecures
  rw [commitPorts_secures_of_static hgrown hstatic, ports_insert, if_pos rfl, hsecures]
  simp only [and_iff_left hfree]
  by_cases hid : id' = id <;> simp [hid, h]

theorem commitPorts_secures_iff (h : pa.Secures id' held) :
    (commitPorts env id ports n pa).1.Secures id' held ↔
      PortsSpared env id ports n pa id' held := by
  by_cases hnil : env.staticPorts ports = []
  · exact commitPorts_secures_of_nil hnil h
  have hkeys : ports.keys ≠ [] := fun hkeys => hnil (staticPorts_eq_nil.mpr hkeys)
  have hallocate := @allocate_of_ne_nil pa _ env.static id hnil
  cases hresult : (pa.reserve env.static.bind cannotAllocate id (env.staticPorts ports)).2 with
  | error e =>
    rw [hresult] at hallocate
    rw [PortsSpared, if_neg (by rw [hallocate]; nofun)]
    have hstate : (commitPorts env id ports n pa).1 =
        { pa with reserved := pa.reserved \ (env.staticPorts ports).toFinset } := by
      unfold commitPorts
      rw [show env.call.order.visit ports.keys = env.staticPorts ports from rfl, hallocate]
      exact reserve_error hresult
    rw [hstate, secures_sdiff_iff h]
    simp [CommitEnv.staticPorts, env.call.order.mem_visit]
  | ok r =>
    rw [hresult] at hallocate
    rw [PortsSpared, if_pos (by rw [hallocate]; rfl),
      commitPorts_secures_of_reserved hnil hresult h]
    exact ⟨fun hs => ⟨fun hid _ => hs hid, fun hk => absurd hk hkeys⟩,
      fun hs hid => hs.1 hid (.inl hkeys)⟩

end CommitPorts

/-! ## The operations -/

namespace Allocator

variable {a : Allocator κ} {id : GoString}

/-- `newAllocator` -/
def new (config : PortConfig) : Allocator κ := ⟨.new, newPortAllocator config, ∅, ∅, ∅, ∅⟩

/-- One tick of `clearCommits`. The clock is read for each commit, and failures are only logged. -/
def clearCommits (order : RangeOrder) (now : GoString → Int) (a : Allocator κ) : Allocator κ :=
  (order.visit a.commits.entries).foldl
    (fun a e => if e.2 < now e.1 then (a.uncommit e.1).1 else a) a

/-- `Allocate` can move the resources of the allocation. -/
def Ready (a : Allocator κ) (id : GoString) : Prop :=
  id ∈ a.commits ∧ ∃ c, a.resources.committedResources.lookup id = some c ∧
    c.allocationID ∉ a.resources.allocations

theorem allocate_of_not_ready (env : AllocateEnv κ) (h : ¬ a.Ready id) :
    ∃ e, a.allocate env id = (a, .error e) := by
  unfold allocate Store.allocateResources
  by_cases hcommit : id ∈ a.commits
  · rw [if_neg (not_not.mpr hcommit)]
    match hardwareCheck env.hardware, env.mount,
      hc : a.resources.committedResources.lookup id with
    | .error e, _, _ => exact ⟨e, rfl⟩
    | .ok _, .error _, _ => exact ⟨_, rfl⟩
    | .ok _, .ok _, none => exact ⟨_, rfl⟩
    | .ok _, .ok _, some c =>
      have hallocated : c.allocationID ∈ a.resources.allocations := by
        by_contra hfresh
        exact h ⟨hcommit, c, hc, hfresh⟩
      dsimp only
      rw [if_pos hallocated]
      exact ⟨_, rfl⟩
  · exact ⟨_, if_pos hcommit⟩

theorem uncommit_frame (id : GoString) (a : Allocator κ) :
    (a.uncommit id).1.allocations = a.allocations ∧
      (a.uncommit id).1.resources.allocations = a.resources.allocations := by
  unfold uncommit Store.uncommitResources
  by_cases hmem : id ∉ a.resources.committedResources <;> simp only [hmem] <;> split <;>
    exact ⟨rfl, rfl⟩

theorem release_frame {env : ReleaseEnv κ} {id'} (h : id' = id → env.terminate.isOk = false) :
    (id' ∈ (a.release env id).1.allocations ↔ id' ∈ a.allocations) ∧
      (id' ∈ (a.release env id).1.resources.allocations ↔ id' ∈ a.resources.allocations) := by
  by_cases hall : id ∈ a.allocations ∧ id ∈ a.resources.allocations ∧ env.releases = true
  · have hother : id' ≠ id := by
      intro hid
      simpa [ReleaseEnv.releases, h hid] using hall.2.2
    rw [release_of_releases hall.1 hall.2.1 hall.2.2]
    refine ⟨?_, mem_erase.trans (and_iff_right hother)⟩
    split
    · exact mem_erase.trans (and_iff_right hother)
    · exact Iff.rfl
  · rw [release_of_not_releases hall]
    exact ⟨Iff.rfl, Iff.rfl⟩

variable [Cores κ]

theorem commit_frame (env : CommitEnv κ) (id : GoString) (r : CommittedResources κ)
    (ports : GoMap Int Int) (n exp : Int) (a : Allocator κ) :
    (a.commit env id r ports n exp).1.allocations = a.allocations ∧
      (a.commit env id r ports n exp).1.resources.allocations = a.resources.allocations := by
  unfold commit
  split
  · exact ⟨rfl, rfl⟩
  obtain ⟨ob, ⟨e, heq⟩ | ⟨_, heq⟩⟩ := commitResources_cases a.resources env.call r
  · rw [heq]
    exact ⟨rfl, rfl⟩
  rw [heq]
  dsimp only
  split
  · unfold Store.uncommitResources
    split <;> exact ⟨rfl, rfl⟩
  · exact ⟨rfl, rfl⟩

theorem commit_ports_of_accepted {env r}
    (h : Accepted env r a) (id : GoString) (ports : GoMap Int Int) (n exp : Int) :
    (a.commit env id r ports n exp).1.ports = (Node.commitPorts env id ports n a.ports).1 := by
  rw [commit, hardwareCheck_eq_ok.mpr h.1]
  dsimp only
  split
  · next e heq =>
    have hok := h.2
    rw [heq] at hok
    cases hok
  · split <;> next heq => rw [heq]

end Allocator

/-! ## Custody -/

/-- An operation of the allocator with what it is told, or a tick of the clean-up. -/
inductive AllocatorStep (κ : Type)
  | commit (env : CommitEnv κ) (id : GoString) (resources : CommittedResources κ)
      (ports : GoMap Int Int) (numDynamicPorts expiry : Int)
  | allocate (env : AllocateEnv κ) (id : GoString)
  | uncommit (id : GoString)
  | release (env : ReleaseEnv κ) (id : GoString)
  | clearCommits (order : RangeOrder) (now : GoString → Int)

def reservedBy (env : CommitEnv κ) (id : GoString) (ports : GoMap Int Int) (numDynamicPorts : Int)
    (pa : PortAllocator) : List Int :=
  let static := env.staticPorts ports
  let pa := (pa.allocate env.static id static).1
  if 0 < numDynamicPorts then
    static ++ ((pa.allocateRandom env.dynamic id numDynamicPorts).2.toOption.getD [])
  else static

/-- The allocator with the ports that the last `Commit` of an identifier reserved, those of each
registered allocation, and the allocations that were terminated. -/
structure Custody (κ : Type) where
  allocator : Allocator κ
  promised : GoMap GoString (List Int)
  given : GoMap GoString (List Int)
  terminated : Finset GoString

namespace Custody

def start (config : PortConfig) : Custody κ := ⟨.new config, ∅, ∅, ∅⟩

section Step

variable [Cores κ]

def step (s : Custody κ) : AllocatorStep κ → Custody κ
  | .commit env id resources ports numDynamicPorts expiry =>
    match s.allocator.commit env id resources ports numDynamicPorts expiry with
    | (a, .error _) => { s with allocator := a }
    | (a, .ok _) =>
      { s with
        allocator := a
        promised := s.promised.insert id
          (reservedBy env id ports numDynamicPorts s.allocator.ports) }
  | .allocate env id =>
    match s.allocator.allocate env id with
    | (a, .error _) => { s with allocator := a }
    | (a, .ok _) =>
      { s with
        allocator := a
        given := s.given.insert id (s.promised.list id)
        terminated := s.terminated.erase id }
  | .uncommit id => { s with allocator := (s.allocator.uncommit id).1 }
  | .release env id =>
    { s with
      allocator := (s.allocator.release env id).1
      terminated :=
        if id ∈ s.allocator.allocations ∧ env.terminate.isOk then insert id s.terminated
        else s.terminated }
  | .clearCommits order now => { s with allocator := s.allocator.clearCommits order now }

end Step

def Runs (s : Custody κ) (id : GoString) : Prop := id ∈ s.allocator.allocations ∧ id ∉ s.terminated

/-- Every running allocation has its entry in the resource manager and its ports. -/
structure Keeps (s : Custody κ) : Prop where
  entry : ∀ id, s.Runs id → id ∈ s.allocator.resources.allocations
  ports : ∀ id, s.Runs id → s.allocator.ports.Secures id (s.given.list id)

def Releasable (s : Custody κ) (id : GoString) : Prop :=
  ∀ id', s.Runs id' → ∀ p ∈ s.given.list id', p ∉ s.allocator.ports.ports id

/-- `Commit` spares the ports of the running allocations. `Allocate` of a commitment finds the
ports reserved for it. `Uncommit` and the clean-up give no ports of a running allocation back, and
`Release` only those of one that it terminates. -/
def Careful [Cores κ] (s : Custody κ) : AllocatorStep κ → Prop
  | .commit env id resources ports numDynamicPorts _ =>
    Allocator.Accepted env resources s.allocator → ∀ id', s.Runs id' →
      PortsSpared env id ports numDynamicPorts s.allocator.ports id' (s.given.list id')
  | .allocate env id =>
    s.allocator.Ready id → env.enters = true → s.allocator.ports.Secures id (s.promised.list id)
  | .uncommit id => s.Releasable id
  | .release env id =>
    ∀ id', s.Runs id' → (id' = id → env.terminate.isOk = false) →
      ∀ p ∈ s.given.list id', p ∉ s.allocator.ports.ports id
  | .clearCommits _ now =>
    ∀ id t, s.allocator.commits.lookup id = some t → t < now id → s.Releasable id

/-! ## One step -/

section Frame

variable {s : Custody κ} {a : Allocator κ}

theorem keeps_iff_ports (h : s.Keeps) (hallocations : a.allocations = s.allocator.allocations)
    (hentries : ∀ id, id ∈ s.allocator.resources.allocations → id ∈ a.resources.allocations) :
    { s with allocator := a }.Keeps ↔ ∀ id, s.Runs id → a.ports.Secures id (s.given.list id) := by
  have hruns (id : GoString) : { s with allocator := a }.Runs id ↔ s.Runs id := by
    unfold Runs
    rw [hallocations]
  constructor
  · exact fun hafter id hid => hafter.ports id ((hruns id).mpr hid)
  intro hports
  exact ⟨fun id hid => hentries id (h.entry id ((hruns id).mp hid)),
    fun id hid => hports id ((hruns id).mp hid)⟩

end Frame

section Uncommit

variable {s : Custody κ} {id : GoString}

theorem runs_uncommit (id' : GoString) :
    { s with allocator := (s.allocator.uncommit id).1 }.Runs id' ↔ s.Runs id' := by
  unfold Runs
  rw [(s.allocator.uncommit_frame id).1]

theorem keeps_uncommit_iff : { s with allocator := (s.allocator.uncommit id).1 }.Keeps ↔
      s.Keeps ∧ s.Releasable id := by
  have hframe := s.allocator.uncommit_frame id
  have hports := Allocator.uncommit_ports id s.allocator
  constructor
  · intro h
    have hsecures (id' : GoString) (hid' : s.Runs id') := h.ports id' ((runs_uncommit id').mpr hid')
    simp only [hports, secures_release_iff] at hsecures
    refine ⟨⟨fun id' hid' => ?_, fun id' hid' => (hsecures id' hid').1⟩, fun id' hid' =>
      (hsecures id' hid').2⟩
    have hentry := h.entry id' ((runs_uncommit id').mpr hid')
    rwa [hframe.2] at hentry
  rintro ⟨h, hfree⟩
  refine (keeps_iff_ports h hframe.1 fun id' hid' => ?_).mpr fun id' hid' => ?_
  · rw [hframe.2]
    exact hid'
  · rw [hports, secures_release_iff]
    exact ⟨h.ports id' hid', hfree id' hid'⟩

theorem releasable_uncommit_iff (h : s.Releasable id) (id' : GoString) :
    { s with allocator := (s.allocator.uncommit id).1 }.Releasable id' ↔ s.Releasable id' := by
  have hports := Allocator.uncommit_ports id s.allocator
  unfold Releasable
  simp only [runs_uncommit, hports, ports_release]
  by_cases hid : id' = id
  · subst hid
    simp only [if_true]
    exact iff_of_true (fun _ _ _ _ => not_mem_nil) h
  · simp [hid]

theorem keeps_clear_iff (now : GoString → Int) (es : List (Σ _, Int)) : ({ s with
        allocator := es.foldl
          (fun a e => if e.2 < now e.1 then (a.uncommit e.1).1 else a) s.allocator } :
        Custody κ).Keeps ↔ s.Keeps ∧ ∀ e ∈ es, e.2 < now e.1 → s.Releasable e.1 := by
  induction es generalizing s with
  | nil => exact ⟨fun h => ⟨h, nofun⟩, fun h => h.1⟩
  | cons e es ih =>
    rw [foldl_cons, forall_mem_cons]
    by_cases hlate : e.2 < now e.1
    · rw [if_pos hlate]
      have hrest := ih (s := { s with allocator := (s.allocator.uncommit e.1).1 })
      rw [hrest, keeps_uncommit_iff]
      constructor
      · rintro ⟨⟨h, hfree⟩, hentries⟩
        exact ⟨h, fun _ => hfree, fun e' he' hlate' =>
          (releasable_uncommit_iff hfree e'.1).mp (hentries e' he' hlate')⟩
      rintro ⟨h, hfree, hentries⟩
      exact ⟨⟨h, hfree hlate⟩, fun e' he' hlate' =>
        (releasable_uncommit_iff (hfree hlate) e'.1).mpr (hentries e' he' hlate')⟩
    · rw [if_neg hlate, ih]
      exact and_congr_right fun _ => (and_iff_right fun h => absurd h hlate).symm

theorem keeps_clearCommits_iff (order : RangeOrder) (now : GoString → Int) :
    { s with allocator := s.allocator.clearCommits order now }.Keeps ↔
      s.Keeps ∧ ∀ id t, s.allocator.commits.lookup id = some t → t < now id → s.Releasable id := by
  rw [Allocator.clearCommits, keeps_clear_iff]
  refine and_congr_right fun _ => ?_
  constructor
  · intro h id t hlookup
    exact h ⟨id, t⟩ (order.mem_visit.mpr (mem_lookup_iff.mp hlookup))
  · intro h e he
    exact h e.1 e.2 (mem_lookup_iff.mpr (order.mem_visit.mp he))

end Uncommit

section Steps

variable [Cores κ] {s : Custody κ}

theorem step_commit (s : Custody κ) (env : CommitEnv κ) (id : GoString)
    (r : CommittedResources κ) (ports : GoMap Int Int) (n exp : Int) :
    ∃ promised, s.step (.commit env id r ports n exp) = { s with
        allocator := (s.allocator.commit env id r ports n exp).1
        promised := promised } := by
  rw [step]
  split
  · next heq => exact ⟨s.promised, by rw [heq]⟩
  · next heq => exact ⟨_, by rw [heq]⟩

theorem careful_commit_iff (h : s.Keeps) (env : CommitEnv κ) (id : GoString)
    (r : CommittedResources κ) (ports : GoMap Int Int) (n exp : Int) :
    s.Careful (.commit env id r ports n exp) ↔ (s.step (.commit env id r ports n exp)).Keeps := by
  obtain ⟨promised, hstep⟩ := s.step_commit env id r ports n exp
  obtain ⟨hallocations, hentries⟩ :=
    s.allocator.commit_frame env id r ports n exp
  have hkeeps : (s.step (.commit env id r ports n exp)).Keeps ↔
      { s with allocator :=
        (s.allocator.commit env id r ports n exp).1 }.Keeps := by
    rw [hstep]
    exact ⟨fun hk => ⟨hk.entry, hk.ports⟩, fun hk => ⟨hk.entry, hk.ports⟩⟩
  rw [hkeeps, keeps_iff_ports h hallocations fun id' hid' => hentries.symm ▸ hid']
  by_cases haccepted : Allocator.Accepted env r s.allocator
  · rw [Allocator.commit_ports_of_accepted haccepted]
    constructor
    · exact fun hspared id' hid' =>
        (commitPorts_secures_iff (h.ports id' hid')).mpr (hspared haccepted id' hid')
    · exact fun hports _ id' hid' =>
        (commitPorts_secures_iff (h.ports id' hid')).mp (hports id' hid')
  obtain ⟨ob, e, heq⟩ :=
    Allocator.commit_of_not_accepted haccepted id ports n exp
  refine iff_of_true (fun hyes => absurd hyes haccepted) fun id' hid' => ?_
  rw [heq]
  exact h.ports id' hid'

theorem keeps_of_refused (h : s.Keeps) {env id e a}
    (heq : s.allocator.allocate env id = (a, .error e))
    (hallocations : a.allocations = s.allocator.allocations) (hports : a.ports = s.allocator.ports)
    (hentries : ∀ id, id ∈ s.allocator.resources.allocations → id ∈ a.resources.allocations) :
    (s.step (.allocate env id)).Keeps := by
  rw [step, heq]
  refine (keeps_iff_ports h hallocations hentries).mpr fun id' hid' => ?_
  rw [hports]
  exact h.ports id' hid'

omit [Cores κ] in
theorem mem_allocations_moved {a : Allocator κ} {id id' c} :
    id' ∈ (a.moved id c).allocations ↔ id' = id ∨ id' ∈ a.resources.allocations :=
  mem_insert _

theorem careful_allocate_enters_iff (h : s.Keeps) {env : AllocateEnv κ} {id c}
    (hcommit : id ∈ s.allocator.commits)
    (hc : s.allocator.resources.committedResources.lookup id = some c)
    (hfresh : c.allocationID ∉ s.allocator.resources.allocations) (hmoves : env.moves = true)
    (henters : env.enters = true) :
    s.allocator.ports.Secures id (s.promised.list id) ↔ (s.step (.allocate env id)).Keeps := by
  have hallocate := Allocator.allocate_of_moves hcommit hc hfresh hmoves
  rw [if_pos henters] at hallocate
  have hstep : s.step (.allocate env id) = { s with
        allocator := (s.allocator.allocate env id).1
        given := s.given.insert id (s.promised.list id)
        terminated := s.terminated.erase id } := by
    rw [step, hallocate]
  have hruns (id' : GoString) : (s.step (.allocate env id)).Runs id' ↔ id' = id ∨ s.Runs id' := by
    rw [Runs, hstep, hallocate]
    simp only [mem_insert, Finset.mem_erase, not_and]
    constructor
    · rintro ⟨rfl | hmem, hout⟩
      · exact .inl rfl
      by_cases hid : id' = id
      · exact .inl hid
      · exact .inr ⟨hmem, fun hin => absurd hin (by simpa [hid] using hout)⟩
    rintro (rfl | ⟨hmem, hout⟩)
    · exact ⟨.inl rfl, fun hne => absurd rfl hne⟩
    · exact ⟨.inr hmem, fun _ => hout⟩
  have hports (id' : GoString) : (s.step (.allocate env id)).allocator.ports.Secures id'
      ((s.step (.allocate env id)).given.list id') ↔ s.allocator.ports.Secures id'
          (if id' = id then s.promised.list id else s.given.list id') := by
    rw [hstep, hallocate, GoMap.list_insert]
  constructor
  · intro hsecures
    refine ⟨fun id' hid' => ?_, fun id' hid' => (hports id').mpr ?_⟩
    · rw [hstep, hallocate]
      exact mem_allocations_moved.mpr (((hruns id').mp hid').imp_right (h.entry id'))
    split
    · next hid => exact hid ▸ hsecures
    · next hid => exact h.ports id' (((hruns id').mp hid').resolve_left hid)
  intro hafter
  have hown := (hports id).mp (hafter.ports id ((hruns id).mpr (.inl rfl)))
  rwa [if_pos rfl] at hown

theorem careful_allocate_iff (h : s.Keeps) (env : AllocateEnv κ) (id : GoString) :
    s.Careful (.allocate env id) ↔ (s.step (.allocate env id)).Keeps := by
  by_cases hready : s.allocator.Ready id
  · obtain ⟨hcommit, c, hc, hfresh⟩ := hready
    have hguard : s.Careful (.allocate env id) ↔
        (env.enters = true → s.allocator.ports.Secures id (s.promised.list id)) :=
      ⟨fun hg => hg ⟨hcommit, c, hc, hfresh⟩, fun hg _ => hg⟩
    rw [hguard]
    cases hmoves : env.moves with
    | false =>
      obtain ⟨e, heq⟩ := Allocator.allocate_of_not_moves hcommit hc hfresh hmoves
      refine iff_of_true (fun henters => ?_) (keeps_of_refused h heq rfl rfl fun _ hid' => hid')
      simp [AllocateEnv.enters, hmoves] at henters
    | true =>
      cases henters : env.enters with
      | true =>
        rw [← careful_allocate_enters_iff h hcommit hc hfresh hmoves henters]
        exact ⟨fun hg => hg rfl, fun hg _ => hg⟩
      | false =>
        have hallocate := Allocator.allocate_of_moves hcommit hc hfresh hmoves
        rw [henters] at hallocate
        obtain ⟨e, heq⟩ := hallocate
        exact iff_of_true (fun hyes => absurd hyes Bool.false_ne_true)
          (keeps_of_refused h heq rfl rfl fun id' hid' =>
            mem_allocations_moved.mpr (.inr hid'))
  obtain ⟨e, heq⟩ := Allocator.allocate_of_not_ready env hready
  exact iff_of_true (fun hyes => absurd hyes hready)
    (keeps_of_refused h heq rfl rfl fun _ hid' => hid')

theorem careful_release_iff (h : s.Keeps) (env : ReleaseEnv κ) (id : GoString) :
    s.Careful (.release env id) ↔ (s.step (.release env id)).Keeps := by
  have hports := Allocator.release_ports env id s.allocator
  -- An allocation runs afterwards when it ran before and was not terminated now.
  have hruns (id' : GoString) : (s.step (.release env id)).Runs id' ↔
      s.Runs id' ∧ (id' = id → env.terminate.isOk = false) := by
    by_cases hfails : id' = id → env.terminate.isOk = false
    · rw [and_iff_left hfails]
      refine and_congr (Allocator.release_frame hfails).1 (not_congr ?_)
      rw [step]
      split
      · next hended =>
        have hother : id' ≠ id := fun hid => by simp [hfails hid] at hended
        rw [Finset.mem_insert, or_iff_right hother]
      · exact Iff.rfl
    obtain ⟨rfl, hok⟩ := not_forall.mp hfails
    have hended : env.terminate.isOk = true := Bool.not_eq_false _ ▸ hok
    refine iff_of_false ?_ fun hboth => hok (hboth.2 rfl)
    rintro ⟨hmem, hout⟩
    rw [step] at hmem hout
    by_cases hregistered : id' ∈ s.allocator.allocations
    · rw [if_pos ⟨hregistered, hended⟩] at hout
      exact hout (Finset.mem_insert_self _ _)
    · rw [Allocator.release_of_not_releases fun hall => hregistered hall.1] at hmem
      exact hregistered hmem
  have hentries (id' : GoString) (hid' : (s.step (.release env id)).Runs id')
      (hentry : id' ∈ s.allocator.resources.allocations) :=
    (Allocator.release_frame ((hruns id').mp hid').2).2.mpr hentry
  constructor
  · intro hfree
    refine ⟨fun id' hid' => hentries id' hid' (h.entry id' ((hruns id').mp hid').1),
      fun id' hid' => ?_⟩
    obtain ⟨hrun, hfails⟩ := (hruns id').mp hid'
    show (s.allocator.release env id).1.ports.Secures id' (s.given.list id')
    rw [hports, secures_release_iff]
    exact ⟨h.ports id' hrun, hfree id' hrun hfails⟩
  intro hafter id' hrun hfails
  have hsecures : (s.allocator.release env id).1.ports.Secures id' (s.given.list id') :=
    hafter.ports id' ((hruns id').mpr ⟨hrun, hfails⟩)
  rw [hports, secures_release_iff] at hsecures
  exact hsecures.2

theorem careful_step (h : s.Keeps) (i : AllocatorStep κ) : s.Careful i ↔ (s.step i).Keeps := by
  cases i with
  | commit env id r ports n exp =>
    exact careful_commit_iff h env id r ports n exp
  | allocate env id => exact careful_allocate_iff h env id
  | uncommit id => exact ((and_iff_right h).symm.trans keeps_uncommit_iff.symm)
  | release env id => exact careful_release_iff h env id
  | clearCommits order now =>
    exact ((and_iff_right h).symm.trans (keeps_clearCommits_iff order now).symm)

/-- From a new allocator, every running allocation keeps its entry and its ports in every state
of a run exactly when every step of the run is careful. -/
theorem keeps_iff_careful (config : PortConfig) (steps : List (AllocatorStep κ)) :
    (∀ past, past <+: steps → (past.foldl step (start config)).Keeps) ↔
      Reach.Passes Careful step (start config) steps := by
  have hstart : (start config : Custody κ).Keeps :=
    ⟨fun _ h => absurd h.1 (notMem_empty _), fun _ h => absurd h.1 (notMem_empty _)⟩
  exact (Reach.passes_iff_forall Keeps Keeps steps hstart hstart
    (fun _ i h => careful_step h i) fun _ i h => (careful_step h i).mp).symm

end Steps

/-- An allocation with the static port 30000 runs, and its termination fails. -/
def failedRelease : List (AllocatorStep Hundredths) :=
  [.commit sampleCommitEnv (ascii "a") (sampleCommitment "a") samplePortMap 0 10,
    .allocate (sampleAllocateEnv true (.ok ())) (ascii "a"),
    .release { sampleReleaseEnv with terminate := .error "executor" } (ascii "a")]

/-- The port of the allocation was given back before the termination failed. -/
theorem running_allocation_loses_port :
    ((failedRelease.take 2).foldl step (start ⟨30000, 30003⟩)).allocator.ports.reserved = {30000} ∧
      (failedRelease.foldl step (start ⟨30000, 30003⟩)).Runs (ascii "a") ∧
      (failedRelease.foldl step (start ⟨30000, 30003⟩)).given.list (ascii "a") = [30000] ∧
      (failedRelease.foldl step (start ⟨30000, 30003⟩)).allocator.ports.reserved = ∅ ∧
      ¬ (failedRelease.foldl step (start ⟨30000, 30003⟩)).Keeps := by
  refine ⟨by decide, ⟨by decide, by decide⟩, by decide, by decide, fun h => ?_⟩
  have hport := (h.ports (ascii "a") ⟨by decide, by decide⟩ 30000 (mem_singleton_self _)).2
  exact absurd hport (Finset.notMem_empty _)

end Custody

/-! ## Expired commits -/

namespace Allocator

variable {a a' : Allocator κ} {id id' : GoString}

def Expired (now : GoString → Int) (a : Allocator κ) (id : GoString) : Prop :=
  ∃ expiry, ⟨id, expiry⟩ ∈ a.commits.entries ∧ expiry < now id

/-- What a commit of `a` held is free in `a'`. -/
structure Freed (a a' : Allocator κ) (id : GoString) : Prop where
  commits : id ∉ a'.commits
  committed : id ∉ a'.resources.committedResources
  ports : ∀ port ∈ a.ports.ports id, port ∉ a'.ports.reserved

/-- `Uncommit` succeeds for a commit, which has the ports that it had in `a`. -/
structure Held (a a' : Allocator κ) (id : GoString) : Prop where
  commits : id ∈ a'.commits
  committed : id ∈ a'.resources.committedResources
  ports : a'.ports.ports id = a.ports.ports id

theorem Freed.uncommit (h : id ≠ id' → Freed a a' id) (hheld : Held a a' id') :
    Freed a (a'.uncommit id').1 id := by
  rw [uncommit_of_mem hheld.commits hheld.committed]
  by_cases hid : id = id'
  · subst hid
    refine ⟨by simp, by simp [Store.clear], ?_⟩
    intro port hport
    simp [release_reserved, hheld.ports, hport]
  refine ⟨by simp [(h hid).commits], by simp [Store.clear, (h hid).committed], ?_⟩
  intro port hport
  simp [release_reserved, (h hid).ports port hport]

theorem Held.uncommit (h : Held a a' id) (hheld : Held a a' id') (hid : id ≠ id') :
    Held a (a'.uncommit id').1 id := by
  rw [uncommit_of_mem hheld.commits hheld.committed]
  refine ⟨by simp [h.commits, hid], by simp [Store.clear, h.committed, hid], ?_⟩
  rw [ports_release, if_neg hid, h.ports]

theorem freed_clear (now : GoString → Int) {es : List (Σ _, Int)} (hnodup : es.NodupKeys)
    (hheld : ∀ e ∈ es, e.2 < now e.1 → Held a a' e.1)
    (h : Freed a a' id ∨ ∃ exp, ⟨id, exp⟩ ∈ es ∧ exp < now id) :
    Freed a (es.foldl (fun a e => if e.2 < now e.1 then (a.uncommit e.1).1 else a) a') id := by
  induction es generalizing a' with
  | nil => simpa using h
  | cons e es ih =>
    obtain ⟨hnot, hrest⟩ := nodupKeys_cons.mp hnodup
    obtain ⟨hfirst, hlast⟩ := forall_mem_cons.mp hheld
    rw [foldl_cons]
    by_cases hlate : e.2 < now e.1
    · have hfirst := hfirst hlate
      rw [if_pos hlate]
      refine ih hrest ?_ ?_
      · intro e' he' hlate'
        refine (hlast e' he' hlate').uncommit hfirst ?_
        exact fun heq => hnot (heq ▸ mem_keys_of_mem he')
      rcases h with h | ⟨exp, hmem, hexp⟩
      · exact .inl (.uncommit (fun _ => h) hfirst)
      rcases mem_cons.mp hmem with rfl | hmem
      · exact .inl (.uncommit (absurd rfl) hfirst)
      · exact .inr ⟨exp, hmem, hexp⟩
    rw [if_neg hlate]
    refine ih hrest hlast (h.imp_right ?_)
    rintro ⟨exp, hmem, hexp⟩
    rcases mem_cons.mp hmem with rfl | hmem
    · exact absurd hexp hlate
    · exact ⟨exp, hmem, hexp⟩

end Allocator

/-- The allocator with the goroutine of `clearCommits`. Its `select` stands in no loop: after
the first tick nothing receives the next one. -/
structure Cleaner (κ : Type) where
  custody : Custody κ
  waiting : Bool

namespace Cleaner

variable [Cores κ]

def step (c : Cleaner κ) : AllocatorStep κ → Cleaner κ
  | .clearCommits order now =>
    if c.waiting then ⟨c.custody.step (.clearCommits order now), false⟩ else c
  | i => { c with custody := c.custody.step i }

theorem not_waiting_iff (steps : List (AllocatorStep κ)) (c : Cleaner κ) :
    (steps.foldl step c).waiting = false ↔
      c.waiting = false ∨ ∃ order now, .clearCommits order now ∈ steps := by
  induction steps generalizing c with
  | nil => simp
  | cons i steps ih =>
    rw [foldl_cons, ih]
    cases i with
    | clearCommits order now =>
      refine iff_of_true (.inl ?_) (.inr ⟨order, now, .head _⟩)
      cases hwaiting : c.waiting <;> simp [step, hwaiting]
    | _ => simp [step]

def sampleCommit : List (AllocatorStep Hundredths) := Custody.failedRelease.take 1

def committed : Cleaner Hundredths := sampleCommit.foldl step ⟨.start ⟨30000, 30003⟩, true⟩

end Cleaner

end DMS.Node
