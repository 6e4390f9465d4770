import DMS.Core.Cycles
import DMS.Core.Levels
import DMS.Orchestrator.Commit

/-! # Starting the allocations

`provisionAllocations` of `dms/orchestrator/provision.go` with `orderByDependency` of
`utils.go`. The requests of one level run in parallel; what each of them sends and gets,
and how the goroutines of the level interleave, are inputs.
-/

namespace DMS.Orchestrator

open Jobs List AList

def orderByDependency (vertices : GoMap GoString (List GoString)) (order : RangeOrder) :
    Except String (List (List GoString)) :=
  match countDegrees vertices (order.visit vertices.entries) ⟨∅, ∅⟩ with
  | .error (vertexName, dep) =>
    .error (s!"service {printed vertexName} depends on non-existent service " ++ printed dep)
  | .ok d =>
    let queue := ((order.visit d.inDegree.entries).filter fun e => e.2 = 0).map Sigma.fst
    let result := levels d.dependentMap (vertices.keys.length + 1) queue d.inDegree
    if result.flatten.length ≠ vertices.keys.length then
      .error "cycle detected in dependencies"
    else .ok result

section Ordering

variable {vertices : GoMap GoString (List GoString)} {order : RangeOrder}

theorem levelInv_start (order : RangeOrder) {d : Degrees GoString} (hd : d.Of vertices) :
    LevelInv vertices []
      (((order.visit d.inDegree.entries).filter fun e => e.2 = 0).map Sigma.fst) d.inDegree := by
  have hqueue : ∀ v, v ∈ ((order.visit d.inDegree.entries).filter fun e => e.2 = 0).map Sigma.fst ↔
      d.inDegree.lookup v = some 0 := by
    intro v
    simp only [mem_map, mem_filter, order.mem_visit, decide_eq_true_eq]
    constructor
    · rintro ⟨⟨k, n⟩, ⟨he, rfl⟩, rfl⟩
      exact mem_lookup_iff.mpr he
    · intro hl
      exact ⟨⟨v, 0⟩, ⟨mem_lookup_iff.mp hl, rfl⟩, rfl⟩
  refine ⟨?_, ?_, ?_, ?_⟩
  · have hkeys : ((order.visit d.inDegree.entries).map Sigma.fst).Nodup :=
      ((order.perm d.inDegree.entries).map Sigma.fst).nodup_iff.mpr d.inDegree.nodupKeys
    exact hkeys.sublist (filter_sublist.map Sigma.fst)
  · intro v hv
    rw [← hd.keys, ← lookup_isSome, (hqueue v).mp hv]
    rfl
  · intro v
    rw [hd.degrees]
    simp
  intro v hv
  have hv' := (hd.keys v).mpr hv
  obtain ⟨n, hn⟩ := Option.isSome_iff_exists.mp (lookup_isSome.mpr hv')
  have hlen := hd.degrees v
  unfold degree at hlen
  rw [hn, Option.getD_some] at hlen
  rw [nil_append, hqueue, hn, hlen]
  simp [Option.some.injEq, Int.natCast_eq_zero, length_eq_zero_iff, not_mem_nil,
    eq_nil_iff_forall_not_mem]

theorem orderByDependency_ok {r} (h : orderByDependency vertices order = .ok r) :
    r.flatten.Nodup ∧ (∀ v, v ∈ r.flatten ↔ v ∈ vertices) ∧
      Ordered vertices [] r := by
  unfold orderByDependency at h
  split at h
  · cases h
  rename_i d hd
  obtain ⟨hlen, hresult⟩ := Outcome.ite_error_eq_ok.mp h
  have hd := degrees_of_countDegrees hd
  have hlevels := (levelInv_start order hd).levelsOf hd.dependents
    (vertices.keys.length + 1) (by simp)
  rw [Except.ok.inj hresult] at hlevels
  rw [Except.ok.inj hresult] at hlen
  have hnodup := hlevels.nodup
  have hknown := hlevels.known
  refine ⟨hnodup, fun v => ⟨hknown v, fun hv => ?_⟩, hlevels.ordered⟩
  have hsub : r.flatten.Subperm vertices.keys :=
    subperm_of_subset hnodup fun v hv => mem_keys.mp (hknown v hv)
  have hperm := hsub.perm_of_length_le (by omega)
  exact hperm.mem_iff.mpr (mem_keys.mp hv)

theorem orderByDependency_of_acyclic
    (hmem : ∀ v ∈ vertices, ∀ dep ∈ vertices.list v, dep ∈ vertices)
    (hacc : ∀ v, Acc (fun a b => a ∈ vertices.list b) v) :
    ∃ r, orderByDependency vertices order = .ok r := by
  have hentries : ∀ e ∈ order.visit vertices.entries, ∀ dep ∈ e.2, dep ∈ vertices := by
    intro e he dep hdep
    have hl : vertices.lookup e.1 = some e.2 := mem_lookup_iff.mpr (order.mem_visit.mp he)
    refine hmem e.1 (GoMap.mem_of_lookup hl) dep ?_
    rw [GoMap.list_of_lookup hl]
    exact hdep
  obtain ⟨d, hd⟩ := countDegrees_ok_of ⟨∅, ∅⟩ hentries
  have hof := degrees_of_countDegrees hd
  have hlevels := (levelInv_start order hof).levelsOf hof.dependents
    (vertices.keys.length + 1) (by simp)
  have hnodup := hlevels.nodup
  have hknown := hlevels.known
  rw [nil_append] at hnodup hknown
  have hall := hlevels.all hmem hacc
  have hperm := (perm_ext_iff_of_nodup hnodup vertices.keys_nodup).mpr fun v =>
    ⟨fun hv => mem_keys.mp (hknown v hv), fun hv => hall v (mem_keys.mpr hv)⟩
  rw [orderByDependency, hd]
  dsimp only
  rw [if_neg (not_not.mpr hperm.length_eq)]
  exact ⟨_, rfl⟩

theorem acc_of_ordered {done r}
    (h : Ordered vertices done r) (hdone : ∀ v ∈ done, Acc (Neighbour vertices) v) :
    ∀ v ∈ r.flatten, Acc (Neighbour vertices) v := by
  induction r generalizing done with
  | nil => simp
  | cons level rest ih =>
    have hlevel : ∀ v ∈ level, Acc (Neighbour vertices) v := fun v hv =>
      Acc.intro v fun dep hdep => hdone dep (h.1 v hv dep hdep)
    have hrest := ih h.2 fun v hv => (mem_append.mp hv).elim (hdone v) (hlevel v)
    exact fun v hv => (mem_append.mp hv).elim (hlevel v) (hrest v)

theorem mem_take_of_ordered {done r} (h : Ordered vertices done r) (i : Nat) {level}
    (hi : r[i]? = some level) {v dep} (hv : v ∈ level)
    (hdep : dep ∈ vertices.list v) : dep ∈ done ++ (r.take i).flatten := by
  induction r generalizing done i with
  | nil => cases hi
  | cons first rest ih =>
    cases i with
    | zero =>
      cases hi
      exact mem_append_left _ (h.1 v hv dep hdep)
    | succ i => simpa using ih h.2 i hi

/-- The levels partition the vertices, and a vertex stands after its dependencies. -/
structure Levelled (vertices : GoMap GoString (List GoString)) (result : List (List GoString)) :
    Prop where
  nodup : result.flatten.Nodup
  mem : ∀ v, v ∈ result.flatten ↔ v ∈ vertices
  earlier : ∀ (i : Nat) level, result[i]? = some level → ∀ v ∈ level, ∀ dep ∈ vertices.list v,
    dep ∈ (result.take i).flatten

def AllExist (vertices : GoMap GoString (List GoString)) : Prop :=
  ∀ v ∈ vertices, ∀ dep ∈ vertices.list v, dep ∈ vertices

/-- There is an ordering exactly of the graphs without cycles whose dependencies exist. -/
theorem ordering_correct (vertices : GoMap GoString (List GoString)) (order : RangeOrder) :
    ((∃ result, orderByDependency vertices order = .ok result) ↔
      AllExist vertices ∧ ¬ Cyclic vertices) ∧
    (∀ result, orderByDependency vertices order = .ok result → Levelled vertices result) ∧
    ∀ order', (detectCycles vertices order' = true ↔ Cyclic vertices) ∧
      (AllExist vertices → detectCycles vertices order' = false →
        ∃ result, orderByDependency vertices order = .ok result) := by
  have hlevelled {result : List (List GoString)}
      (h : orderByDependency vertices order = .ok result) : Levelled vertices result := by
    obtain ⟨hnodup, hmem, hordered⟩ := orderByDependency_ok h
    exact ⟨hnodup, hmem, fun i level hi v hv dep => mem_take_of_ordered hordered i hi hv⟩
  have hundetected (order' : RangeOrder) (hexist : AllExist vertices)
      (h : detectCycles vertices order' = false) :
      ∃ result, orderByDependency vertices order = .ok result :=
    orderByDependency_of_acyclic hexist (acc_of_detectCycles h)
  refine ⟨⟨?_, ?_⟩, fun result => hlevelled, fun order' => ⟨detectCycles_iff, hundetected order'⟩⟩
  · rintro ⟨result, h⟩
    have hlevels := hlevelled h
    have hacc := acc_of_ordered (orderByDependency_ok h).2.2 (by simp)
    constructor
    · intro v hv dep hdep
      obtain ⟨level, hlevel, hin⟩ := mem_flatten.mp ((hlevels.mem v).mpr hv)
      obtain ⟨i, hi⟩ := mem_iff_getElem?.mp hlevel
      obtain ⟨before, hbefore, hmem⟩ :=
        mem_flatten.mp (hlevels.earlier i level hi v hin dep hdep)
      exact (hlevels.mem dep).mp (mem_flatten.mpr ⟨before, mem_of_mem_take hbefore, hmem⟩)
    refine not_cyclic_of_acc fun v => ?_
    by_cases hv : v ∈ vertices
    · exact hacc v ((hlevels.mem v).mpr hv)
    · exact Acc.intro v fun dep hdep => absurd (GoMap.mem_keys_of_mem_list hdep) hv
  rintro ⟨hexist, hacyclic⟩
  refine hundetected order hexist ?_
  rw [← Bool.not_eq_true, detectCycles_iff]
  exact hacyclic

end Ordering

/-- A way in which threads that run in parallel interleave: every thread keeps its own
order. -/
structure Interleaving where
  merge : {α : Type} → List (List α) → List α
  perm : ∀ {α : Type} (threads : List (List α)), (merge threads).Perm threads.flatten
  sublist : ∀ {α : Type} (threads : List (List α)), ∀ t ∈ threads, t.Sublist (merge threads)

def Interleaving.sequential : Interleaving where
  merge := List.flatten
  perm threads := List.Perm.refl threads.flatten
  sublist _ _ ht := List.sublist_flatten_of_mem ht

/-- An `AllocationStartRequest` and the allocation it is for. -/
structure Start where
  nodeKey : GoString
  allocName : GoString
  allocKey : GoString
  dest : Handle
  portMapping : GoMap Int Int

inductive StartEvent
  | sent (start : Start)
  | ended (start : Start) (ok : Bool)

def startError : Reply → Option String
  | .noMessage text => some s!"error creating allocation start message: {text}"
  | .notInvoked text => some s!"error invoking allocation start: {text}"
  | .timeout => some "timeout starting allocation: failed to create deployment"
  | .unreadable text => some s!"error unmarshalling allocation start response: {text}"
  | .refused text => some s!"error starting allocation: {text}: failed to create deployment"
  | .ok => none

def startEvents (start : Start) (reply : Reply) : List StartEvent :=
  if reply.sent then [.sent start, .ended start (reply = .ok)] else []

def startStatus (manifest : EnsembleManifest) (start : Start) : Reply → Option AllocationStatus
  | .ok =>
    let allocManifest := (manifest.allocations.lookup start.allocKey).getD .zero
    let nodeRole := (manifest.nodes.lookup allocManifest.nodeID).map NodeManifest.redundancyRole
    if allocManifest.isStandby = true ∨ nodeRole = some .standby then some .standby
    else some .running
  | .refused _ => some .failed
  | _ => none

def rawNodeAllocations (nodeManifest : NodeManifest) : List GoString :=
  nodeManifest.allocations.filterMap fun alloc =>
    match alloc.splitOn dot with
    | [_, name] => some name
    | _ => none

structure ProvisionInputs where
  order : RangeOrder
  nodes : RangeOrder
  reply : GoString → GoString → Reply
  interleaving : GoString → Nat → Interleaving
  ended : GoString → Nat → RangeOrder

structure Provisioning where
  statuses : GoMap GoString AllocationStatus
  manifest : EnsembleManifest
  trace : List StartEvent

def starts (manifest : EnsembleManifest) (nodeKey : GoString) (nodeManifest : NodeManifest)
    (allocs : List GoString) : List Start :=
  allocs.filterMap fun allocName =>
    (generateManifestKey nodeKey allocName).bind fun allocKey =>
      if allocName ∈ rawNodeAllocations nodeManifest then
        let allocManifest := (manifest.allocations.lookup allocKey).getD .zero
        some ⟨nodeKey, allocName, allocKey, allocManifest.handle, allocManifest.ports⟩
      else none

def setStatuses (statuses : GoMap GoString AllocationStatus)
    (allocations : GoMap GoString AllocationManifest) : GoMap GoString AllocationManifest :=
  allocations.mapValues fun key alloc =>
    match statuses.lookup key with
    | none => alloc
    | some status => { alloc with status := status }

/-- One level of one node. A status for a key that the manifest does not have is an error, and may
be a panic when it comes after the channel was closed, which is no success either. -/
def provisionLevel (inputs : ProvisionInputs) (nodeKey : GoString) (nodeManifest : NodeManifest)
    (level : Nat) (allocs : List GoString) (s : Provisioning) : Provisioning × List String :=
  let starts := starts s.manifest nodeKey nodeManifest allocs
  let reply := fun start : Start => inputs.reply nodeKey start.allocName
  let events := (inputs.interleaving nodeKey level).merge
    (starts.map fun start => startEvents start (reply start))
  let statuses := GoMap.insertAll
    (starts.filterMap fun start =>
      (startStatus s.manifest start (reply start)).map fun status => (start.allocKey, status))
    s.statuses
  let errs := (inputs.ended nodeKey level).visit
    (starts.filterMap fun start => startError (reply start))
  let missing := statuses.keys.filter fun key => key ∉ s.manifest.allocations
  ({ statuses := statuses
     manifest := { s.manifest with allocations := setStatuses statuses s.manifest.allocations }
     trace := s.trace ++ events },
    errs ++ missing.map fun _ => "allocation not found")

def provisionLevels (inputs : ProvisionInputs) (nodeKey : GoString)
    (nodeManifest : NodeManifest) :
    Nat → List (List GoString) → Provisioning → Provisioning × List String
  | _, [], s => (s, [])
  | level, allocs :: rest, s =>
    let (s, errs) := provisionLevel inputs nodeKey nodeManifest level allocs s
    if errs ≠ [] then (s, errs)
    else provisionLevels inputs nodeKey nodeManifest (level + 1) rest s

def provisionNodes (inputs : ProvisionInputs) (orderedAllocs : List (List GoString)) :
    List (Σ _ : GoString, NodeManifest) → Provisioning → Provisioning × List String
  | [], s => (s, [])
  | e :: es, s =>
    if e.2.redundancyRole = .standby then provisionNodes inputs orderedAllocs es s
    else
      let (s, errs) := provisionLevels inputs e.1 e.2 0 orderedAllocs s
      if errs ≠ [] then (s, errs) else provisionNodes inputs orderedAllocs es s

/-- The manifest that is returned, the errors (none of them for `nil`), and everything
that was sent. -/
structure ProvisionRun where
  manifest : EnsembleManifest
  errs : List String
  trace : List StartEvent

def provisionAllocations (cfg : EnsembleConfig) (manifest : EnsembleManifest)
    (inputs : ProvisionInputs) : ProvisionRun :=
  match orderByDependency (cfg.allocations.mapValues fun _ alloc => alloc.dependsOn)
    inputs.order with
  | .error e => ⟨manifest, [e], []⟩
  | .ok orderedAllocs =>
    let (s, errs) := provisionNodes inputs orderedAllocs
      (inputs.nodes.visit manifest.nodes.entries) ⟨∅, manifest, []⟩
    ⟨s.manifest, errs, s.trace⟩

def successes : ProvisionInputs where
  order := .stored
  nodes := .stored
  reply _ _ := .ok
  interleaving _ _ := .sequential
  ended _ _ := .stored

/-- Two manifests with the same nodes and with entries for the same nodes under every key. -/
structure SamePlaces (mf mf' : EnsembleManifest) : Prop where
  nodes : mf'.nodes = mf.nodes
  nodeIDs : ∀ key, (mf'.allocations.lookup key).map AllocationManifest.nodeID =
    (mf.allocations.lookup key).map AllocationManifest.nodeID

namespace SamePlaces

theorem refl (mf : EnsembleManifest) : SamePlaces mf mf := ⟨rfl, fun _ => rfl⟩

theorem trans {mf mf' mf''} (h : SamePlaces mf mf')
    (h' : SamePlaces mf' mf'') : SamePlaces mf mf'' :=
  ⟨h'.nodes.trans h.nodes, fun key => (h'.nodeIDs key).trans (h.nodeIDs key)⟩

theorem mem_allocations {mf mf'} (h : SamePlaces mf mf') {key} :
    key ∈ mf.allocations ↔ key ∈ mf'.allocations := by
  rw [← lookup_isSome, ← lookup_isSome, ← Option.isSome_map, ← h.nodeIDs key, Option.isSome_map]

end SamePlaces

section Rule

variable {inp : ProvisionInputs} {R : Provisioning → Provisioning → Prop}
  (hrefl : ∀ s, R s s) (htrans : ∀ s s' s'', R s s' → R s' s'' → R s s'')
  (hlevel : ∀ nodeKey nodeManifest level allocs s,
    R s (provisionLevel inp nodeKey nodeManifest level allocs s).1)

include hrefl htrans hlevel

theorem provisionLevels_rule (nodeKey : GoString) (nodeManifest : NodeManifest) (level : Nat)
    (rest : List (List GoString)) (s : Provisioning) :
    R s (provisionLevels inp nodeKey nodeManifest level rest s).1 := by
  induction rest generalizing level s with
  | nil => exact hrefl s
  | cons allocs rest ih =>
    unfold provisionLevels
    dsimp only
    split
    · exact hlevel ..
    · exact htrans _ _ _ (hlevel ..) (ih ..)

theorem provisionNodes_rule (layers : List (List GoString))
    (es : List (Σ _, NodeManifest)) (s : Provisioning) :
    R s (provisionNodes inp layers es s).1 := by
  induction es generalizing s with
  | nil => exact hrefl s
  | cons e es ih =>
    have hlevels := provisionLevels_rule hrefl htrans hlevel e.1 e.2 0 layers s
    unfold provisionNodes
    dsimp only
    split
    · exact ih s
    split
    · exact hlevels
    · exact htrans _ _ _ hlevels (ih _)

end Rule

theorem provisionAllocations_places (cfg : EnsembleConfig) (m : EnsembleManifest)
    (inp : ProvisionInputs) : SamePlaces m (provisionAllocations cfg m inp).manifest := by
  unfold provisionAllocations
  split
  · exact .refl _
  refine provisionNodes_rule (R := fun s s' => SamePlaces s.manifest s'.manifest)
    (fun _ => .refl _) (fun _ _ _ h h' => h.trans h')
    (fun _ _ _ _ _ => ⟨rfl, fun key => ?_⟩) _ _ ⟨∅, m, []⟩
  rw [provisionLevel, setStatuses, GoMap.lookup_mapValues, Option.map_map]
  congr 1
  funext alloc
  split <;> rfl

end DMS.Orchestrator
