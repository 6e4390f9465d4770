import DMS.Jobs.Validate
import DMS.Orchestrator.Provision

/-! # The order of the starts

What `provisionAllocations` sends for an ensemble that the validator accepts, with the
manifest that a commit of its `newManifest` returns. Allocations are started after what
they depend on, and each of them once, when the keys of the manifest can be taken apart.
-/

namespace DMS.Orchestrator

open Jobs GoMap EnsembleConfig List Option

/-- `createEnsembleID` gives the digits of a hash, which are not empty. -/
abbrev EnsembleID := { id : GoString // id ≠ [] }

/-! ## Keys -/

variable {n a key : GoString} {cfg : EnsembleConfig}

theorem generateManifestKey_eq_some :
    generateManifestKey n a = some key ↔ n ≠ [] ∧ a ≠ [] ∧ key = n ++ dot :: a := by
  unfold generateManifestKey
  split
  · next h =>
    simp only [false_iff, reduceCtorEq]
    rintro ⟨hn, ha, -⟩
    exact h.elim hn ha
  rename_i h
  rw [not_or] at h
  simp only [some.injEq, h, not_false_eq_true, ne_eq, true_and]
  exact eq_comm

theorem mem_rawNodeAllocations {nmf} :
    a ∈ rawNodeAllocations nmf ↔ ∃ x, ∃ key ∈ nmf.allocations, key.splitOn dot = [x, a] := by
  unfold rawNodeAllocations
  simp only [mem_filterMap]
  constructor
  · rintro ⟨key, hkey, h⟩
    split at h
    · next x name hsplit =>
      cases h
      exact ⟨x, key, hkey, hsplit⟩
    · cases h
  · rintro ⟨x, key, hkey, hsplit⟩
    exact ⟨key, hkey, by rw [hsplit]⟩

/-! ## The manifest of the ensemble -/

/-- The nodes of the manifest list the keys of the configuration, and a key that has two
parts has an entry. -/
structure Describes (cfg : EnsembleConfig) (manifest : EnsembleManifest) : Prop where
  lists : ∀ n nmf, manifest.nodes.lookup n = some nmf → ∃ node, cfg.nodes.lookup n = some node ∧
      nmf.allocations = nodeAllocations cfg n node.allocations
  entries : ∀ n nmf, manifest.nodes.lookup n = some nmf → ∀ key ∈ nmf.allocations,
    (key.splitOn dot).length = 2 → key ∈ manifest.allocations

theorem mem_newManifest_allocations {eid : EnsembleID}
    {node : NodeConfig} (hnode : cfg.nodes.lookup n = some node)
    (hkey : key ∈ nodeAllocations cfg n node.allocations) (htwo : (key.splitOn dot).length = 2) :
    key ∈ (newManifest eid cfg).allocations := by
  obtain ⟨a, -, hacfg, hgen⟩ := mem_nodeAllocations.mp hkey
  obtain ⟨hn, ha, rfl⟩ := generateManifestKey_eq_some.mp hgen
  obtain ⟨hdotn, hdota⟩ := splitOn_length_two.mp htwo
  obtain ⟨acfg, hl⟩ := exists_lookup hacfg
  have hnodes : (newManifest eid cfg).nodes.lookup n = some (newNodeManifest cfg n node) := by
    rw [newManifest_lookup, hnode]
    rfl
  have hfull : generateFullAllocationID eid n a = some (eid.1 ++ ascii "_" ++ n ++ dot :: a) := by
    unfold generateFullAllocationID
    simp [eid.2, hn, ha]
  have hentry : ∃ amf, newAllocationManifest eid cfg n (newNodeManifest cfg n node)
      (n ++ dot :: a) = some (n ++ dot :: a, amf) := by
    unfold newAllocationManifest allocation
    rw [splitOn_two_parts hdotn hdota]
    dsimp only
    rw [hl, hfull]
    exact ⟨_, rfl⟩
  obtain ⟨amf, hamf⟩ := hentry
  refine mem_insertAll.mpr (.inr ⟨amf, ?_⟩)
  refine mem_flatMap.mpr ⟨⟨n, newNodeManifest cfg n node⟩, AList.mem_lookup_iff.mp hnodes, ?_⟩
  exact mem_filterMap.mpr ⟨n ++ dot :: a, hkey, hamf⟩

theorem describes_commit {eid : EnsembleID} {c} {inp : CommitInputs}
    (h : (commit cfg eid (newManifest eid cfg) c inp).error = none) :
    Describes cfg (commit cfg eid (newManifest eid cfg) c inp).manifest := by
  have hcommitted := commit_of_ok h
  have hlists : ∀ n nmf,
      (commit cfg eid (newManifest eid cfg) c inp).manifest.nodes.lookup n = some nmf →
      ∃ node, cfg.nodes.lookup n = some node ∧
        nmf.allocations = nodeAllocations cfg n node.allocations := by
    intro n nmf hn
    rw [hcommitted.nodes, newManifest_lookup] at hn
    simp only [Option.map_map, map_eq_some_iff, Function.comp_apply] at hn
    obtain ⟨node, hnode, rfl⟩ := hn
    exact ⟨node, hnode, filled_allocations ..⟩
  refine ⟨hlists, fun n nmf hn key hkey htwo => ?_⟩
  obtain ⟨node, hnode, hlist⟩ := hlists n nmf hn
  rw [hcommitted.allocations]
  rw [hlist] at hkey
  exact mem_newManifest_allocations hnode hkey htwo

namespace Describes

variable {cfg : EnsembleConfig} {m : EnsembleManifest} {n : GoString} {nmf : NodeManifest}

theorem key_cases (h : Describes cfg m) (hn : m.nodes.lookup n = some nmf)
    {key} (hkey : key ∈ nmf.allocations) :
    ∃ a, generateManifestKey n a = some key ∧ a ∈ cfg.allocations := by
  obtain ⟨node, -, hlist⟩ := h.lists n nmf hn
  rw [hlist] at hkey
  obtain ⟨a, -, hacfg, hgen⟩ := mem_nodeAllocations.mp hkey
  exact ⟨a, hgen, hacfg⟩

theorem key_of_raw (h : Describes cfg m) (hn : m.nodes.lookup n = some nmf)
    {a} (ha : a ∈ rawNodeAllocations nmf) :
    ∃ key ∈ nmf.allocations, generateManifestKey n a = some key ∧ dot ∉ n ∧ dot ∉ a := by
  obtain ⟨x, key, hkey, hsplit⟩ := mem_rawNodeAllocations.mp ha
  obtain ⟨a', hgen, -⟩ := h.key_cases hn hkey
  obtain ⟨hn0, ha0, rfl⟩ := generateManifestKey_eq_some.mp hgen
  obtain ⟨hdotn, hdota⟩ := splitOn_length_two.mp (by rw [hsplit]; rfl)
  rw [splitOn_two_parts hdotn hdota] at hsplit
  cases hsplit
  exact ⟨_, hkey, hgen, hdotn, hdota⟩

theorem raw_closed (h : Describes cfg m) (hcfg : Accepted cfg) (hn : m.nodes.lookup n = some nmf)
    (htwo : ∀ key ∈ nmf.allocations, (key.splitOn dot).length = 2) {a dep}
    (ha : a ∈ rawNodeAllocations nmf) (hdep : dep ∈ dependencies cfg.allocations a) :
    dep ∈ rawNodeAllocations nmf := by
  obtain ⟨key, hkey, hgen, -, -⟩ := h.key_of_raw hn ha
  obtain ⟨node, hnode, hlist⟩ := h.lists n nmf hn
  have hkey' := hkey
  rw [hlist] at hkey'
  obtain ⟨a', ha', hacfg, hgen'⟩ := mem_nodeAllocations.mp hkey'
  obtain ⟨hn0, -, rfl⟩ := generateManifestKey_eq_some.mp hgen
  obtain ⟨-, -, hsame⟩ := generateManifestKey_eq_some.mp hgen'
  have haa : a' = a := by simpa using hsame.symm
  rw [haa] at ha'
  have hin : dep ∈ node.allocations := by
    rcases nodes_lookup_cases hnode with hprimary | ⟨p, primary, hprimary, hstandby⟩
    · exact hcfg.together n node hprimary a ha' dep hdep
    have hallocs : node.allocations = primary.allocations := by
      rw [(mem_standbyNodes.mp hstandby).1]
    rw [hallocs] at ha' ⊢
    exact hcfg.together p primary hprimary a ha' dep hdep
  have hexist := hcfg.exist a dep hdep
  have hne : dep ≠ [] := by
    rintro rfl
    have hvalid := hcfg.named [] hexist
    revert hvalid
    decide
  have hgen : generateManifestKey n dep = some (n ++ dot :: dep) :=
    generateManifestKey_eq_some.mpr ⟨hn0, hne, rfl⟩
  have hlisted : n ++ dot :: dep ∈ nmf.allocations := by
    rw [hlist]
    exact mem_nodeAllocations.mpr ⟨dep, hin, hexist, hgen⟩
  obtain ⟨hdotn, hdotd⟩ := splitOn_length_two.mp (htwo _ hlisted)
  exact mem_rawNodeAllocations.mpr ⟨n, _, hlisted, splitOn_two_parts hdotn hdotd⟩

end Describes

/-! ## One level -/

def sentKeys (trace : List StartEvent) : List GoString := trace.filterMap fun
    | .sent start => some start.allocKey
    | .ended _ _ => none

def Succeeded (n a : GoString) (trace : List StartEvent) : Prop :=
  ∃ start : Start, start.nodeKey = n ∧ start.allocName = a ∧
    generateManifestKey n a = some start.allocKey ∧ .ended start true ∈ trace

theorem Succeeded.mono {trace trace'} (h : Succeeded n a trace)
    (hpast : trace <+: trace') : Succeeded n a trace' := by
  obtain ⟨start, hn, ha, hkey, hin⟩ := h
  exact ⟨start, hn, ha, hkey, hpast.subset hin⟩

def levelKeys (n : GoString) (nmf : NodeManifest) (allocs : List GoString) : List GoString :=
  allocs.filterMap fun a =>
    (generateManifestKey n a).bind fun key =>
      if a ∈ rawNodeAllocations nmf then some key else none

theorem mem_levelKeys {nmf allocs} : key ∈ levelKeys n nmf allocs ↔
      ∃ a ∈ allocs, generateManifestKey n a = some key ∧ a ∈ rawNodeAllocations nmf := by
  unfold levelKeys
  simp [bind_eq_some_iff]

section Level

variable {inp : ProvisionInputs} {n : GoString} {nmf : NodeManifest} {level : Nat}
  {allocs : List GoString} {s : Provisioning}

variable {start : Start}

theorem mem_starts {m} (h : start ∈ starts m n nmf allocs) :
    start.nodeKey = n ∧ start.allocName ∈ allocs ∧ start.allocName ∈ rawNodeAllocations nmf ∧
      generateManifestKey n start.allocName = some start.allocKey := by
  unfold starts at h
  simp only [mem_filterMap, bind_eq_some_iff] at h
  obtain ⟨a, ha, key, hkey, h⟩ := h
  split at h
  · next hraw =>
    cases h
    exact ⟨rfl, ha, hraw, hkey⟩
  · cases h

theorem exists_start (m : EnsembleManifest) {a key} (ha : a ∈ allocs)
    (hraw : a ∈ rawNodeAllocations nmf) (hkey : generateManifestKey n a = some key) :
    ∃ start ∈ starts m n nmf allocs, start.allocName = a := by
  refine ⟨⟨n, a, key, ((m.allocations.lookup key).getD .zero).handle,
    ((m.allocations.lookup key).getD .zero).ports⟩, ?_, rfl⟩
  refine mem_filterMap.mpr ⟨a, ha, ?_⟩
  rw [hkey, bind_some, if_pos hraw]

theorem map_allocKey_starts (m : EnsembleManifest) (n : GoString) (nmf : NodeManifest)
    (allocs : List GoString) :
    (starts m n nmf allocs).map Start.allocKey = levelKeys n nmf allocs := by
  rw [starts, map_filterMap]
  refine filterMap_congr fun a _ => ?_
  cases generateManifestKey n a with
  | none => rfl
  | some key =>
    split <;> rfl

theorem provisionLevel_trace :
    ∃ events, (provisionLevel inp n nmf level allocs s).1.trace = s.trace ++ events ∧
      (∀ start, .sent start ∈ events → start ∈ starts s.manifest n nmf allocs) ∧
      ∀ start ∈ starts s.manifest n nmf allocs, inp.reply n start.allocName = .ok →
        .ended start true ∈ events := by
  refine ⟨_, rfl, ?_, ?_⟩
  · intro start hin
    have hin := ((inp.interleaving n level).perm _).mem_iff.mp hin
    obtain ⟨thread, hthread, hin⟩ := mem_flatten.mp hin
    obtain ⟨start', hstart', rfl⟩ := mem_map.mp hthread
    unfold startEvents at hin
    split at hin
    · simp at hin
      exact hin ▸ hstart'
    · cases hin
  intro start hstart hreply
  refine ((inp.interleaving n level).perm _).mem_iff.mpr (mem_flatten.mpr ?_)
  refine ⟨_, mem_map.mpr ⟨start, hstart, rfl⟩, ?_⟩
  dsimp only
  rw [hreply]
  simp [startEvents, Reply.sent]

theorem level_past (n : GoString) (nmf : NodeManifest) (level : Nat) (allocs : List GoString)
    (s : Provisioning) : s.trace <+: (provisionLevel inp n nmf level allocs s).1.trace :=
  prefix_append ..

theorem startError_eq_none {reply} : startError reply = none ↔ reply = .ok := by
  cases reply <;> simp [startError]

theorem reply_of_errs (h : (provisionLevel inp n nmf level allocs s).2 = [])
    (hstart : start ∈ starts s.manifest n nmf allocs) : inp.reply n start.allocName = .ok := by
  obtain ⟨herrs, -⟩ := append_eq_nil_iff.mp h
  have hperm := (inp.ended n level).perm ((starts s.manifest n nmf allocs).filterMap
    fun start => startError (inp.reply n start.allocName))
  rw [herrs] at hperm
  exact startError_eq_none.mp (filterMap_eq_nil_iff.mp hperm.symm.eq_nil start hstart)

theorem succeeded_of_level (h : (provisionLevel inp n nmf level allocs s).2 = [])
    {a key} (ha : a ∈ allocs) (hraw : a ∈ rawNodeAllocations nmf)
    (hkey : generateManifestKey n a = some key) :
    Succeeded n a (provisionLevel inp n nmf level allocs s).1.trace := by
  obtain ⟨start, hstart, rfl⟩ := exists_start s.manifest ha hraw hkey
  obtain ⟨events, htrace, -, hended⟩ := @provisionLevel_trace inp n nmf level allocs s
  obtain ⟨hn, -, -, hgen⟩ := mem_starts hstart
  rw [htrace]
  exact ⟨start, hn, rfl, hgen, mem_append_right _ (hended start hstart (reply_of_errs h hstart))⟩

theorem sentKeys_append (t t' : List StartEvent) : sentKeys (t ++ t') = sentKeys t ++ sentKeys t' :=
  filterMap_append

theorem sentKeys_level (h : (provisionLevel inp n nmf level allocs s).2 = []) :
    (sentKeys (provisionLevel inp n nmf level allocs s).1.trace).Perm
      (sentKeys s.trace ++ levelKeys n nmf allocs) := by
  have hreply := fun start (hstart : start ∈ starts s.manifest n nmf allocs) =>
    reply_of_errs h hstart
  have htrace : (provisionLevel inp n nmf level allocs s).1.trace = s.trace ++
      (inp.interleaving n level).merge ((starts s.manifest n nmf allocs).map
        fun start => startEvents start (inp.reply n start.allocName)) := rfl
  rw [htrace, sentKeys_append, ← map_allocKey_starts s.manifest]
  refine List.Perm.append_left _ ?_
  refine (((inp.interleaving n level).perm _).filterMap _).trans (List.Perm.of_eq ?_)
  generalize starts s.manifest n nmf allocs = threads at hreply ⊢
  induction threads with
  | nil => rfl
  | cons start rest ih =>
    have hhead : sentKeys (startEvents start (inp.reply n start.allocName)) =
        [start.allocKey] := by
      rw [hreply start (.head _)]
      rfl
    rw [map_cons, flatten_cons, filterMap_append,
      ih fun start hstart => hreply start (.tail _ hstart)]
    exact congrArg (· ++ rest.map Start.allocKey) hhead

end Level

/-! ## The levels of a node -/

/-- Every request was sent after what it depends on had succeeded. -/
def Timely (cfg : EnsembleConfig) (trace : List StartEvent) : Prop :=
  ∀ past start future, trace = past ++ .sent start :: future →
    ∀ dep ∈ dependencies cfg.allocations start.allocName, Succeeded start.nodeKey dep past

theorem Timely.append {trace events} (h : Timely cfg trace)
    (hevents : ∀ start, .sent start ∈ events →
      ∀ dep ∈ dependencies cfg.allocations start.allocName, Succeeded start.nodeKey dep trace) :
    Timely cfg (trace ++ events) := by
  intro past start future heq
  rcases append_eq_append_iff.mp heq with ⟨middle, rfl, hevents'⟩ | ⟨middle, rfl, hfuture⟩
  · intro dep hdep
    refine (hevents start ?_ dep hdep).mono (prefix_append ..)
    rw [hevents']
    simp
  cases middle with
  | nil =>
    rw [append_nil] at hevents
    refine hevents start ?_
    rw [nil_append] at hfuture
    simp [← hfuture]
  | cons e middle =>
    obtain ⟨rfl, -⟩ := cons.inj hfuture
    exact h past start middle rfl

section Levels

variable {inp : ProvisionInputs} {n : GoString} {nmf : NodeManifest}

theorem list_interim (cfg : EnsembleConfig) (a : GoString) :
    (cfg.allocations.mapValues fun _ alloc => alloc.dependsOn).list a =
      dependencies cfg.allocations a := by
  rw [list, dependencies, lookup_mapValues]

theorem provisionLevels_ok {level rest s} (h : (provisionLevels inp n nmf level rest s).2 = []) :
    (∀ a ∈ rest.flatten, a ∈ rawNodeAllocations nmf → ∀ key, generateManifestKey n a = some key →
      Succeeded n a (provisionLevels inp n nmf level rest s).1.trace) ∧
    (sentKeys (provisionLevels inp n nmf level rest s).1.trace).Perm
      (sentKeys s.trace ++ levelKeys n nmf rest.flatten) := by
  induction rest generalizing level s with
  | nil => exact ⟨by simp, by simp [levelKeys, provisionLevels]⟩
  | cons allocs rest ih =>
    unfold provisionLevels at h ⊢
    dsimp only at h ⊢
    split
    · next herrs =>
      rw [if_pos herrs] at h
      exact absurd h herrs
    rename_i herrs
    rw [if_neg herrs] at h
    obtain ⟨hsucceeded, hsent⟩ := ih h
    have herrs := not_not.mp herrs
    refine ⟨?_, ?_⟩
    · intro a ha hraw key hkey
      rcases mem_append.mp (flatten_cons ▸ ha) with ha | ha
      · refine (succeeded_of_level herrs ha hraw hkey).mono ?_
        exact provisionLevels_rule (R := fun s s' => s.trace <+: s'.trace)
          (fun _ => prefix_rfl) (fun _ _ _ h h' => h.trans h') level_past ..
      · exact hsucceeded a ha hraw key hkey
    refine hsent.trans ?_
    rw [flatten_cons]
    unfold levelKeys
    rw [filterMap_append, ← append_assoc]
    exact (sentKeys_level herrs).append_right _

theorem provisionLevels_timely {cfg : EnsembleConfig}
    (hkeys : ∀ a ∈ rawNodeAllocations nmf, ∃ key, generateManifestKey n a = some key)
    (hclosed : ∀ a ∈ rawNodeAllocations nmf, ∀ dep ∈ dependencies cfg.allocations a,
      dep ∈ rawNodeAllocations nmf) {level done rest} {s : Provisioning}
    (hordered : Ordered (cfg.allocations.mapValues fun _ alloc => alloc.dependsOn) done rest)
    (hdone : ∀ a ∈ done, a ∈ rawNodeAllocations nmf → Succeeded n a s.trace)
    (hs : Timely cfg s.trace) : Timely cfg (provisionLevels inp n nmf level rest s).1.trace := by
  induction rest generalizing level done s with
  | nil => exact hs
  | cons allocs rest ih =>
    obtain ⟨hlevel, hordered⟩ := hordered
    obtain ⟨events, htrace, hevents, -⟩ := @provisionLevel_trace inp n nmf level allocs s
    have htimely : Timely cfg (provisionLevel inp n nmf level allocs s).1.trace := by
      rw [htrace]
      refine hs.append fun start hsent dep hdep => ?_
      obtain ⟨hn, ha, hraw, -⟩ := mem_starts (hevents start hsent)
      rw [hn]
      refine hdone dep (hlevel start.allocName ha dep ?_) (hclosed _ hraw dep hdep)
      rw [list_interim]
      exact hdep
    unfold provisionLevels
    dsimp only
    split
    · exact htimely
    rename_i herrs
    have herrs := not_not.mp herrs
    refine ih hordered ?_ htimely
    intro a ha hraw
    rcases mem_append.mp ha with ha | ha
    · exact (hdone a ha hraw).mono (level_past ..)
    · obtain ⟨key, hkey⟩ := hkeys a hraw
      exact succeeded_of_level herrs ha hraw hkey

end Levels

/-! ## All the nodes -/

section Nodes

variable {inp : ProvisionInputs} {layers : List (List GoString)}

def startKeys (orderedAllocs : List (List GoString)) (es : List (Σ _ : GoString, NodeManifest)) :
    List GoString :=
  (es.filter fun e => e.2.redundancyRole ≠ .standby).flatMap fun e =>
    levelKeys e.1 e.2 orderedAllocs.flatten

theorem provisionNodes_ok {es s} (h : (provisionNodes inp layers es s).2 = []) :
    (∀ e ∈ es, e.2.redundancyRole ≠ .standby → ∀ a ∈ layers.flatten,
      a ∈ rawNodeAllocations e.2 → ∀ key, generateManifestKey e.1 a = some key →
        Succeeded e.1 a (provisionNodes inp layers es s).1.trace) ∧
    (sentKeys (provisionNodes inp layers es s).1.trace).Perm
      (sentKeys s.trace ++ startKeys layers es) := by
  induction es generalizing s with
  | nil => exact ⟨by simp, by simp [startKeys, provisionNodes]⟩
  | cons e es ih =>
    unfold provisionNodes at h ⊢
    by_cases hrole : e.2.redundancyRole = .standby
    · rw [if_pos hrole] at h ⊢
      obtain ⟨hsucceeded, hsent⟩ := ih h
      refine ⟨?_, ?_⟩
      · intro e' he' hrole'
        rcases mem_cons.mp he' with rfl | he'
        · exact absurd hrole hrole'
        · exact hsucceeded e' he' hrole'
      · simpa [startKeys, hrole] using hsent
    rw [if_neg hrole] at h ⊢
    dsimp only at h ⊢
    by_cases herrs : (provisionLevels inp e.1 e.2 0 layers s).2 = []
    · rw [if_neg (not_not.mpr herrs)] at h ⊢
      obtain ⟨hhead, hheadSent⟩ := provisionLevels_ok herrs
      obtain ⟨hsucceeded, hsent⟩ := ih h
      refine ⟨?_, ?_⟩
      · intro e' he' hrole' a ha hraw key hkey
        rcases mem_cons.mp he' with rfl | he'
        · refine (hhead a ha hraw key hkey).mono ?_
          exact provisionNodes_rule (R := fun s s' => s.trace <+: s'.trace)
            (fun _ => prefix_rfl) (fun _ _ _ h h' => h.trans h') level_past ..
        · exact hsucceeded e' he' hrole' a ha hraw key hkey
      refine hsent.trans ?_
      have hkeys : startKeys layers (e :: es) =
          levelKeys e.1 e.2 layers.flatten ++ startKeys layers es := by
        simp [startKeys, hrole]
      rw [hkeys, ← append_assoc]
      exact hheadSent.append_right _
    · rw [if_pos herrs] at h
      exact absurd h herrs

theorem provisionNodes_timely {cfg : EnsembleConfig} {es}
    (hkeys : ∀ e ∈ es, ∀ a ∈ rawNodeAllocations e.2, ∃ key, generateManifestKey e.1 a = some key)
    (hclosed : ∀ e ∈ es, e.2.redundancyRole ≠ .standby → ∀ a ∈ rawNodeAllocations e.2,
      ∀ dep ∈ dependencies cfg.allocations a, dep ∈ rawNodeAllocations e.2)
    (hordered : Ordered (cfg.allocations.mapValues fun _ alloc => alloc.dependsOn) []
      layers) {s : Provisioning} (hs : Timely cfg s.trace) :
    Timely cfg (provisionNodes inp layers es s).1.trace := by
  induction es generalizing s with
  | nil => exact hs
  | cons e es ih =>
    have hrest := fun {s : Provisioning} (hs : Timely cfg s.trace) =>
      ih (fun e he => hkeys e (.tail _ he)) (fun e he => hclosed e (.tail _ he)) hs
    unfold provisionNodes
    split
    · exact hrest hs
    rename_i hrole
    have hnode : Timely cfg (provisionLevels inp e.1 e.2 0 layers s).1.trace :=
      provisionLevels_timely (hkeys e (.head _)) (hclosed e (.head _) hrole) hordered (by simp) hs
    dsimp only
    split
    · exact hnode
    · exact hrest hnode

end Nodes

/-! ## Runs in which every start succeeds -/

section Successes

variable {keys : GoMap GoString AllocationManifest}

structure Settled (keys : GoMap GoString AllocationManifest) (s : Provisioning) : Prop where
  entries : ∀ k, k ∈ s.manifest.allocations ↔ k ∈ keys
  statuses : ∀ k ∈ s.statuses, k ∈ keys

variable {n : GoString} {nmf : NodeManifest}
  (hnode : ∀ a ∈ rawNodeAllocations nmf, ∀ key, generateManifestKey n a = some key → key ∈ keys)

include hnode

variable {s : Provisioning}

theorem successes_level (level : Nat) (allocs : List GoString) (hs : Settled keys s) :
    (provisionLevel successes n nmf level allocs s).2 = [] ∧
      Settled keys (provisionLevel successes n nmf level allocs s).1 := by
  have hstatuses : ∀ k ∈ (provisionLevel successes n nmf level allocs s).1.statuses, k ∈ keys := by
    intro k hk
    rcases mem_insertAll.mp hk with hk | ⟨st, hk⟩
    · exact hs.statuses k hk
    obtain ⟨start, hstart, hstatus⟩ := mem_filterMap.mp hk
    obtain ⟨_, -, heq⟩ := map_eq_some_iff.mp hstatus
    obtain ⟨-, -, hraw, hgen⟩ := mem_starts hstart
    cases heq
    exact hnode _ hraw _ hgen
  refine ⟨append_eq_nil_iff.mpr ⟨?_, ?_⟩, ?_, hstatuses⟩
  · refine filterMap_eq_nil_iff.mpr fun start _ => ?_
    rfl
  · rw [map_eq_nil_iff, filter_eq_nil_iff]
    intro k hk
    have hin := (hs.entries k).mpr (hstatuses k (AList.mem_keys.mpr hk))
    simpa using hin
  · intro k
    exact mem_mapValues.trans (hs.entries k)

theorem successes_levels (level : Nat) (rest : List (List GoString)) (hs : Settled keys s) :
    (provisionLevels successes n nmf level rest s).2 = [] ∧
      Settled keys (provisionLevels successes n nmf level rest s).1 := by
  induction rest generalizing level s with
  | nil => exact ⟨rfl, hs⟩
  | cons allocs rest ih =>
    obtain ⟨herrs, hs'⟩ := successes_level hnode level allocs hs
    unfold provisionLevels
    dsimp only
    rw [if_neg (not_not.mpr herrs)]
    exact ih (level + 1) hs'

omit hnode in
theorem successes_nodes {layers es} (hnodes : ∀ e ∈ es, ∀ a ∈ rawNodeAllocations e.2, ∀ key,
      generateManifestKey e.1 a = some key → key ∈ keys)
    (hs : Settled keys s) : (provisionNodes successes layers es s).2 = [] := by
  induction es generalizing s with
  | nil => rfl
  | cons e es ih =>
    have hrest := fun {s : Provisioning} (hs : Settled keys s) =>
      ih (fun e he => hnodes e (.tail _ he)) hs
    unfold provisionNodes
    split
    · exact hrest hs
    obtain ⟨herrs, hs'⟩ := successes_levels (hnodes e (.head _)) 0 layers hs
    dsimp only
    rw [if_neg (not_not.mpr herrs)]
    exact hrest hs'

end Successes

/-! ## Every order and every outcome -/

def StartedOnce (manifest : EnsembleManifest) (trace : List StartEvent) : Prop :=
  ∀ n nmf, manifest.nodes.lookup n = some nmf → nmf.redundancyRole ≠ .standby →
    ∀ key ∈ nmf.allocations, (sentKeys trace).count key = 1 ∧
      ∃ start : Start, start.allocKey = key ∧ .ended start true ∈ trace

section Run

variable {cfg : EnsembleConfig} {m : EnsembleManifest}

theorem orderedAllocs_of_accepted (hcfg : Accepted cfg) (order : RangeOrder) :
    ∃ layers, orderByDependency
      (cfg.allocations.mapValues fun _ alloc => alloc.dependsOn) order = .ok layers := by
  refine orderByDependency_of_acyclic ?_ ?_
  · intro v _ dep hdep
    rw [list_interim] at hdep
    exact mem_mapValues.mpr (hcfg.exist v dep hdep)
  · simpa only [list_interim] using hcfg.acyclic

theorem mem_of_visit {order : RangeOrder} {e}
    (he : e ∈ order.visit m.nodes.entries) : m.nodes.lookup e.1 = some e.2 :=
  AList.mem_lookup_iff.mpr (order.mem_visit.mp he)

theorem provisionAllocations_timely (hcfg : Accepted cfg) (hmanifest : Describes cfg m)
    (htwo : ∀ n nmf, m.nodes.lookup n = some nmf → nmf.redundancyRole ≠ .standby →
      ∀ key ∈ nmf.allocations, (key.splitOn dot).length = 2) (inp : ProvisionInputs) :
    Timely cfg (provisionAllocations cfg m inp).trace := by
  have hempty : Timely cfg [] := by
    intro past start future h
    cases past <;> cases h
  unfold provisionAllocations
  split
  · exact hempty
  rename_i layers hok
  refine provisionNodes_timely ?_ ?_ (orderByDependency_ok hok).2.2 hempty
  · intro e he a ha
    obtain ⟨key, -, hkey, -⟩ := hmanifest.key_of_raw (mem_of_visit he) ha
    exact ⟨key, hkey⟩
  · intro e he hrole a ha dep hdep
    exact hmanifest.raw_closed hcfg (mem_of_visit he) (htwo e.1 e.2 (mem_of_visit he) hrole) ha hdep

theorem nodup_startKeys (hmanifest : Describes cfg m) {layers : List (List GoString)}
    (hnodup : layers.flatten.Nodup) (order : RangeOrder) :
    (startKeys layers (order.visit m.nodes.entries)).Nodup := by
  refine nodup_flatMap.mpr ⟨?_, ?_⟩
  · intro e _
    refine hnodup.filterMap ?_
    intro a a' key hkey hkey'
    obtain ⟨k, hk, hk2⟩ := bind_eq_some_iff.mp hkey
    obtain ⟨k', hk', hk2'⟩ := bind_eq_some_iff.mp hkey'
    have h1 : k = key := by
      split at hk2
      · exact some.inj hk2
      · cases hk2
    have h2 : k' = key := by
      split at hk2'
      · exact some.inj hk2'
      · cases hk2'
    obtain ⟨-, -, heq⟩ := generateManifestKey_eq_some.mp hk
    obtain ⟨-, -, heq'⟩ := generateManifestKey_eq_some.mp hk'
    rw [h1] at heq
    rw [h2, heq] at heq'
    simpa using heq'
  have hkeys :=
    ((order.perm m.nodes.entries).map Sigma.fst).nodup_iff.mpr m.nodes.nodupKeys
  have hpair := pairwise_map.mp hkeys
  have hmem := fun e (he : e ∈ (order.visit m.nodes.entries).filter
    fun e => e.2.redundancyRole ≠ .standby) => mem_of_visit (mem_filter.mp he).1
  refine (hpair.sublist filter_sublist).imp_of_mem ?_
  intro e e' he he' hne key hkey hkey'
  obtain ⟨a, -, hgen, hraw⟩ := mem_levelKeys.mp hkey
  obtain ⟨a', -, hgen', hraw'⟩ := mem_levelKeys.mp hkey'
  obtain ⟨-, -, -, hdot, hdota⟩ := hmanifest.key_of_raw (hmem e he) hraw
  obtain ⟨-, -, -, hdot', hdota'⟩ := hmanifest.key_of_raw (hmem e' he') hraw'
  obtain ⟨-, -, rfl⟩ := generateManifestKey_eq_some.mp hgen
  obtain ⟨-, -, heq⟩ := generateManifestKey_eq_some.mp hgen'
  have hsplit := congrArg (splitOn dot) heq
  rw [splitOn_two_parts hdot hdota, splitOn_two_parts hdot' hdota'] at hsplit
  exact hne (cons.inj hsplit).1

theorem provisionAllocations_startedOnce (hmanifest : Describes cfg m)
    (htwo : ∀ n nmf, m.nodes.lookup n = some nmf → nmf.redundancyRole ≠ .standby →
      ∀ key ∈ nmf.allocations, (key.splitOn dot).length = 2) {inp}
    (h : (provisionAllocations cfg m inp).errs = []) :
    StartedOnce m (provisionAllocations cfg m inp).trace := by
  unfold provisionAllocations at h ⊢
  split at h
  · cases h
  rename_i layers hok
  obtain ⟨hnodup, hall, -⟩ := orderByDependency_ok hok
  obtain ⟨hsucceeded, hsent⟩ := provisionNodes_ok h
  intro n nmf hn hrole key hkey
  obtain ⟨a, hgen, hacfg⟩ := hmanifest.key_cases hn hkey
  have hlevel : a ∈ layers.flatten := (hall a).mpr (mem_mapValues.mpr hacfg)
  have he :=
    inp.nodes.mem_visit.mpr (AList.mem_lookup_iff.mp hn)
  have hraw : a ∈ rawNodeAllocations nmf := by
    have hlen := htwo n nmf hn hrole key hkey
    obtain ⟨-, -, rfl⟩ := generateManifestKey_eq_some.mp hgen
    obtain ⟨hdotn, hdota⟩ := splitOn_length_two.mp hlen
    exact mem_rawNodeAllocations.mpr ⟨n, _, hkey, splitOn_two_parts hdotn hdota⟩
  obtain ⟨start, -, -, hstart, hended⟩ := hsucceeded _ he hrole a hlevel hraw key hgen
  refine ⟨?_, start, ?_, hended⟩
  · rw [hsent.count_eq]
    refine count_eq_one_of_mem (nodup_startKeys hmanifest hnodup inp.nodes) ?_
    refine mem_flatMap.mpr ⟨⟨n, nmf⟩, mem_filter.mpr ⟨he, by simp [hrole]⟩, ?_⟩
    exact mem_levelKeys.mpr ⟨a, hlevel, hgen, hraw⟩
  · rw [hgen] at hstart
    exact (some.inj hstart).symm

theorem two_parts_of_startedOnce (hcfg : Accepted cfg) (hmanifest : Describes cfg m)
    (h : (provisionAllocations cfg m successes).errs = [] →
      StartedOnce m (provisionAllocations cfg m successes).trace) :
    ∀ n nmf, m.nodes.lookup n = some nmf → nmf.redundancyRole ≠ .standby →
      ∀ key ∈ nmf.allocations, (key.splitOn dot).length = 2 := by
  obtain ⟨layers, hok⟩ := orderedAllocs_of_accepted hcfg successes.order
  have herrs : (provisionNodes successes layers (successes.nodes.visit m.nodes.entries)
      ⟨∅, m, []⟩).2 = [] := by
    have hsettled : Settled m.allocations ⟨∅, m, []⟩ := ⟨fun _ => Iff.rfl, by simp⟩
    refine successes_nodes ?_ hsettled
    intro e he a ha key hgen
    obtain ⟨key', hkey', hgen', hdotn, hdota⟩ := hmanifest.key_of_raw (mem_of_visit he) ha
    cases hgen.symm.trans hgen'
    refine hmanifest.entries e.1 e.2 (mem_of_visit he) key hkey' ?_
    obtain ⟨-, -, rfl⟩ := generateManifestKey_eq_some.mp hgen
    exact splitOn_length_two.mpr ⟨hdotn, hdota⟩
  unfold provisionAllocations at h
  rw [hok] at h
  obtain ⟨-, hsent⟩ := provisionNodes_ok herrs
  intro n nmf hn hrole key hkey
  have hcount := (h herrs n nmf hn hrole key hkey).1
  have hin := count_pos_iff.mp (by rw [hcount]; exact Nat.one_pos)
  obtain ⟨e, he, hlevel⟩ := mem_flatMap.mp (hsent.mem_iff.mp hin)
  obtain ⟨a, -, hgen, hraw⟩ := mem_levelKeys.mp hlevel
  obtain ⟨-, -, -, hdotn, hdota⟩ :=
    hmanifest.key_of_raw (mem_of_visit (mem_filter.mp he).1) hraw
  obtain ⟨-, -, rfl⟩ := generateManifestKey_eq_some.mp hgen
  exact splitOn_length_two.mpr ⟨hdotn, hdota⟩

end Run

/-- The start requests of an accepted ensemble respect the dependencies and leave nothing out, in
whatever order they run and however they end, exactly when every listed key can be taken apart. -/
theorem provision_order_iff (cfg : EnsembleConfig) (order : RangeOrder)
    (hvalid : validateEnsemble cfg order = .ok ()) (eid : EnsembleID) (candidate : Candidate)
    (commits : CommitInputs)
    (hcommit : (commit cfg eid (newManifest eid cfg) candidate commits).error = none) :
    (∀ inputs, Timely cfg (provisionAllocations cfg
        (commit cfg eid (newManifest eid cfg) candidate commits).manifest inputs).trace ∧
      ((provisionAllocations cfg
        (commit cfg eid (newManifest eid cfg) candidate commits).manifest inputs).errs = [] →
        StartedOnce (commit cfg eid (newManifest eid cfg) candidate commits).manifest
          (provisionAllocations cfg
            (commit cfg eid (newManifest eid cfg) candidate commits).manifest inputs).trace)) ↔
    ∀ n nmf,
      (commit cfg eid (newManifest eid cfg) candidate commits).manifest.nodes.lookup n = some nmf →
      nmf.redundancyRole ≠ .standby → ∀ key ∈ nmf.allocations, (key.splitOn dot).length = 2 := by
  have hcfg := accepted_of_validateEnsemble hvalid
  have hmanifest := describes_commit hcommit
  constructor
  · intro h
    exact two_parts_of_startedOnce hcfg hmanifest (h successes).2
  intro htwo inputs
  exact ⟨provisionAllocations_timely hcfg hmanifest htwo inputs,
    provisionAllocations_startedOnce hmanifest htwo⟩

/-- Two allocations on one node; `web` depends on the other one. -/
def sampleStack (db : String) : EnsembleConfig where
  allocations := GoMap.insertAll [(ascii "web", ⟨[], [ascii db]⟩), (ascii db, ⟨[], []⟩)] ∅
  primaryNodes := GoMap.insertAll
    [(ascii "n", { NodeConfig.zero with allocations := [ascii "web", ascii db] })] ∅
  edges := []
  supervisor := ⟨[], []⟩
  excludePeers := []

def sampleID : EnsembleID := ⟨ascii "e", by decide⟩

def sampleCommit (db : String) : CommitRun :=
  commit (sampleStack db) sampleID (newManifest sampleID (sampleStack db)) sampleCandidate
    (sampleCommits ["web", db])

theorem provision_order_stack :
    validateEnsemble (sampleStack "db") .stored = .ok () ∧ (sampleCommit "db").error = none ∧
      ∀ inputs, Timely (sampleStack "db")
          (provisionAllocations (sampleStack "db") (sampleCommit "db").manifest inputs).trace ∧
        ((provisionAllocations (sampleStack "db") (sampleCommit "db").manifest inputs).errs = [] →
          StartedOnce (sampleCommit "db").manifest
            (provisionAllocations (sampleStack "db") (sampleCommit "db").manifest
              inputs).trace) := by
  refine ⟨rfl, rfl, ?_⟩
  refine (provision_order_iff (sampleStack "db") .stored rfl sampleID sampleCandidate
    (sampleCommits ["web", "db"]) rfl).mpr ?_
  intro n nmf hn
  have hall : ∀ e ∈ (sampleCommit "db").manifest.nodes.entries,
      e.2.redundancyRole ≠ .standby → ∀ key ∈ e.2.allocations, (key.splitOn dot).length = 2 := by
    decide
  exact hall ⟨n, nmf⟩ (AList.mem_lookup_iff.mp hn)

/-- `db.one` is a valid name, but its key has three parts: it is never started, what depends on it
is started without it, and no error is returned. -/
theorem provision_skips_dotted : validateEnsemble (sampleStack "db.one") .stored = .ok () ∧
    (sampleCommit "db.one").error = none ∧
    (provisionAllocations (sampleStack "db.one") (sampleCommit "db.one").manifest
      successes).errs = [] ∧
    ¬ Timely (sampleStack "db.one") (provisionAllocations (sampleStack "db.one")
      (sampleCommit "db.one").manifest successes).trace ∧
    ¬ StartedOnce (sampleCommit "db.one").manifest (provisionAllocations (sampleStack "db.one")
      (sampleCommit "db.one").manifest successes).trace := by
  refine ⟨rfl, rfl, rfl, fun h => ?_, fun h => ?_⟩
  · obtain ⟨start, -, -, -, ⟨⟩⟩ := h [] _ _ rfl (ascii "db.one") (by decide)
  have hcount := (h (ascii "n") _ rfl (by decide) (ascii "n.db.one") (by decide)).1
  revert hcount
  decide

end DMS.Orchestrator
