import DMS.Core.GoMap
import DMS.Core.GoText
import Mathlib.Data.Set.Finite.Basic

/-! # Ensemble configurations

`EnsembleConfig` of `dms/jobs/types/ensemble.go`. A node with redundancy has standby
nodes, which are not written down; they are known by names that the node identifiers
generate.
-/

namespace DMS.Jobs

open GoMap

structure Location where
  continent : GoString
  country : GoString
  city : GoString
  asn : Nat
  isp : GoString
deriving DecidableEq, Repr

namespace Location

def equal (l other : Location) : Bool := l.continent = other.continent &&
    (l.country = [] || l.country = other.country) &&
    (l.city = [] || l.city = other.city) &&
    (l.asn = 0 || l.asn = other.asn) &&
    (l.isp = [] || l.isp = other.isp)

theorem optional_trans {α : Type} {none x y z : α} (h : x = none ∨ x = y) (h' : y = none ∨ y = z) :
    x = none ∨ x = z := by
  rcases h with h | rfl
  · exact .inl h
  · exact h'

theorem equal_trans {a b l : Location} (h : a.equal b = true) (h' : b.equal l = true) :
    a.equal l = true := by
  simp only [equal, Bool.and_eq_true, Bool.or_eq_true, decide_eq_true_eq] at h h' ⊢
  obtain ⟨⟨⟨⟨hcontinent, hcountry⟩, hcity⟩, hasn⟩, hisp⟩ := h
  obtain ⟨⟨⟨⟨hcontinent', hcountry'⟩, hcity'⟩, hasn'⟩, hisp'⟩ := h'
  exact ⟨⟨⟨⟨hcontinent.trans hcontinent', optional_trans hcountry hcountry'⟩,
    optional_trans hcity hcity'⟩, optional_trans hasn hasn'⟩, optional_trans hisp hisp'⟩

end Location

structure LocationConstraints where
  accept : List Location
  reject : List Location
deriving DecidableEq, Repr

def Location.satisfies (l : Location) (constraints : LocationConstraints) : Bool :=
  if constraints.accept ≠ [] then constraints.accept.any fun a => a.equal l
  else !constraints.reject.any fun r => r.equal l

structure PortConfig where
  publicPort : Int
  privatePort : Int
  allocation : GoString
deriving DecidableEq, Repr

structure NodeConfig where
  allocations : List GoString
  ports : List PortConfig
  location : LocationConstraints
  peer : GoString
  redundancy : Int
deriving DecidableEq, Repr

def NodeConfig.zero : NodeConfig := ⟨[], [], ⟨[], []⟩, [], 0⟩

structure AllocationConfig where
  dnsName : GoString
  dependsOn : List GoString
deriving DecidableEq, Repr

structure EdgeConstraint where
  s : GoString
  t : GoString
  rtt : Nat
  bw : Nat
deriving DecidableEq, Repr

structure SupervisorConfig where
  strategy : GoString
  allocations : List GoString
deriving DecidableEq, Repr

/-- `primaryNodes` is the field `V1.Nodes`; `Nodes()` adds the standby nodes to it. -/
structure EnsembleConfig where
  allocations : GoMap GoString AllocationConfig
  primaryNodes : GoMap GoString NodeConfig
  edges : List EdgeConstraint
  supervisor : SupervisorConfig
  excludePeers : List GoString

def standbyInfix : GoString := ascii "-standby-"

/-- There is no standby node of a node without a name. -/
def generateStandbyNodeID (primaryNodeID : GoString) (standbyIndex : Nat) : Option GoString :=
  if primaryNodeID = [] ∨ standbyIndex < 1 then none
  else some (primaryNodeID ++ standbyInfix ++ itoa standbyIndex)

/-- `ParseNodeName` of `types/allocation.go`: the primary node and the index when the
name is that of a standby node. The name has to have exactly two parts. -/
def parseNodeName (nodeName : GoString) : Option (GoString × Int) :=
  match cut standbyInfix nodeName with
  | none => none
  | some (primary, index) =>
    if (cut standbyInfix index).isSome then none
    else (atoi index).map fun i => (primary, i)

theorem parseNodeName_eq_some_iff {n primary i} : parseNodeName n = some (primary, i) ↔
      ∃ index, cut standbyInfix n = some (primary, index) ∧ cut standbyInfix index = none ∧
        atoi index = some i := by
  unfold parseNodeName
  cases hcut : cut standbyInfix n with
  | none => simp
  | some parts =>
    obtain ⟨pre, index⟩ := parts
    dsimp only
    constructor
    · intro h
      obtain ⟨hone, h⟩ := Option.ite_none_left_eq_some.mp h
      obtain ⟨j, hj, ⟨⟩⟩ := Option.map_eq_some_iff.mp h
      exact ⟨index, rfl, by simpa using hone, hj⟩
    · rintro ⟨_, ⟨⟩, hone, hi⟩
      rw [hone, hi]
      rfl

/-- A generated name ends in an index, which has no dash. -/
theorem generateStandbyNodeID_unique {p q s : GoString} {i j}
    (hp : generateStandbyNodeID p i = some s) (hq : generateStandbyNodeID q j = some s) :
    p = q ∧ i = j := by
  obtain ⟨-, hp⟩ := Option.ite_none_left_eq_some.mp hp
  obtain ⟨-, hq⟩ := Option.ite_none_left_eq_some.mp hq
  have hlast : ∀ (p : GoString) i, cutLast 45 (p ++ standbyInfix ++ itoa i) =
      some (p ++ ascii "-standby", itoa i) := by
    intro p i
    have hdash : (45 : UInt8) ∉ itoa i := fun hin =>
      absurd ((digitsValue_itoa i).2 45 hin) (by decide)
    have hsplit : p ++ standbyInfix ++ itoa i = p ++ ascii "-standby" ++ 45 :: itoa i := by
      rw [show standbyInfix = ascii "-standby" ++ [45] by decide]
      simp
    rw [hsplit, cutLast_append _ hdash]
  have hsame := hlast p i
  rw [Option.some.inj (hp.trans hq.symm), hlast q j, Option.some.injEq, Prod.mk.injEq,
    List.append_left_inj] at hsame
  exact ⟨hsame.1.symm, itoa_injective hsame.2.symm⟩

/-- `ParseNodeName` finds the name of the node in the names of its standby nodes. Otherwise the
infix stands in it, or begins in it. -/
def ReadBack (primaryNodeID : GoString) : Prop :=
  cut standbyInfix (primaryNodeID ++ ascii "-standby") = none

instance (primaryNodeID : GoString) : Decidable (ReadBack primaryNodeID) :=
  inferInstanceAs (Decidable (_ = _))

theorem readBack_iff {primary : GoString} (index : GoString) :
    cut standbyInfix (primary ++ (standbyInfix ++ index)) = some (primary, index) ↔
      ReadBack primary :=
  cut_append_iff (by decide) primary index

theorem ReadBack.of_parse {n primary i} (h : parseNodeName n = some (primary, i)) :
    ReadBack primary := by
  obtain ⟨index, hcut, -⟩ := parseNodeName_eq_some_iff.mp h
  have hn := cut_eq_some hcut
  rw [hn] at hcut
  exact (readBack_iff index).mp hcut

example : ReadBack (ascii "db") ∧ ¬ ReadBack (ascii "db-standby") ∧
    parseNodeName (ascii "db-standby-standby-1") = none := by decide

/-- The index 1 with zeros before it, in longer and longer names. -/
theorem ReadBack.exists_fresh {primary} (h : ReadBack primary) (taken : List GoString) :
    ∃ n, n ∉ taken ∧ parseNodeName n = some (primary, 1) := by
  have hdigits : ∀ k, ∀ c ∈ List.replicate k (48 : UInt8) ++ [49], 48 ≤ c ∧ c ≤ 57 := by
    intro k c hc
    rcases List.mem_append.mp hc with hzero | hone
    · rw [List.eq_of_mem_replicate hzero]
      decide
    · rw [List.mem_singleton.mp hone]
      decide
  have hvalue : ∀ k, digitsValue (List.replicate k (48 : UInt8) ++ [49]) = some 1 := by
    intro k
    induction k with
    | zero => decide
    | succ k ih => exact ih
  have hlength : Function.Injective fun k =>
      primary ++ (standbyInfix ++ (List.replicate k (48 : UInt8) ++ [49])) := by
    intro k l hkl
    simpa using congrArg List.length hkl
  obtain ⟨-, ⟨k, rfl⟩, hk⟩ :=
    (Set.infinite_range_of_injective hlength).exists_notMem_finset taken.toFinset
  refine ⟨_, fun hin => hk (List.mem_toFinset.mpr hin), parseNodeName_eq_some_iff.mpr
    ⟨_, (readBack_iff _).mpr h, ?_, atoi_digits (by simp) (hdigits k) (hvalue k) (by decide)⟩⟩
  exact cut_eq_none_of_not_mem (c := 45) (by decide) fun hin =>
    absurd (hdigits k 45 hin) (by decide)

namespace EnsembleConfig

def standbyNodes (nodeID : GoString) (node : NodeConfig) : List (GoString × NodeConfig) :=
  (List.range node.redundancy.toNat).filterMap fun i =>
    (generateStandbyNodeID nodeID (i + 1)).map fun standbyID =>
      (standbyID, { node with peer := [], redundancy := 0 })

def buildStandbyNodes (nodes : GoMap GoString NodeConfig) : List (GoString × NodeConfig) :=
  nodes.entries.flatMap fun e => standbyNodes e.1 e.2

/-- `Nodes()`; the standby nodes are added last. -/
def nodes (e : EnsembleConfig) : GoMap GoString NodeConfig :=
  (buildStandbyNodes e.primaryNodes).foldl (fun nodes s => nodes.insert s.1 s.2) e.primaryNodes

def node (e : EnsembleConfig) (nodeID : GoString) : Option NodeConfig :=
  match e.primaryNodes.lookup nodeID with
  | some node => some node
  | none =>
    match parseNodeName nodeID with
    | none => none
    | some (primaryNodeID, standbyIndex) =>
      match e.primaryNodes.lookup primaryNodeID with
      | none => none
      | some primary =>
        if standbyIndex < 1 ∨ standbyIndex > primary.redundancy then none else some primary

def allocation (e : EnsembleConfig) (name : GoString) : Option AllocationConfig :=
  e.allocations.lookup name

def nodeAllocations (e : EnsembleConfig) (nodeID : GoString) : List GoString :=
  ((e.node nodeID).map NodeConfig.allocations).getD []

def addNodeAndAllocations (name : GoString) (node : NodeConfig)
    (allocs : GoMap GoString AllocationConfig) (e : EnsembleConfig) : EnsembleConfig :=
  { e with
    primaryNodes := e.primaryNodes.insert name node
    allocations := (allocs.entries.filter fun a => a.1 ∈ node.allocations).foldl
      (fun m a => m.insert a.1 a.2) e.allocations }

def removeNodeAndAllocations (nodeName : GoString) (e : EnsembleConfig) : EnsembleConfig :=
  match e.node nodeName with
  | none => e
  | some node =>
    { e with
      primaryNodes := e.primaryNodes.erase nodeName
      allocations := node.allocations.foldl (fun m a => m.erase a) e.allocations }

variable {e : EnsembleConfig} {n : GoString} {node : NodeConfig}

theorem node_of_lookup (h : e.primaryNodes.lookup n = some node) : e.node n = some node := by
  rw [EnsembleConfig.node, h]

theorem nodeAllocations_of_node
    (h : e.node n = some node) : e.nodeAllocations n = node.allocations := by
  rw [nodeAllocations, h]
  rfl

theorem nodeAllocations_of_lookup (h : e.primaryNodes.lookup n = some node) :
    e.nodeAllocations n = node.allocations := nodeAllocations_of_node (node_of_lookup h)

theorem isSome_node_of_mem {a} (h : a ∈ e.nodeAllocations n) : (e.node n).isSome = true := by
  unfold nodeAllocations at h
  cases hnode : e.node n with
  | none =>
    rw [hnode] at h
    cases h
  | some node => rfl

theorem node_eq_some_iff : e.node n = some node ↔ e.primaryNodes.lookup n = some node ∨
      e.primaryNodes.lookup n = none ∧ ∃ pid standbyIndex,
        parseNodeName n = some (pid, standbyIndex) ∧
        e.primaryNodes.lookup pid = some node ∧
        ¬ (standbyIndex < 1 ∨ standbyIndex > node.redundancy) := by
  unfold EnsembleConfig.node
  cases e.primaryNodes.lookup n with
  | some node' => simp
  | none =>
    cases parseNodeName n with
    | none => simp
    | some parsed =>
      obtain ⟨pid, standbyIndex⟩ := parsed
      cases hprimary : e.primaryNodes.lookup pid with
      | none => simp [hprimary]
      | some primary =>
        simp only [reduceCtorEq, Option.some.injEq, Prod.mk.injEq, false_or, true_and, hprimary]
        constructor
        · intro h
          split at h
          · cases h
          rename_i hindex
          cases h
          exact ⟨pid, standbyIndex, ⟨rfl, rfl⟩, hprimary, hindex⟩
        rintro ⟨_, _, ⟨rfl, rfl⟩, hl, hindex⟩
        cases hprimary.symm.trans hl
        rw [if_neg hindex]

theorem mem_addNodeAndAllocations {name allocs a} :
    a ∈ (addNodeAndAllocations name node allocs e).allocations ↔
      a ∈ e.allocations ∨ a ∈ allocs ∧ a ∈ node.allocations := by
  refine (foldl_iff_exists (a ∈ ·) (fun entry => a = entry.1)
    (fun m entry => ?_) _ _).trans (or_congr_right ?_)
  · rw [AList.mem_insert, or_comm]
  simp only [List.mem_filter, decide_eq_true_eq]
  constructor
  · rintro ⟨entry, ⟨hentry, hnode⟩, rfl⟩
    exact ⟨List.mem_keys_of_mem hentry, hnode⟩
  rintro ⟨ha, hnode⟩
  obtain ⟨acfg, hl⟩ := exists_lookup ha
  exact ⟨⟨a, acfg⟩, ⟨AList.mem_lookup_iff.mp hl, hnode⟩, rfl⟩

theorem mem_standbyNodes {nid sid standby} : (sid, standby) ∈ standbyNodes nid node ↔
      standby = { node with peer := [], redundancy := 0 } ∧
        ∃ i < node.redundancy.toNat, generateStandbyNodeID nid (i + 1) = some sid := by
  unfold standbyNodes
  simp only [List.mem_filterMap, List.mem_range, Option.map_eq_some_iff, Prod.mk.injEq]
  constructor
  · rintro ⟨i, hi, id, hid, rfl, rfl⟩
    exact ⟨rfl, i, hi, hid⟩
  · rintro ⟨rfl, i, hi, hid⟩
    exact ⟨i, hi, sid, hid, rfl, rfl⟩

theorem mem_buildStandbyNodes {nodes sid standby} : (sid, standby) ∈ buildStandbyNodes nodes ↔
      ∃ nid node, nodes.lookup nid = some node ∧
        (sid, standby) ∈ standbyNodes nid node := by
  rw [buildStandbyNodes, List.mem_flatMap]
  exact exists_mem_entries (P := fun nid node => (sid, standby) ∈ standbyNodes nid node)

theorem mem_nodes :
    n ∈ e.nodes ↔ n ∈ e.primaryNodes ∨ ∃ nid node, e.primaryNodes.lookup nid = some node ∧
        ∃ standby, (n, standby) ∈ standbyNodes nid node := by
  refine mem_insertAll.trans (or_congr_right ?_)
  simp only [mem_buildStandbyNodes]
  constructor
  · rintro ⟨standby, nid, node, hl, hin⟩
    exact ⟨nid, node, hl, standby, hin⟩
  · rintro ⟨nid, node, hl, standby, hin⟩
    exact ⟨standby, nid, node, hl, hin⟩

theorem nodes_lookup_cases (h : e.nodes.lookup n = some node) :
    e.primaryNodes.lookup n = some node ∨
      ∃ nid primary, e.primaryNodes.lookup nid = some primary ∧
        (n, node) ∈ standbyNodes nid primary := by
  by_cases hstandby : ∃ standby, (n, standby) ∈ buildStandbyNodes e.primaryNodes
  · obtain ⟨standby, hin⟩ := hstandby
    obtain ⟨node', hin', hl⟩ := lookup_insertAll_of_mem hin
    have heq : some node' = some node := hl.symm.trans h
    cases heq
    exact .inr (mem_buildStandbyNodes.mp hin')
  have hl := lookup_insertAll_of_not_mem (m := e.primaryNodes)
    fun standby hin => hstandby ⟨standby, hin⟩
  exact .inl (hl.symm.trans h)

/-- A standby node has no standby nodes. -/
theorem lookup_of_redundancy (h : e.nodes.lookup n = some node) (hpos : 0 < node.redundancy) :
    e.primaryNodes.lookup n = some node := by
  rcases nodes_lookup_cases h with hl | ⟨_, _, -, hstandby⟩
  · exact hl
  · rw [(mem_standbyNodes.mp hstandby).1] at hpos
    exact absurd hpos (by simp)

/-- No node has standby nodes. -/
def Alone (e : EnsembleConfig) : Prop :=
  ∀ n node, e.primaryNodes.lookup n = some node → node.redundancy ≤ 0

theorem Alone.nodes_lookup (h : e.Alone) (n : GoString) :
    e.nodes.lookup n = e.primaryNodes.lookup n := by
  refine lookup_insertAll_of_not_mem fun standby hin => ?_
  obtain ⟨nid, node, hl, hstandby⟩ := mem_buildStandbyNodes.mp hin
  obtain ⟨-, i, hi, -⟩ := mem_standbyNodes.mp hstandby
  have hle := h nid node hl
  omega

theorem Alone.exists_lookup (h : e.Alone) (hn : n ∈ e.nodes) :
    ∃ node, e.primaryNodes.lookup n = some node := by
  rw [← h.nodes_lookup]
  exact GoMap.exists_lookup hn

theorem Alone.node_eq (h : e.Alone) (n : GoString) : e.node n = e.primaryNodes.lookup n := by
  refine Option.ext fun node => node_eq_some_iff.trans (or_iff_left ?_)
  rintro ⟨-, p, i, -, hl, hindex⟩
  have hle := h p node hl
  omega

theorem nodes_lookup_standby {nid standby} (hl : e.primaryNodes.lookup nid = some node)
    (h : (n, standby) ∈ standbyNodes nid node) : e.nodes.lookup n = some standby := by
  obtain ⟨standby', hin, hlookup⟩ := lookup_insertAll_of_mem (m := e.primaryNodes)
    (mem_buildStandbyNodes.mpr ⟨nid, node, hl, h⟩)
  obtain ⟨nid', node', hl', h'⟩ := mem_buildStandbyNodes.mp hin
  obtain ⟨rfl, i, -, hname⟩ := mem_standbyNodes.mp h
  obtain ⟨rfl, j, -, hname'⟩ := mem_standbyNodes.mp h'
  obtain ⟨rfl, -⟩ := generateStandbyNodeID_unique hname hname'
  cases hl.symm.trans hl'
  exact hlookup

/-- A standby node in the map has no redundancy, and the one that is looked up has. -/
theorem written_of_agree (h : ∀ nodeID, e.nodes.lookup nodeID = e.node nodeID)
    (nodeID : GoString) : e.node nodeID = e.primaryNodes.lookup nodeID := by
  cases hprimary : e.primaryNodes.lookup nodeID with
  | some node => exact node_of_lookup hprimary
  | none =>
    by_contra hne
    obtain ⟨node, hnode⟩ := Option.ne_none_iff_exists'.mp hne
    rcases node_eq_some_iff.mp hnode with hl | ⟨-, _, _, -, -, hindex⟩
    · cases hprimary.symm.trans hl
    rcases nodes_lookup_cases ((h nodeID).trans hnode) with hl | ⟨_, _, -, hstandby⟩
    · cases hprimary.symm.trans hl
    have hzero := congrArg NodeConfig.redundancy (mem_standbyNodes.mp hstandby).1
    dsimp only at hzero
    omega

/-- The node's standby nodes stand in the configuration themselves, as the map has them, and the
look-up cannot read the node's name in theirs. -/
structure StandbysWritten (e : EnsembleConfig) (p : GoString) (node : NodeConfig) : Prop where
  hidden : ¬ ReadBack p
  written : ∀ i < node.redundancy.toNat, e.primaryNodes.lookup (p ++ standbyInfix ++ itoa (i + 1)) =
    some { node with peer := [], redundancy := 0 }

theorem StandbysWritten.lookup {p standby} (h : StandbysWritten e p node)
    (hin : (n, standby) ∈ standbyNodes p node) : e.primaryNodes.lookup n = some standby := by
  obtain ⟨rfl, i, hi, hname⟩ := mem_standbyNodes.mp hin
  obtain ⟨-, hname⟩ := Option.ite_none_left_eq_some.mp hname
  rw [← Option.some.inj hname]
  exact h.written i hi

theorem standbysWritten_of_agree (h : ∀ nodeID, e.nodes.lookup nodeID = e.node nodeID) {p}
    (hl : e.primaryNodes.lookup p = some node) (hpos : 0 < node.redundancy) :
    StandbysWritten e p node := by
  have hwritten := written_of_agree h
  have hhidden : ¬ ReadBack p := by
    intro hread
    obtain ⟨n, hfresh, hparse⟩ := hread.exists_fresh e.primaryNodes.keys
    have hnone : e.primaryNodes.lookup n = none := AList.lookup_eq_none.mpr hfresh
    have hnode : e.node n = some node :=
      node_eq_some_iff.mpr (.inr ⟨hnone, p, 1, hparse, hl, by omega⟩)
    rw [hwritten, hnone] at hnode
    cases hnode
  refine ⟨hhidden, fun i hi => ?_⟩
  have hne : p ≠ [] := by
    rintro rfl
    exact hhidden (by decide)
  have hstandby : (p ++ standbyInfix ++ itoa (i + 1), { node with peer := [], redundancy := 0 }) ∈
      standbyNodes p node :=
    mem_standbyNodes.mpr ⟨rfl, i, hi, if_neg (by simp [hne])⟩
  rw [← hwritten, ← h]
  exact nodes_lookup_standby hl hstandby

end EnsembleConfig

end DMS.Jobs
