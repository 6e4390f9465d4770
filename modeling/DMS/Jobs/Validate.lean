import DMS.Core.Cycles
import DMS.Jobs.Ensemble

/-! # The ensemble validator

`ValidateSpec` and `ValidateAllocation` of `dms/jobs/parser/ensemblev1/validate.go`, as far as the
names of allocations, their dependencies and their places on nodes are concerned. The checks of
other fields are left out, so that more is accepted here.
-/

namespace DMS.Jobs

open Outcome GoMap List AList

def isAlphanumeric (c : UInt8) : Bool :=
  (48 ≤ c && c ≤ 57) || (65 ≤ c && c ≤ 90) || (97 ≤ c && c ≤ 122)

/-- The part of `dnsNameRegex` between two dots. -/
def isLabel (label : GoString) : Bool :=
  label.length ≤ 63 && label.head?.any isAlphanumeric && label.getLast?.any isAlphanumeric &&
    label.all fun c => isAlphanumeric c || c = 45

/-- `IsDNSNameValid`; a name may have any number of labels. -/
def isDNSNameValid (name : GoString) : Bool := (name.splitOn dot).all isLabel

/-- `strings.ToLower` on the names that are valid. -/
def toLower (name : GoString) : GoString := name.map fun c => if 65 ≤ c && c ≤ 90 then c + 32 else c

def checkNames : List (Σ _ : GoString, AllocationConfig) → GoMap GoString GoString →
    GoMap GoString GoString → Except String Unit
  | [], _, _ => .ok ()
  | e :: es, allocationNames, dnsNames =>
    if isDNSNameValid e.1 = false then
      .error s!"invalid allocation name, must be a valid hostname: {printed e.1}"
    else
      match allocationNames.lookup (toLower e.1) with
      | some original =>
        .error (s!"duplicate allocation names found: '{printed original}' and " ++
          s!"'{printed e.1}'")
      | none =>
        let allocationNames := allocationNames.insert (toLower e.1) e.1
        if e.2.dnsName = [] then checkNames es allocationNames dnsNames
        else
          match dnsNames.lookup e.2.dnsName with
          | some existing =>
            .error (s!"duplicate dns_name found: '{printed e.2.dnsName}' used in " ++
              s!"allocations '{printed existing}' and '{printed e.1}'")
          | none => checkNames es allocationNames (dnsNames.insert e.2.dnsName e.1)

/-- Only allocations with dependencies have an entry. -/
def createAdjencyList (allocs : GoMap GoString AllocationConfig) : GoMap GoString (List GoString) :=
  GoMap.insertAll
    ((allocs.entries.filter fun e => e.2.dependsOn ≠ []).map fun e => (e.1, e.2.dependsOn)) ∅

def dependencies (allocs : GoMap GoString AllocationConfig) (allocName : GoString) :
    List GoString :=
  ((allocs.lookup allocName).map AllocationConfig.dependsOn).getD []

def checkNode (allocs : GoMap GoString AllocationConfig) (nodeName : GoString)
    (nodeAllocs : List GoString) :
    List GoString → GoMap GoString GoString → Except String (GoMap GoString GoString)
  | [], allocToNode => .ok allocToNode
  | allocName :: rest, allocToNode =>
    match allocToNode.lookup allocName with
    | some existingNode =>
      .error (s!"allocation '{printed allocName}' is assigned to multiple nodes " ++
        s!"('{printed existingNode}' and '{printed nodeName}'): an allocation can only be " ++
        "assigned to one node")
    | none =>
      match (dependencies allocs allocName).find? fun dep => dep ∉ nodeAllocs with
      | some dep =>
        .error (s!"allocation '{printed allocName}' depends on '{printed dep}', but " ++
          s!"'{printed dep}' is not in the same node: dependent allocations must be in " ++
          "the same node")
      | none =>
        checkNode allocs nodeName nodeAllocs rest (allocToNode.insert allocName nodeName)

def checkNodes (allocs : GoMap GoString AllocationConfig) :
    List (Σ _ : GoString, NodeConfig) → GoMap GoString GoString → Except String Unit
  | [], _ => .ok ()
  | e :: es, allocToNode =>
    (checkNode allocs e.1 e.2.allocations e.2.allocations allocToNode).bind
      fun allocToNode => checkNodes allocs es allocToNode

def validateSpec (cfg : EnsembleConfig) (order : RangeOrder) : Except String Unit :=
  if cfg.allocations.keys = [] then .error "at least one allocation must be defined"
  else
    (checkNames (order.visit cfg.allocations.entries) ∅ ∅).bind fun _ =>
      if detectCycles (createAdjencyList cfg.allocations) order = true then
        .error "cyclic dependencies detected in allocations"
      else checkNodes cfg.allocations (order.visit cfg.primaryNodes.entries) ∅

/-- `[a b]`, as a list of names is printed. -/
def printedList (names : List GoString) : String :=
  "[" ++ String.intercalate " " (names.map printed) ++ "]"

def checkDependsOn (allocs : GoMap GoString AllocationConfig) (name : GoString)
    (dependsOn : List GoString) : List GoString → Except String Unit
  | [] => .ok ()
  | dep :: rest =>
    if dep ≠ [] ∧ name = dep then .error "depends_on must not refer to itself"
    else if dep ∉ allocs then
      .error s!"depends_on allocation '{printedList dependsOn}' not found"
    else checkDependsOn allocs name dependsOn rest

def validateAllocation (cfg : EnsembleConfig) (name : GoString) (allocation : AllocationConfig) :
    Except String Unit :=
  if allocation.dnsName ≠ [] ∧ isDNSNameValid allocation.dnsName = false then
    .error s!"invalid dns_name format: {printed allocation.dnsName}"
  else checkDependsOn cfg.allocations name allocation.dependsOn allocation.dependsOn

def validateAllocations (cfg : EnsembleConfig) :
    List (Σ _ : GoString, AllocationConfig) → Except String Unit
  | [] => .ok ()
  | e :: es => (validateAllocation cfg e.1 e.2).bind fun _ => validateAllocations cfg es

/-- The validator runs the checks of the paths `V1` and `V1.allocations.*`. -/
def validateEnsemble (cfg : EnsembleConfig) (order : RangeOrder) : Except String Unit :=
  (validateSpec cfg order).bind fun _ =>
    validateAllocations cfg (order.visit cfg.allocations.entries)

section Accepted

variable {cfg : EnsembleConfig} {order : RangeOrder}

theorem list_createAdjencyList (allocs : GoMap GoString AllocationConfig) (name : GoString) :
    (createAdjencyList allocs).list name = dependencies allocs name := by
  have hmem : ∀ deps, (name, deps) ∈ (allocs.entries.filter fun e => e.2.dependsOn ≠ []).map
      (fun e => (e.1, e.2.dependsOn)) ↔
      ∃ acfg, allocs.lookup name = some acfg ∧ acfg.dependsOn = deps ∧ deps ≠ [] := by
    intro deps
    simp only [mem_map, mem_filter, Prod.mk.injEq, decide_eq_true_eq]
    constructor
    · rintro ⟨⟨k, acfg⟩, ⟨he, hne⟩, rfl, rfl⟩
      exact ⟨acfg, mem_lookup_iff.mpr he, rfl, hne⟩
    · rintro ⟨acfg, hl, rfl, hne⟩
      exact ⟨⟨name, acfg⟩, ⟨mem_lookup_iff.mp hl, hne⟩, rfl, rfl⟩
  unfold createAdjencyList dependencies
  cases hl : allocs.lookup name with
  | none =>
    have hout := lookup_insertAll_of_not_mem (m := ∅) fun deps hin => by
      obtain ⟨acfg, hacfg, -⟩ := (hmem deps).mp hin
      cases hl.symm.trans hacfg
    rw [list, hout]
    rfl
  | some acfg =>
    by_cases hne : acfg.dependsOn = []
    · have hout := lookup_insertAll_of_not_mem (m := ∅) fun deps hin => by
        obtain ⟨acfg', hacfg, rfl, hdeps⟩ := (hmem deps).mp hin
        cases hl.symm.trans hacfg
        exact hdeps hne
      rw [list, hout, Option.map_some, hne]
      rfl
    refine list_of_lookup (lookup_insertAll_of_unique ?_ ?_)
    · exact (hmem _).mpr ⟨acfg, hl, rfl, hne⟩
    intro deps hin
    obtain ⟨acfg', hacfg, rfl, -⟩ := (hmem deps).mp hin
    cases hl.symm.trans hacfg
    rfl

variable {allocs : GoMap GoString AllocationConfig} {allocToNode : GoMap GoString GoString}

theorem checkDependsOn_ok {name dependsOn deps}
    (h : checkDependsOn allocs name dependsOn deps = .ok ()) : ∀ dep ∈ deps, dep ∈ allocs := by
  induction deps with
  | nil => simp
  | cons dep deps ih =>
    obtain ⟨-, h⟩ := ite_error_eq_ok.mp h
    obtain ⟨hdep, h⟩ := ite_error_eq_ok.mp h
    intro dep' hin
    rcases mem_cons.mp hin with rfl | hin
    · exact not_not.mp hdep
    · exact ih h dep' hin

theorem validateAllocations_ok {es} (h : validateAllocations cfg es = .ok ()) :
    ∀ e ∈ es, ∀ dep ∈ e.2.dependsOn, dep ∈ cfg.allocations := by
  induction es with
  | nil => simp
  | cons e es ih =>
    obtain ⟨⟨⟩, hhead, htail⟩ := bind_eq_ok.mp h
    intro e' he'
    rcases mem_cons.mp he' with rfl | he'
    · exact checkDependsOn_ok (ite_error_eq_ok.mp hhead).2
    · exact ih htail e' he'

theorem checkNode_ok {nodeName nodeAllocs rest allocToNode'}
    (h : checkNode allocs nodeName nodeAllocs rest allocToNode = .ok allocToNode') :
    ∀ allocName ∈ rest, ∀ dep ∈ dependencies allocs allocName, dep ∈ nodeAllocs := by
  induction rest generalizing allocToNode with
  | nil => simp
  | cons allocName rest ih =>
    unfold checkNode at h
    split at h
    · cases h
    split at h
    · cases h
    rename_i hfind
    intro name hname
    rcases mem_cons.mp hname with rfl | hname
    · intro dep hdep
      simpa using find?_eq_none.mp hfind dep hdep
    · exact ih h name hname

theorem checkNodes_ok {es} (h : checkNodes allocs es allocToNode = .ok ()) :
    ∀ e ∈ es, ∀ name ∈ e.2.allocations, ∀ dep ∈ dependencies allocs name,
      dep ∈ e.2.allocations := by
  induction es generalizing allocToNode with
  | nil => simp
  | cons e es ih =>
    obtain ⟨allocToNode', hhead, htail⟩ := bind_eq_ok.mp h
    intro e' he'
    rcases mem_cons.mp he' with rfl | he'
    · exact checkNode_ok hhead
    · exact ih htail e' he'

theorem checkNode_assigns {nodeName nodeAllocs rest allocToNode'}
    (h : checkNode allocs nodeName nodeAllocs rest allocToNode = .ok allocToNode') :
    (∀ allocName ∈ rest, allocName ∉ allocToNode) ∧
      ∀ allocName, allocName ∈ allocToNode' ↔ allocName ∈ rest ∨ allocName ∈ allocToNode := by
  induction rest generalizing allocToNode with
  | nil =>
    cases h
    simp
  | cons allocName rest ih =>
    unfold checkNode at h
    split at h
    · cases h
    rename_i hfree
    split at h
    · cases h
    obtain ⟨hnew, hall⟩ := ih h
    have hhead : allocName ∉ allocToNode := lookup_eq_none.mp hfree
    refine ⟨?_, ?_⟩
    · intro name hname
      rcases mem_cons.mp hname with rfl | hname
      · exact hhead
      · intro hin
        exact hnew name hname (mem_insert _ |>.mpr (.inr hin))
    intro name
    rw [hall, mem_insert, mem_cons]
    tauto

theorem checkNodes_apart {es} (h : checkNodes allocs es allocToNode = .ok ()) :
    (∀ e ∈ es, ∀ allocName ∈ e.2.allocations, allocName ∉ allocToNode) ∧
      es.Pairwise fun e e' => ∀ allocName ∈ e.2.allocations, allocName ∉ e'.2.allocations := by
  induction es generalizing allocToNode with
  | nil => simp
  | cons e es ih =>
    obtain ⟨allocToNode', hhead, htail⟩ := bind_eq_ok.mp h
    obtain ⟨hnew, hall⟩ := checkNode_assigns hhead
    obtain ⟨hfree, hapart⟩ := ih htail
    refine ⟨?_, pairwise_cons.mpr ⟨?_, hapart⟩⟩
    · intro e' he'
      rcases mem_cons.mp he' with rfl | he'
      · exact hnew
      · intro name hname hin
        exact hfree e' he' name hname ((hall name).mpr (.inr hin))
    · intro e' he' name hname hname'
      exact hfree e' he' name hname' ((hall name).mpr (.inl hname))

theorem checkNames_ok {es allocationNames dnsNames}
    (h : checkNames es allocationNames dnsNames = .ok ()) :
    ∀ e ∈ es, isDNSNameValid e.1 = true := by
  induction es generalizing allocationNames dnsNames with
  | nil => simp
  | cons e es ih =>
    obtain ⟨hvalid, h⟩ := ite_error_eq_ok.mp h
    intro e' he'
    rcases mem_cons.mp he' with rfl | he'
    · exact eq_true_of_ne_false hvalid
    split at h
    · cases h
    split at h
    · exact ih h e' he'
    split at h
    · cases h
    · exact ih h e' he'

structure Accepted (cfg : EnsembleConfig) : Prop where
  named : ∀ name ∈ cfg.allocations, isDNSNameValid name = true
  exist : ∀ name, ∀ dep ∈ dependencies cfg.allocations name, dep ∈ cfg.allocations
  acyclic : ∀ name, Acc (fun a b => a ∈ dependencies cfg.allocations b) name
  together : ∀ n node, cfg.primaryNodes.lookup n = some node →
    ∀ allocName ∈ node.allocations, ∀ dep ∈ dependencies cfg.allocations allocName,
      dep ∈ node.allocations

theorem accepted_of_validateEnsemble (h : validateEnsemble cfg order = .ok ()) : Accepted cfg := by
  obtain ⟨⟨⟩, hspec, hallocs⟩ := bind_eq_ok.mp h
  obtain ⟨⟨⟩, hnames, hspec⟩ := bind_eq_ok.mp (ite_error_eq_ok.mp hspec).2
  obtain ⟨hcycle, hnodes⟩ := ite_error_eq_ok.mp hspec
  refine ⟨?_, ?_, ?_, ?_⟩
  · intro name hname
    obtain ⟨acfg, hl⟩ := exists_lookup hname
    refine checkNames_ok hnames ⟨name, acfg⟩ ?_
    exact order.mem_visit.mpr (mem_lookup_iff.mp hl)
  · intro name dep hdep
    unfold dependencies at hdep
    cases hl : cfg.allocations.lookup name with
    | none => simp [hl] at hdep
    | some acfg =>
      rw [hl] at hdep
      refine validateAllocations_ok hallocs ⟨name, acfg⟩ ?_ dep hdep
      exact order.mem_visit.mpr (mem_lookup_iff.mp hl)
  · intro name
    have hacc := acc_of_detectCycles (eq_false_of_ne_true hcycle) name
    unfold Neighbour at hacc
    simpa only [list_createAdjencyList] using hacc
  intro n node hnode
  refine checkNodes_ok hnodes ⟨n, node⟩ ?_
  exact order.mem_visit.mpr (mem_lookup_iff.mp hnode)

end Accepted

end DMS.Jobs
