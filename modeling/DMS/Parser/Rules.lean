import DMS.Jobs.Validate
import DMS.Parser.Tree

/-! # The rules of ensemble documents

The rules of `ensemblev1/validate.go` for the specification, allocations and their resources,
nodes, edges and supervisors. A rule reads the keys of a map as they are spelled in the source. The
texts of errors leave out the trees that `%v` would print.
-/

namespace DMS.Parser

open Outcome

variable {F : Type}

/-- The 64-bit floating-point numbers of the machine. -/
structure Floats (F : Type) where
  ofInt : Int → F
  /-- `strconv.ParseFloat` of the trimmed text -/
  parse : GoString → Option F
  /-- `f <= 0` -/
  nonPositive : F → Bool

/-- `ToPositiveFloat64` of `utils/convert/numbers.go` -/
def toPositiveFloat64 (floats : Floats F) (value : Tree F) (fieldName : String) :
    Except String F :=
  let result : Option F :=
    match value with
    | .float f => some f
    | .int i => some (floats.ofInt i)
    | .uint n => some (floats.ofInt n)
    | .str s => floats.parse s
    | _ => none
  match result with
  | none => .error s!"{fieldName} must be a valid number"
  | some f => if floats.nonPositive f then .error s!"{fieldName} must be positive" else .ok f

/-- `fields[key] == nil` -/
def absent (fields : Fields F) (key : String) : Bool := (valueAt fields key).all Tree.isNull

def require (fields : Fields F) (key message : String) : Except String GoString :=
  match stringAt fields key with
  | some (c :: s) => .ok (c :: s)
  | _ => .error message

def nonEmpty (fields : Fields F) (key message : String) : Except String Unit :=
  if stringAt fields key = some [] then .error message else .ok ()

def strings (items : List (Tree F)) : List GoString := items.filterMap Tree.asString

def checkEach {A : Type} (check : A → Except String Unit) : List A → Except String Unit
  | [] => .ok ()
  | a :: as => (check a).bind fun _ => checkEach check as

def validEscalationStrategies : List GoString := [ascii "redeploy", ascii "teardown"]

/-- The dependencies that `CreateAdjencyList` finds; a single name is a list of one. -/
def graphDependencies : Tree F → List GoString
  | .map allocation =>
    match valueAt allocation "depends_on" with
    | some (.str s) => [s]
    | some (.list items) => strings items
    | _ => []
  | _ => []

def listedDependencies : Tree F → List GoString
  | .map allocation => ((listAt allocation "depends_on").map strings).getD []
  | _ => []

def listedAllocations : Tree F → List GoString
  | .map node => ((listAt node "allocations").map strings).getD []
  | _ => []

/-- What `ValidateSpec` reads of an allocation. -/
def specAllocation (dependencies : Tree F → List GoString) (t : Tree F) :
    Jobs.AllocationConfig where
  dnsName :=
    match t with
    | .map allocation => (stringAt allocation "dns_name").getD []
    | _ => []
  dependsOn := dependencies t

def specAllocations (dependencies : Tree F → List GoString) (allocs : Fields F) :
    GoMap GoString Jobs.AllocationConfig :=
  (toMap allocs).mapValues fun _ t => specAllocation dependencies t

/-- What `ValidateSpec` reads of the nodes. -/
def specNodes (nodes : Fields F) : GoMap GoString Jobs.NodeConfig :=
  (toMap nodes).mapValues fun _ t =>
    { Jobs.NodeConfig.zero with allocations := listedAllocations t }

def validateSpec (order : RangeOrder) : Rule F := fun _ data =>
  match data with
  | .map spec =>
    if (stringAt spec "escalation_strategy").any (· ∉ validEscalationStrategies) then
      .error "invalid escalation_strategy: must be one of [redeploy teardown]"
    else
      match mapAt spec "allocations" with
      | none | some [] => .error "at least one allocation must be defined"
      | some allocs =>
        (Jobs.checkNames (order.visit (specAllocations listedDependencies allocs).entries)
          ∅ ∅).bind fun _ =>
          if detectCycles (Jobs.createAdjencyList (specAllocations graphDependencies allocs))
            order = true then
            .error "cyclic dependencies detected in allocations"
          else if (listAt spec "edges").any (· ≠ []) && absent spec "nodes" then
            .error "nodes must be defined when edge_constraints are present"
          else
            match mapAt spec "nodes" with
            | none => .ok ()
            | some nodes =>
              Jobs.checkNodes (specAllocations listedDependencies allocs)
                (order.visit (specNodes nodes).entries) ∅
  | _ => .error "invalid spec configuration"

def checkReference (allocs : Fields F) (alloc : Tree F) : Except String Unit :=
  match alloc.asString with
  | none => .error "invalid allocation reference"
  | some name =>
    if name ∈ toMap allocs then .ok ()
    else .error s!"referenced allocation '{printed name}' not found"

def checkReferences (root : Fields F) (what : String) (fields : Fields F) : Except String Unit :=
  match listAt fields "allocations" with
  | none => .ok ()
  | some items =>
    match valueAt root "allocations" with
    | none | some .null => .error s!"allocations must be defined when {what} is defined"
    | some (.map allocs) => checkEach (checkReference allocs) items
    | some _ => .error "invalid allocations configuration"

def validAllocationFailureStrategies : List GoString :=
  [ascii "stay_down", ascii "one_for_one", ascii "one_for_all", ascii "rest_for_one"]

def checkDNSName (allocation : Fields F) : Except String Unit :=
  match stringAt allocation "dns_name" with
  | none => .ok ()
  | some dnsName =>
    if dnsName = [] then .error "dns_name cannot be empty if specified"
    else if Jobs.isDNSNameValid dnsName then .ok ()
    else .error s!"invalid dns_name format: {printed dnsName}"

def checkFailureRecovery (strategies : List GoString) (what : String) (fields : Fields F) :
    Except String Unit :=
  match stringAt fields "failure_recovery" with
  | none => .error s!"failure_recovery must be specified for {what}"
  | some strategy =>
    if strategy ∈ strategies then .ok ()
    else .error s!"invalid failure_recovery \"{printed strategy}\""

def checkDependency (allocs : Fields F) (name : GoString) (v : Tree F) : Except String Unit :=
  match v.asString with
  | none => .error "depends_on must be a list of allocation names"
  | some dep =>
    if dep ≠ [] ∧ name = dep then .error "depends_on must not refer to itself"
    else if ((toMap allocs).lookup dep).all Tree.isNull then
      .error "depends_on allocation not found"
    else .ok ()

def checkDependsOn (root : Fields F) (path : Path) (allocation : Fields F) : Except String Unit :=
  match valueAt allocation "depends_on" with
  | none => .ok ()
  | some (.list items) =>
    checkEach (checkDependency ((mapAt root "allocations").getD []) path.last) items
  | some _ => .error "depends_on must be a list of allocation names"

def checkKey (key : Tree F) : Except String Unit :=
  match key with
  | .map key =>
    (require key "type" "allocation key spec must have a type").bind fun keyType =>
      if keyType ≠ ascii "ssh" ∧ keyType ≠ ascii "gpg" then
        .error s!"key has invalid type: {printed keyType} (must be 'ssh' or 'gpg')"
      else
        (require key "file" "allocation key is empty").bind fun _ =>
          if keyType = ascii "ssh" then .ok ()
          else (require key "dest" "allocation key is missing a destination").map fun _ => ()
  | _ => .error "invalid allocation key spec: must be a map"

def checkProvision (root : Fields F) (allocation : Fields F) : Except String Unit :=
  match listAt allocation "provision" with
  | none | some [] => .ok ()
  | some provision =>
    match valueAt root "scripts" with
    | none | some .null => .error "scripts must be defined when provision is defined"
    | some (.map scripts) =>
      checkEach (fun script : Tree F =>
        match script.asString with
        | none => .error "invalid script reference"
        | some name =>
          if name ∈ toMap scripts then .ok ()
          else .error s!"referenced script '{printed name}' not found") provision
    | some _ => .error "invalid scripts configuration"

def validateAllocation (root : Fields F) : Rule F := fun path data =>
  match data with
  | .map allocation =>
    if absent allocation "execution" then .error "allocation must have an execution"
    else if absent allocation "resources" then .error "allocation must have resources"
    else
      (require allocation "executor" "allocation must have an executor").bind fun executor =>
        match mapAt allocation "execution" with
        | none => .error "invalid execution configuration"
        | some execution =>
          (require execution "type" "execution must have a type").bind fun execType =>
            if executor ≠ execType then
              .error (s!"allocation executor type ({printed executor}) must match " ++
                s!"execution type ({printed execType})")
            else
              (require allocation "type"
                "allocation must have a type (service or task)").bind fun _ =>
              (checkDNSName allocation).bind fun _ =>
              (checkFailureRecovery validAllocationFailureStrategies "allocation"
                allocation).bind fun _ =>
              (checkDependsOn root path allocation).bind fun _ =>
              (checkEach checkKey ((listAt allocation "keys").getD [])).bind fun _ =>
                checkProvision root allocation
  | _ => .error "invalid allocation configuration"

section Resources

variable (floats : Floats F)

def requirePositive (fields : Fields F) (key missing fieldName : String) : Except String F :=
  match valueAt fields key with
  | none => .error missing
  | some value => toPositiveFloat64 floats value fieldName

def optionalPositive (fields : Fields F) (key fieldName : String) : Except String Unit :=
  match valueAt fields key with
  | none => .ok ()
  | some value => (toPositiveFloat64 floats value fieldName).map fun _ => ()

def checkGPU (gpu : Tree F) : Except String Unit :=
  match gpu with
  | .map gpu =>
    (optionalPositive floats gpu "memory" "gpu memory").bind fun _ =>
    (nonEmpty gpu "vendor" "gpu vendor cannot be empty if specified").bind fun _ =>
      nonEmpty gpu "model" "gpu model cannot be empty if specified"
  | _ => .error "gpu is not a valid configuration"

/-- `ValidateResources`. It leaves the numbers in place of what was written down. -/
def validateResources : Rule F := fun _ data =>
  match data with
  | .map resources =>
    match mapAt resources "cpu" with
    | none => .error "resources must have cpu configuration"
    | some cpu =>
      (requirePositive floats cpu "cores" "cpu must have cores value" "cpu cores").bind fun _ =>
      (nonEmpty cpu "architecture" "cpu architecture cannot be empty if specified").bind fun _ =>
      (optionalPositive floats cpu "clock_speed" "cpu clock_speed").bind fun _ =>
      match mapAt resources "ram" with
      | none => .error "resources must have ram configuration"
      | some ram =>
        (requirePositive floats ram "size" "ram must have size value" "ram size").bind fun _ =>
        (optionalPositive floats ram "clock_speed" "ram clock_speed").bind fun _ =>
        match mapAt resources "disk" with
        | none => .error "resources must have disk configuration"
        | some disk =>
          (requirePositive floats disk "size" "disk must have size value" "disk size").bind fun _ =>
          (nonEmpty disk "type" "disk type cannot be empty if specified").bind fun _ =>
          match valueAt resources "gpus" with
          | none => .ok ()
          | some (.list gpus) => checkEach (checkGPU floats) gpus
          | some _ => .error "gpus must be an array"
  | _ => .error "invalid resources configuration"

end Resources

def validNodeFailureStrategies : List GoString :=
  [ascii "stay_down", ascii "restart", ascii "redeploy"]

def checkRedundancy (node : Fields F) : Except String Unit :=
  match valueAt node "redundancy" with
  | none => .ok ()
  | some (.int redundancy) =>
    if redundancy < 0 then .error "redundancy must be a positive number" else .ok ()
  | some _ => .error "redundancy must be a number"

def checkPortAllocation (root : Fields F) (port : Fields F) : Except String Unit :=
  match stringAt port "allocation" with
  | none => .ok ()
  | some name =>
    match valueAt root "allocations" with
    | none | some .null => .error "allocations must be defined when referenced in port"
    | some (.map allocs) =>
      if name ∈ toMap allocs then .ok ()
      else .error s!"referenced allocation '{printed name}' not found in port configuration"
    | some _ => .error "invalid allocations configuration"

def checkPort (root : Fields F) (port : Tree F) : Except String Unit :=
  match port with
  | .map port =>
    if ((valueAt port "private").bind Tree.asInt).all (· ≤ 0) then
      .error "port must have a valid private port number"
    else
      match (valueAt port "public").bind Tree.asInt with
      | none => .error "public port must be specified when private port is defined"
      | some publicPort =>
        if publicPort ≠ 0 ∧ publicPort < 1025 ∨ publicPort > 65535 then
          .error ("port must have a valid public port number between 1025 and 65535 " ++
            "if specified")
        else checkPortAllocation root port
  | _ => .error "invalid port configuration"

/-- `validateLocation`; no value of a document is of the type that the test of the
autonomous system number asks for. -/
def checkLocation (location : Tree F) : Except String Unit :=
  match location with
  | .map location =>
    (require location "continent" "continent is required when specifying a location").bind fun _ =>
    (nonEmpty location "country" "country cannot be empty if specified").bind fun _ =>
    (nonEmpty location "city" "city cannot be empty if specified").bind fun _ =>
      if (stringAt location "city").isSome ∧ stringAt location "country" = none then
        .error "country must be specified when city is provided"
      else nonEmpty location "isp" "ISP cannot be empty if specified"
  | _ => .error "location must be a map"

def checkLocations (node : Fields F) : Except String Unit :=
  match mapAt node "location" with
  | none => .ok ()
  | some location =>
    (checkEach checkLocation ((listAt location "accept").getD [])).bind fun _ =>
      checkEach checkLocation ((listAt location "reject").getD [])

def validateNode (root : Fields F) : Rule F := fun _ data =>
  match data with
  | .map node =>
    (checkReferences root "node" node).bind fun _ =>
    (checkRedundancy node).bind fun _ =>
    (checkFailureRecovery validNodeFailureStrategies "node" node).bind fun _ =>
    (checkEach (checkPort root) ((listAt node "ports").getD [])).bind fun _ =>
    (checkLocations node).bind fun _ => nonEmpty node "peer" "peer cannot be empty if specified"
  | _ => .error "invalid node configuration"

def supervisorStrategies : List GoString :=
  [ascii "OneForOne", ascii "AllForOne", ascii "RestForOne"]

/-- `ValidateSupervisor`; of the children only the type is looked at. -/
def validateSupervisor (root : Fields F) : Rule F := fun _ data =>
  match data with
  | .map supervisor =>
    (nonEmpty supervisor "strategy" "supervisor strategy cannot be empty if specified").bind
      fun _ =>
      if (stringAt supervisor "strategy").any (· ∉ supervisorStrategies) then
        .error "invalid supervisor strategy"
      else
        (checkReferences root "supervisor" supervisor).bind fun _ =>
          if (listAt supervisor "children").any fun children =>
              children.any fun child => child.asMap.isNone then
            .error "invalid child supervisor: must be a map"
          else .ok ()
  | _ => .error "invalid supervisor configuration"

def validateEdgeConstraints (root : Fields F) : Rule F := fun _ data =>
  match data with
  | .map edge =>
    match stringAt edge "S", stringAt edge "T" with
    | some s, some t =>
      if s = [] ∨ t = [] then
        .error "invalid edge constraints configuration: edges should be a pair of named nodes"
      else if s = t then
        .error "edge constraint source and target must be different nodes"
      else
        match valueAt root "nodes" with
        | none | some .null =>
          .error "invalid edge constraints configuration: nodes must be defined"
        | some (.map nodes) =>
          if s ∉ toMap nodes then
            .error s!"invalid edge constraints configuration: node '{printed s}' not found"
          else if t ∉ toMap nodes then
            .error s!"invalid edge constraints configuration: node '{printed t}' not found"
          else .ok ()
        | some _ => .error "invalid edge constraints configuration: nodes must be a map"
    | _, _ =>
      .error "invalid edge constraints configuration: edges should be a pair of named nodes"
  | _ => .error "invalid edge constraints configuration"

section Seen

variable {root : Fields F} {path : Path} {t : Tree F}

structure SeenSpec (order : RangeOrder) (spec allocs : Fields F) : Prop where
  value : valueAt spec "allocations" = some (.map allocs)
  named : ∀ name ∈ toMap allocs, Jobs.isDNSNameValid name = true
  acyclic : ∀ name, Acc (fun a b => a ∈
    Jobs.dependencies (specAllocations graphDependencies allocs) b) name
  placed : ∀ nodes, valueAt spec "nodes" = some (.map nodes) →
    Jobs.checkNodes (specAllocations listedDependencies allocs)
      (order.visit (specNodes nodes).entries) ∅ = .ok ()

theorem validateSpec_ok {order} {spec : Fields F}
    (h : validateSpec order path (.map spec) = .ok ()) : ∃ allocs, SeenSpec order spec allocs := by
  obtain ⟨-, h⟩ := ite_error_eq_ok.mp h
  split at h
  · cases h
  · cases h
  rename_i allocs hne hallocs
  obtain ⟨⟨⟩, hnames, h⟩ := bind_eq_ok.mp h
  obtain ⟨hcycle, h⟩ := ite_error_eq_ok.mp h
  obtain ⟨-, hplaced⟩ := ite_error_eq_ok.mp h
  refine ⟨allocs, mapAt_eq_some.mp hallocs, ?_, ?_, ?_⟩
  · intro name hname
    have hmem : name ∈ specAllocations listedDependencies allocs := GoMap.mem_mapValues.mpr hname
    obtain ⟨a, ha⟩ := GoMap.exists_lookup hmem
    exact Jobs.checkNames_ok hnames ⟨name, a⟩ (order.mem_visit.mpr (AList.mem_lookup_iff.mp ha))
  · intro name
    have hacc := acc_of_detectCycles (eq_false_of_ne_true hcycle) name
    unfold Neighbour at hacc
    simpa only [Jobs.list_createAdjencyList] using hacc
  · intro nodes hnodes
    rwa [mapAt_eq_some.mpr hnodes] at hplaced

end Seen

/-- `NewEnsembleV1Validator`; `others` are the rules of the subnet, the contracts, and the
execution, the health check and the volumes of an allocation. -/
def newEnsembleV1Validator (floats : Floats F) (order : RangeOrder)
    (others : List (String × Rule F)) (root : Fields F) : List (String × Rule F) :=
  [("V1", validateSpec order), ("V1.allocations.*", validateAllocation root),
    ("V1.edges.[]", validateEdgeConstraints root),
    ("V1.nodes.*", validateNode root),
    ("V1.supervisor", validateSupervisor root),
    ("V1.supervisor.children.[]", validateSupervisor root),
    ("V1.allocations.*.resources", validateResources floats)] ++ others

end DMS.Parser
