import DMS.Parser.Rules
import Mathlib.Order.WellFounded

/-! # What an accepted specification obeys

The validator walks `{"v1": spec}` and applies a rule wherever its pattern matches the path. The
first one is for the whole specification.
-/

namespace DMS.Parser

open Outcome

variable {F : Type}

/-- What is given to a call of the validator besides the specification: the numbers of the machine,
the order in which maps are visited, and the rules that are not modelled. -/
structure Reading (F : Type) where
  floats : Floats F
  /-- What `strings.EqualFold` says about texts that are not ASCII. -/
  unicode : GoString → GoString → Bool
  order : RangeOrder
  otherRules : List (String × Rule F)

abbrev rulesOf (r : Reading F) (spec : Fields F) : List (String × Rule F) :=
  newEnsembleV1Validator r.floats r.order r.otherRules spec

/-- What `BasicParser.Decode` asks of its validator: the walk over `{"v1": spec}`. -/
def BasicParser.accepts (r : Reading F) (spec : Fields F) : Except String Unit :=
  validate r.unicode (rulesOf r spec) [] (.map [(ascii "v1", .map spec)])

def allocationsOf (spec : Fields F) : Fields F := (mapAt spec "allocations").getD []

/-- The pattern `V1` is the only one that a path of one part matches. -/
theorem seenSpec_of_accepts {r : Reading F} {spec : Fields F}
    (h : BasicParser.accepts r spec = .ok ()) : SeenSpec r.order spec (allocationsOf spec) := by
  have hwalk : validate r.unicode (rulesOf r spec) (ascii "v1") (.map spec) = .ok () :=
    validate_field h (.head _)
  have hparts : List.Forall₂ (Fits r.unicode) (Path.parts (ascii "V1"))
      (Path.parts (ascii "v1")) := .cons ⟨by decide, .inr rfl⟩ .nil
  have hrule : validateSpec r.order (ascii "v1") (.map spec) = .ok () := by
    have hlisted : ("V1", validateSpec r.order) ∈ rulesOf r spec := by
      simp [newEnsembleV1Validator]
    refine applyRules_ok (applyRules_of_validate hwalk) hlisted ?_
    rw [Path.matches, matchParts, if_neg (by decide), if_neg (by decide)]
    exact matchFrom_of_fits hparts
  obtain ⟨allocs, hseen⟩ := validateSpec_ok hrule
  have hof : allocationsOf spec = allocs := by
    rw [allocationsOf, mapAt_eq_some.mpr hseen.value]
    rfl
  rwa [hof]

/-- The rules that are about the whole specification: the allocations are given and have names for
DNS, their dependencies have no cycles, an allocation is on one node at most, and what it depends on
is on the same node. -/
structure ObeysRules (spec allocs : Fields F) : Prop where
  given : valueAt spec "allocations" = some (.map allocs)
  named : ∀ name ∈ toMap allocs, Jobs.isDNSNameValid name = true
  acyclic : ∀ name, ¬ Relation.TransGen (fun name dep => ∃ t, (toMap allocs).lookup name = some t ∧
    dep ∈ listedDependencies t) name name
  apart : ∀ nodes n n' t t', valueAt spec "nodes" = some (.map nodes) →
    (toMap nodes).lookup n = some t → (toMap nodes).lookup n' = some t' → n ≠ n' →
    ∀ name ∈ listedAllocations t, name ∉ listedAllocations t'
  together : ∀ nodes n t name t', valueAt spec "nodes" = some (.map nodes) →
    (toMap nodes).lookup n = some t → (toMap allocs).lookup name = some t' →
    name ∈ listedAllocations t → ∀ dep ∈ listedDependencies t', dep ∈ listedAllocations t

section Graph

variable {t : Tree F} {name n dep : GoString}

theorem mem_graphDependencies (h : dep ∈ listedDependencies t) : dep ∈ graphDependencies t := by
  cases t with
  | map fs =>
    change dep ∈ (((valueAt fs "depends_on").bind Tree.asList).map strings).getD [] at h
    unfold graphDependencies
    cases hvalue : valueAt fs "depends_on" with
    | none => simp [hvalue] at h
    | some value =>
      rw [hvalue] at h
      cases value with
      | list items =>
        simp only [hvalue]
        exact h
      | _ => simp [Tree.asList] at h
  | _ => exact h

theorem lookup_specNodes {nodes : Fields F} (ht : (toMap nodes).lookup n = some t) :
    (specNodes nodes).lookup n =
      some { Jobs.NodeConfig.zero with allocations := listedAllocations t } := by
  rw [specNodes, GoMap.lookup_mapValues, ht]
  rfl

theorem dependencies_specAllocations {dependencies allocs}
    (ht : (toMap allocs).lookup name = some t) :
    Jobs.dependencies (specAllocations dependencies allocs) name = dependencies t := by
  rw [Jobs.dependencies, specAllocations, GoMap.lookup_mapValues, ht]
  rfl

end Graph

section Obeys

variable {r : Reading F} {spec : Fields F} (h : BasicParser.accepts r spec = .ok ())

include h

theorem acyclic_of_accepts (name : GoString) : ¬ Relation.TransGen (fun name dep => ∃ t,
    (toMap (allocationsOf spec)).lookup name = some t ∧ dep ∈ listedDependencies t) name name := by
  let graph (a b : GoString) : Prop :=
    a ∈ Jobs.dependencies (specAllocations graphDependencies (allocationsOf spec)) b
  have hwf : WellFounded graph := ⟨(seenSpec_of_accepts h).acyclic⟩
  intro hcycle
  refine hwf.transGen.irrefl.irrefl name (Relation.transGen_swap.mp (hcycle.lift id ?_))
  rintro a b ⟨t, ht, hdep⟩
  change b ∈ Jobs.dependencies (specAllocations graphDependencies (allocationsOf spec)) a
  rw [dependencies_specAllocations ht]
  exact mem_graphDependencies hdep

theorem apart_of_accepts {nodes : Fields F} {n n' t t'}
    (hnodes : valueAt spec "nodes" = some (.map nodes)) (ht : (toMap nodes).lookup n = some t)
    (ht' : (toMap nodes).lookup n' = some t') (hne : n ≠ n') :
    ∀ name ∈ listedAllocations t, name ∉ listedAllocations t' := by
  have hapart := (Jobs.checkNodes_apart ((seenSpec_of_accepts h).placed _ hnodes)).2
  have hmem : ∀ {n : GoString} {t : Tree F}, (toMap nodes).lookup n = some t →
      ⟨n, { Jobs.NodeConfig.zero with allocations := listedAllocations t }⟩ ∈
        r.order.visit (specNodes nodes).entries := by
    intro n t ht
    exact r.order.mem_visit.mpr (AList.mem_lookup_iff.mp (lookup_specNodes ht))
  have hsymm : Std.Symm fun e e' : Σ _ : GoString, Jobs.NodeConfig =>
      ∀ name ∈ e.2.allocations, name ∉ e'.2.allocations :=
    ⟨fun e e' hee name hname hname' => hee name hname' hname⟩
  refine hapart.forall (hmem ht) (hmem ht') ?_
  intro heq
  exact hne (congrArg Sigma.fst heq)

theorem together_of_accepts {nodes : Fields F} {n t name t'}
    (hnodes : valueAt spec "nodes" = some (.map nodes)) (ht : (toMap nodes).lookup n = some t)
    (ht' : (toMap (allocationsOf spec)).lookup name = some t')
    (hin : name ∈ listedAllocations t) :
    ∀ dep ∈ listedDependencies t', dep ∈ listedAllocations t := by
  intro dep hdep
  refine Jobs.checkNodes_ok ((seenSpec_of_accepts h).placed _ hnodes)
    ⟨n, { Jobs.NodeConfig.zero with allocations := listedAllocations t }⟩
    (r.order.mem_visit.mpr (AList.mem_lookup_iff.mp (lookup_specNodes ht))) name hin dep ?_
  rw [dependencies_specAllocations ht']
  exact hdep

end Obeys

/-- Every specification that the validator accepts obeys the rules. -/
theorem accepted_obeys (r : Reading F) (spec : Fields F)
    (h : BasicParser.accepts r spec = .ok ()) : ObeysRules spec (allocationsOf spec) :=
  ⟨(seenSpec_of_accepts h).value, (seenSpec_of_accepts h).named, acyclic_of_accepts h,
    fun _ _ _ _ _ => apart_of_accepts h, fun _ _ _ _ _ => together_of_accepts h⟩

def wholeNumbers : Floats Int where
  ofInt := id
  parse := fun _ => none
  nonPositive := fun i => i ≤ 0

def plainReading : Reading Int where
  floats := wholeNumbers
  unicode := fun _ _ => false
  order := RangeOrder.stored
  otherRules := []

def sampleFields (dnsName : String) : Fields Int :=
  [(ascii "type", .str (ascii "service")), (ascii "executor", .str (ascii "null")),
    (ascii "execution", .map [(ascii "type", .str (ascii "null")), (ascii "params", .map [])]),
    (ascii "resources", .map [(ascii "cpu", .map [(ascii "cores", .int 1)]),
      (ascii "ram", .map [(ascii "size", .uint 1073741824)]),
      (ascii "disk", .map [(ascii "size", .uint 1073741824)])]),
    (ascii "dns_name", .str (ascii dnsName)), (ascii "failure_recovery", .str (ascii "stay_down"))]

def sampleAllocation : Tree Int := .map (sampleFields "web")

/-- Two allocations on one node, of which the second waits for the first. -/
def sampleSpec : Fields Int :=
  [(ascii "allocations", .map [(ascii "web", sampleAllocation), (ascii "db",
      .map ((ascii "depends_on", .list [.str (ascii "web")]) :: sampleFields "db"))]),
    (ascii "nodes", .map [(ascii "n", .map [
      (ascii "allocations", .list [.str (ascii "web"), .str (ascii "db")]),
      (ascii "failure_recovery", .str (ascii "stay_down"))])])]

theorem accepted_obeys_sampleSpec : BasicParser.accepts plainReading sampleSpec = .ok () ∧
    ObeysRules sampleSpec (allocationsOf sampleSpec) := by
  have haccepts : BasicParser.accepts plainReading sampleSpec = .ok () := by decide +kernel
  exact ⟨haccepts, accepted_obeys plainReading _ haccepts⟩

end DMS.Parser
