import DMS.Core.GoMap

/-! # Verdicts of comparisons

`types/comparison.go`, and `Compare` of `types/capability.go`, which combines the verdicts on nine
fields in the order of a map.
-/

namespace DMS.Types

open List

inductive Comparison
  | worse
  | better
  | equal
  | none
deriving DecidableEq, Repr

namespace Comparison

def and (c cmp : Comparison) : Comparison :=
  if c = cmp then c
  else
    match c, cmp with
    | .equal, cmp => cmp
    | .better, .worse => .worse
    | .better, .equal => .better
    | .better, _ => .none
    | .worse, _ => .worse
    | .none, _ => .none

/-- The table over `And`, for any number of verdicts. -/
def documented (verdicts : List Comparison) : Comparison :=
  if .none ∈ verdicts then .none
  else if .worse ∈ verdicts then .worse
  else if .better ∈ verdicts then .better
  else .equal

/-- `Worse.And(None)` is not what the table says. -/
def Clashing (verdicts : List Comparison) : Prop := .worse ∈ verdicts ∧ .none ∈ verdicts

theorem and_eq_or (c cmp : Comparison) : c.and cmp = c ∨ c.and cmp = cmp := by
  cases c <;> cases cmp <;> decide

theorem foldl_and_of_absorbs {c} (h : c = .worse ∨ c = .none) (l : List Comparison) :
    l.foldl and c = c := by
  refine foldlRecOn (motive := (· = c)) l and rfl fun _ hc cmp _ => ?_
  rw [hc]
  rcases h with rfl | rfl <;> cases cmp <;> rfl

theorem foldl_and_of_not_clashing {c l} (h : ¬ Clashing (c :: l)) :
    l.foldl and c = documented (c :: l) := by
  induction l generalizing c with
  | nil => cases c <;> rfl
  | cons cmp l ih =>
    have hsub : c.and cmp :: l ⊆ c :: cmp :: l := by
      rcases and_eq_or c cmp with heq | heq <;> rw [heq] <;> simp
    rw [foldl_cons, ih fun hclash => h ⟨hsub hclash.1, hsub hclash.2⟩]
    unfold Clashing at h
    cases c <;> cases cmp <;> simp_all [documented, and]

end Comparison

open Comparison

abbrev ComplexComparison := GoMap String Comparison

namespace ComplexComparison

variable {c : ComplexComparison} {v : Comparison}

def verdicts (c : ComplexComparison) : List Comparison := c.entries.map Sigma.snd

def result (order : RangeOrder) (c : ComplexComparison) : Comparison :=
  (order.visit c.verdicts).foldl Comparison.and .equal

theorem result_eq (h : ¬ Clashing c.verdicts) (order : RangeOrder) :
    c.result order = documented c.verdicts := by
  have hmem v := (order.perm c.verdicts).mem_iff (a := v)
  refine (foldl_and_of_not_clashing ?_).trans ?_
  · simpa [Clashing, hmem] using h
  · simp [documented, hmem]

/-- `And` keeps `Worse` and `None`, whatever comes after them. -/
theorem exists_result (hmem : v ∈ c.verdicts) (h : v = .worse ∨ v = .none) :
    ∃ order, c.result order = v := by
  obtain ⟨order, rest, hfront⟩ := RangeOrder.exists_shuffle hmem
  have hfirst : Comparison.equal.and v = v := by cases v <;> rfl
  refine ⟨order, ?_⟩
  rw [result, hfront, foldl_cons, hfirst]
  exact foldl_and_of_absorbs h rest

theorem result_same_iff :
    (∀ order order', c.result order = c.result order') ↔ ¬ Clashing c.verdicts := by
  refine ⟨fun h hclash => ?_, fun h order order' => ?_⟩
  · obtain ⟨order, hworse⟩ := exists_result hclash.1 (.inl rfl)
    obtain ⟨order', hnone⟩ := exists_result hclash.2 (.inr rfl)
    exact absurd (hworse.symm.trans ((h order order').trans hnone)) (by decide)
  · rw [result_eq h, result_eq h]

end ComplexComparison

def wrapComparing (name : String) (result : Except String Comparison) : Except String Comparison :=
  result.mapError fun err => "error comparing " ++ name ++ ": " ++ err

/-- The loop of `HardwareCapability.Compare` over its fields, with the verdict on each. -/
def compareFields (compare : String → Except String Comparison) : Except String ComplexComparison :=
  ["Executors", "JobTypes", "Resources", "Libraries", "Localities", "Connectivity", "Price", "Time",
    "KYCs"].foldlM (fun c name => (wrapComparing name (compare name)).map (c.insert name ·)) ∅

def HardwareCapability.compare (order : RangeOrder)
    (compare : String → Except String Comparison) : Except String Comparison :=
  (compareFields compare).map (ComplexComparison.result order)

/-- `Resources.Compare`, with the verdicts on its parts. -/
def Resources.compare (cpu ram disk gpus : Except String Comparison) : Except String Comparison :=
  (wrapComparing "CPU" cpu).bind fun cpu => (wrapComparing "RAM" ram).bind fun ram =>
    (wrapComparing "Disk" disk).bind fun disk => (wrapComparing "GPUs" gpus).map fun gpus =>
      ((cpu.and ram).and disk).and gpus

/-- The order of a map shows exactly when it holds both `Worse` and `None`. -/
theorem comparison_order_free_iff (c : ComplexComparison)
    (compare : String → Except String Comparison) :
    ((∀ order, c.result order = documented c.verdicts) ↔ ¬ Clashing c.verdicts) ∧
    ((∀ order order', c.result order = c.result order') ↔ ¬ Clashing c.verdicts) ∧
    ((∀ order order', HardwareCapability.compare order compare =
        HardwareCapability.compare order' compare) ↔
      ∀ c, compareFields compare = .ok c → ¬ Clashing c.verdicts) ∧
    ∀ cpu ram disk gpus, ¬ Clashing [cpu, ram, disk, gpus] →
      Resources.compare (.ok cpu) (.ok ram) (.ok disk) (.ok gpus) =
        .ok (documented [cpu, ram, disk, gpus]) := by
  refine ⟨⟨fun h => ?_, c.result_eq⟩, c.result_same_iff, ?_, fun cpu ram disk gpus h => ?_⟩
  · exact c.result_same_iff.mp fun order order' => (h order).trans (h order').symm
  · unfold HardwareCapability.compare
    cases compareFields compare with
    | error err => simp [Except.map]
    | ok c => simpa [Except.map] using c.result_same_iff
  · exact congrArg Except.ok (foldl_and_of_not_clashing h)

theorem worse_and_none_clash : let c : ComplexComparison :=
      (AList.insert "Price" .worse ∅).insert "Time" .none
    c.result .stored = .none ∧ c.result ⟨reverse, reverse_perm⟩ = .worse := by
  decide

end DMS.Types
