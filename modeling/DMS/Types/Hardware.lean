import DMS.Core.GoMap
import DMS.Core.GoValue
import Mathlib.Algebra.GroupWithZero.Nat

/-! # Quantities of resources

`Resources` of `types/resources.go` with the parts of `types/hardware.go` that adding and
subtracting read. Subtracting stops at the first part that is too small, and what was subtracted
up to there stays subtracted; since the GPUs are a slice, everybody who holds it sees that.
-/

namespace DMS.Types

/-- Numbers of cores. They are rounded to two places after every operation; which
floating point format that happens in is left open. -/
class Cores (κ : Type) where
  zero : κ
  /-- `round(x+y, 2)` -/
  add : κ → κ → κ
  /-- `round(x-y, 2)` -/
  sub : κ → κ → κ
  lt : κ → κ → Bool

structure Hundredths where
  count : Int
deriving DecidableEq, Repr

instance : Cores Hundredths where
  zero := ⟨0⟩
  add x y := ⟨x.count + y.count⟩
  sub x y := ⟨x.count - y.count⟩
  lt x y := decide (x.count < y.count)

inductive Underflow (κ : Type)
  | core (other own : κ)
  | size (other own : UInt64)
  | vram (other own : UInt64)
deriving DecidableEq, Repr

structure GPU where
  index : Int
  model : String
  vram : UInt64
deriving DecidableEq, Repr

/-- `ram` and `disk` are the sizes in bytes and `cpu` is the number of cores. -/
structure Resources (κ : Type) where
  cpu : κ
  gpus : List GPU
  ram : UInt64
  disk : UInt64
deriving DecidableEq, Repr

variable {κ : Type}

/-- What a method leaves in its receiver, and the error that it returns. -/
abbrev Subtracted (κ α : Type) := α × Except (GoError (Underflow κ)) Unit

/-- `Subtract` of an unsigned size. -/
def subtractSize (fault : UInt64 → UInt64 → Underflow κ) (own other : UInt64) :
    Subtracted κ UInt64 :=
  if own < other then (own, .error (.new (fault other own))) else (own - other, .ok ())

namespace GPU

def add (gpu other : GPU) : GPU := { gpu with vram := gpu.vram + other.vram }

def subtract (gpu other : GPU) : Subtracted κ GPU :=
  let (vram, result) := subtractSize .vram gpu.vram other.vram
  ({ gpu with vram := vram }, result)

def failedToSubtract (gpu : GPU) : String := s!"failed to subtract GPU {gpu.model}"

end GPU

namespace GPUs

def byIndex (gpus : List GPU) : GoMap Int GPU := gpus.foldl (fun m gpu => m.insert gpu.index gpu) ∅

def add (gpus other : List GPU) : List GPU :=
  if other = [] then gpus
  else if gpus = [] then other
  else
    gpus.map fun gpu =>
      match (byIndex other).lookup gpu.index with
      | none => gpu
      | some otherGPU => gpu.add otherGPU

def subtractLoop (otherGPUs : GoMap Int GPU) : List GPU → Subtracted κ (List GPU)
  | [] => ([], .ok ())
  | gpu :: rest =>
    match otherGPUs.lookup gpu.index with
    | none =>
      let (rest, result) := subtractLoop otherGPUs rest
      (gpu :: rest, result)
    | some otherGPU =>
      match gpu.subtract otherGPU with
      | (gpu, .error e) => (gpu :: rest, .error (e.wrap gpu.failedToSubtract))
      | (gpu, .ok _) =>
        let (rest, result) := subtractLoop otherGPUs rest
        (gpu :: rest, result)

def subtract (gpus other : List GPU) : Subtracted κ (List GPU) := subtractLoop (byIndex other) gpus

end GPUs

namespace Resources

variable [Cores κ]

def zero : Resources κ := ⟨Cores.zero, [], 0, 0⟩

def add (r other : Resources κ) : Resources κ :=
  ⟨Cores.add r.cpu other.cpu, GPUs.add r.gpus other.gpus, r.ram + other.ram, r.disk + other.disk⟩

def subtract (r other : Resources κ) : Subtracted κ (Resources κ) :=
  if Cores.lt r.cpu other.cpu then
    (r, .error ((GoError.new (.core other.cpu r.cpu)).wrap "error subtracting CPU"))
  else
    let r := { r with cpu := Cores.sub r.cpu other.cpu }
    match subtractSize .size r.ram other.ram with
    | (_, .error e) => (r, .error (e.wrap "error subtracting RAM"))
    | (ram, .ok _) =>
      let r := { r with ram := ram }
      match subtractSize .size r.disk other.disk with
      | (_, .error e) => (r, .error (e.wrap "error subtracting Disk"))
      | (disk, .ok _) =>
        let r := { r with disk := disk }
        match GPUs.subtract r.gpus other.gpus with
        | (gpus, .error e) =>
          ({ r with gpus := gpus }, .error (e.wrap "error subtracting GPUs"))
        | (gpus, .ok _) => ({ r with gpus := gpus }, .ok ())

end Resources

inductive Size
  | ram
  | disk
deriving DecidableEq, Repr

def Resources.size (r : Resources κ) : Size → UInt64
  | .ram => r.ram
  | .disk => r.disk

theorem subtractSize_exact (fault : UInt64 → UInt64 → Underflow κ) (own other : UInt64) :
    (subtractSize fault own other).1.toNat =
      if own.toNat < other.toNat then own.toNat else own.toNat - other.toNat := by
  unfold subtractSize
  by_cases hlt : own < other
  · rw [if_pos hlt, if_pos (UInt64.lt_iff_toNat_lt.mp hlt)]
  · rw [if_neg hlt, if_neg (fun h => hlt (UInt64.lt_iff_toNat_lt.mpr h))]
    exact UInt64.toNat_sub_of_le own other (UInt64.not_lt.mp hlt)

theorem subtractSize_ok {fault : UInt64 → UInt64 → Underflow κ} {own other : UInt64}
    (h : (subtractSize fault own other).2 = .ok ()) :
    (subtractSize fault own other).1.toNat + other.toNat = own.toNat := by
  have hle : ¬own.toNat < other.toNat := by
    intro hlt
    unfold subtractSize at h
    simp [UInt64.lt_iff_toNat_lt, hlt] at h
  rw [subtractSize_exact, if_neg hle]
  omega

section Sizes

variable [Cores κ]

@[simp] theorem Resources.zero_size (z : Size) : (Resources.zero : Resources κ).size z = 0 := by
  cases z <;> rfl

theorem Resources.add_size (r other : Resources κ) (z : Size) :
    (r.add other).size z = r.size z + other.size z := by
  cases z <;> rfl

theorem Resources.foldl_add_size {α : Type} (part : α → Resources κ) (l : List α)
    (r : Resources κ) (z : Size) : ((l.foldl (fun total a => total.add (part a)) r).size z).toNat =
      ((r.size z).toNat + (l.map fun a => ((part a).size z).toNat).sum) % 2 ^ 64 := by
  induction l generalizing r with
  | nil =>
    have h := (r.size z).toNat_lt
    simp only [List.foldl_nil, List.map_nil, List.sum_nil]
    omega
  | cons a l ih =>
    rw [List.foldl_cons, ih, add_size, UInt64.toNat_add, List.map_cons, List.sum_cons]
    omega

/-- Either some part was too small, and the GPUs are as they were or as a failed
subtraction left them, or every part was subtracted. -/
theorem Resources.subtract_cases (r other : Resources κ) :
    (∃ r' e, r.subtract other = (r', .error e) ∧
      (r'.gpus = r.gpus ∨ r'.gpus = (GPUs.subtract (κ := κ) r.gpus other.gpus).1)) ∨
    ∃ ram disk, subtractSize (κ := κ) .size r.ram other.ram = (ram, .ok ()) ∧
      subtractSize (κ := κ) .size r.disk other.disk = (disk, .ok ()) ∧
      (GPUs.subtract (κ := κ) r.gpus other.gpus).2 = .ok () ∧
      r.subtract other =
        (⟨Cores.sub r.cpu other.cpu, (GPUs.subtract (κ := κ) r.gpus other.gpus).1, ram, disk⟩,
          .ok ()) := by
  unfold subtract
  split
  · exact .inl ⟨_, _, rfl, .inl rfl⟩
  dsimp only
  split
  · exact .inl ⟨_, _, rfl, .inl rfl⟩
  rename_i ram _ hram
  split
  · exact .inl ⟨_, _, rfl, .inl rfl⟩
  rename_i disk _ hdisk
  split
  · next gpus e hgpus => exact .inl ⟨_, _, rfl, .inr (by rw [hgpus])⟩
  · next gpus _ hgpus =>
    exact .inr ⟨ram, disk, hram, hdisk, by rw [hgpus], by rw [hgpus]⟩

theorem Resources.subtract_ok_size {r other : Resources κ} (h : (r.subtract other).2 = .ok ())
    (z : Size) : ((r.subtract other).1.size z).toNat + (other.size z).toNat = (r.size z).toNat := by
  rcases subtract_cases r other with ⟨r', e, heq, _⟩ | ⟨ram, disk, hram, hdisk, _, heq⟩
  · simp [heq] at h
  rw [heq]
  cases z with
  | ram =>
    have hok := subtractSize_ok (congrArg Prod.snd hram)
    rwa [hram] at hok
  | disk =>
    have hok := subtractSize_ok (congrArg Prod.snd hdisk)
    rwa [hdisk] at hok

end Sizes

end DMS.Types
