import DMS.Resources.GpuCapacity

/-! # What onboarding leaves to the host

`validateCapacity` of `dms/onboarding` compares each size with nine tenths of the machine's. The
product may wrap, but then the bound only gets smaller. GPUs are compared one entry at a time, so
that several entries of one index may take more than there is.
-/

namespace DMS.Types

open Outcome

def validateRange (actual minimum maximum : UInt64) : Except String Unit :=
  if actual < minimum ∨ maximum < actual then .error "out of range" else .ok ()

def GPUs.getWithIndex (gpus : List GPU) (index : Int) : Except String GPU :=
  match gpus.find? fun gpu => gpu.index = index with
  | some gpu => .ok gpu
  | none => .error s!"GPU with index {index} not found"

def GPU.vramInGB (gpu : GPU) : UInt64 := gpu.vram / 1000000000

def convertBytesToGiB (bytes : UInt64) : UInt64 := bytes / 1073741824

/-- The loop of `validateCapacity` over the onboarded GPUs. -/
def validateGPUs (machine : List GPU) : List GPU → Except String Unit
  | [] => .ok ()
  | gpu :: gpus =>
    ((GPUs.getWithIndex machine gpu.index).mapError fun e => s!"could not get find gpu: {e}").bind
      fun selected =>
        let low := selected.vramInGB / 10
        let high := selected.vramInGB * 9 / 10
        let got := gpu.vramInGB
        ((validateRange gpu.vram (selected.vram / 10) (selected.vram * 9 / 10)).mapError fun _ =>
          s!"expected GPU {gpu.index} VRAM to be between {low} and {high}, got {got}").bind
            fun _ => validateGPUs machine gpus

/-- `one` is a single core, and `print` prints a number of cores with `%.0f`. -/
def validateCapacity {κ : Type} [Cores κ] (one : κ) (print : κ → String)
    (onboarded machine : Resources κ) : Except String Unit :=
  let (ram, disk) := (convertBytesToGiB machine.ram, convertBytesToGiB machine.disk)
  if Cores.lt onboarded.cpu one ∨ Cores.lt machine.cpu onboarded.cpu then
    .error s!"cores must be between 1 and {print machine.cpu}"
  else
    ((validateRange onboarded.ram (machine.ram / 10) (machine.ram * 9 / 10)).mapError fun _ =>
      s!"expected RAM to be between {ram / 10} GiB and {ram * 9 / 10} GiB, got {
        convertBytesToGiB onboarded.ram} GiB").bind fun _ =>
    ((validateRange onboarded.disk 1073741824 (machine.disk * 9 / 10)).mapError fun _ =>
      s!"expected Disk to be between 1 GiB and {disk * 9 / 10} GiB, got {
        convertBytesToGiB onboarded.disk} GiB").bind fun _ =>
    validateGPUs machine.gpus onboarded.gpus

theorem le_of_validateRange {a low m : UInt64} (h : validateRange a low (m * 9 / 10) = .ok ()) :
    10 * a.toNat ≤ 9 * m.toNat := by
  have hle := UInt64.not_lt.mp (not_or.mp (ite_error_eq_ok.mp h).1).2
  rw [UInt64.le_iff_toNat_le, UInt64.toNat_div, UInt64.toNat_mul] at hle
  have hwrap := Nat.mod_le (m.toNat * (9 : UInt64).toNat) (2 ^ 64)
  simp only [UInt64.reduceToNat] at hle hwrap
  omega

theorem validateGPUs_eq_ok {machine gpus} : validateGPUs machine gpus = .ok () ↔
    ∀ gpu ∈ gpus, ∃ selected, GPUs.getWithIndex machine gpu.index = .ok selected ∧
      validateRange gpu.vram (selected.vram / 10) (selected.vram * 9 / 10) = .ok () := by
  induction gpus with
  | nil => simp [validateGPUs]
  | cons gpu gpus ih =>
    simp only [validateGPUs, bind_eq_ok, mapError_eq_ok, ← ih, List.forall_mem_cons]
    exact ⟨fun ⟨selected, hfound, _, hrange, hrest⟩ => ⟨⟨selected, hfound, hrange⟩, hrest⟩,
      fun ⟨⟨selected, hfound, hrange⟩, hrest⟩ => ⟨selected, hfound, _, hrange, hrest⟩⟩

/-- The machine's memory on an index. -/
def vramOf (machine : List GPU) (i : Int) : Nat :=
  match GPUs.getWithIndex machine i with
  | .ok gpu => gpu.vram.toNat
  | .error _ => 0

theorem vramOn_of_nodup {gpus : List GPU} (h : (gpus.map GPU.index).Nodup) {gpu}
    (hgpu : gpu ∈ gpus) : vramOn gpu.index gpus = gpu.vram.toNat := by
  induction gpus with
  | nil => cases hgpu
  | cons g gpus ih =>
    obtain ⟨hg, hrest⟩ := List.nodup_cons.mp h
    have hother : ∀ g' ∈ gpus, g'.index ≠ g.index := fun g' hg' heq =>
      hg (heq ▸ List.mem_map_of_mem hg')
    rw [vramOn_cons]
    rcases List.mem_cons.mp hgpu with rfl | hgpu
    · simp [vramOn_eq_zero fun g' hg' hidx => absurd hidx (hother g' hg')]
    · rw [if_neg (hother gpu hgpu).symm, ih hrest hgpu, Nat.zero_add]

theorem vramOn_map (i : Int) (v : UInt64) (l : List Int) :
    vramOn i (l.map fun j => ⟨j, "", v⟩) = v.toNat * l.count i := by
  induction l with
  | nil => rfl
  | cons j l ih =>
    rw [List.map_cons, vramOn_cons, ih, List.count_cons]
    by_cases h : j = i <;> simp [h, Nat.mul_add, Nat.add_comm]

theorem getWithIndex_map {l : List Int} {i} (h : i ∈ l) (v : UInt64) :
    GPUs.getWithIndex (l.map fun j => ⟨j, "", v⟩) i = .ok ⟨i, "", v⟩ := by
  induction l with
  | nil => cases h
  | cons j l ih =>
    by_cases hj : j = i
    · simp [GPUs.getWithIndex, hj]
    · have hrest := ih ((List.mem_cons.mp h).resolve_left (Ne.symm hj))
      simpa [GPUs.getWithIndex, hj] using hrest

/-- The host keeps its share of RAM and disk. It keeps that of its GPUs, whatever their sizes,
exactly when no two entries of the request have the same index. -/
theorem host_share_iff {κ : Type} [Cores κ] (one : κ) (print : κ → String) :
    (∀ r machine : Resources κ, validateCapacity one print r machine = .ok () →
      10 * r.ram.toNat ≤ 9 * machine.ram.toNat ∧ 10 * r.disk.toNat ≤ 9 * machine.disk.toNat) ∧
    ∀ r machine : Resources κ, validateCapacity one print r machine = .ok () →
      ((∀ machine' gpus, gpus.map GPU.index = r.gpus.map GPU.index →
          validateCapacity one print { r with gpus := gpus } machine' = .ok () →
            ∀ i, 10 * vramOn i gpus ≤ 9 * vramOf machine'.gpus i) ↔
        (r.gpus.map GPU.index).Nodup) := by
  simp only [validateCapacity, ite_error_eq_ok, bind_eq_ok, mapError_eq_ok]
  refine ⟨fun r machine ⟨_, _, hram, _, hdisk, _⟩ => ⟨le_of_validateRange hram,
    le_of_validateRange hdisk⟩, fun r machine ⟨hcores, _, hram, _, hdisk, _⟩ => ⟨fun h => ?_, ?_⟩⟩
  · -- every GPU of the machine has a size of 10, and every entry takes 9
    rw [List.nodup_iff_count_le_one]
    intro i
    by_cases hi : i ∈ r.gpus.map GPU.index
    · have hbound := h { machine with gpus := (r.gpus.map GPU.index).map fun j => ⟨j, "", 10⟩ }
        ((r.gpus.map GPU.index).map fun j => ⟨j, "", 9⟩) (by simp) ⟨hcores, _, hram, _, hdisk, ?_⟩ i
      · rw [vramOn_map, vramOf, getWithIndex_map hi] at hbound
        have : 10 * (9 * (r.gpus.map GPU.index).count i) ≤ 9 * 10 := hbound
        omega
      · rw [validateGPUs_eq_ok]
        intro gpu hgpu
        obtain ⟨j, hj, rfl⟩ := List.mem_map.mp hgpu
        exact ⟨_, getWithIndex_map hj 10,
          show validateRange 9 (10 / 10) (10 * 9 / 10) = _ by decide⟩
    · rw [List.count_eq_zero.mpr hi]
      exact Nat.zero_le 1
  · rintro hnodup machine' gpus hindex ⟨-, -, -, -, -, hgpus⟩ i
    rw [← hindex] at hnodup
    by_cases hi : ∃ gpu ∈ gpus, gpu.index = i
    · obtain ⟨gpu, hgpu, rfl⟩ := hi
      obtain ⟨selected, hfound, hrange⟩ := validateGPUs_eq_ok.mp hgpus gpu hgpu
      rw [vramOn_of_nodup hnodup hgpu, vramOf, hfound]
      exact le_of_validateRange hrange
    · rw [vramOn_eq_zero fun gpu hgpu hidx => absurd ⟨gpu, hgpu, hidx⟩ hi]
      exact Nat.zero_le _

/-- A request for a part of two GPUs. -/
theorem two_gpus_share :
    let machine : Resources Hundredths :=
      ⟨⟨100⟩, [⟨0, "gpu", 10⟩, ⟨1, "gpu", 20⟩], 10, 2000000000⟩
    let r : Resources Hundredths := ⟨⟨100⟩, [⟨0, "gpu", 9⟩, ⟨1, "gpu", 18⟩], 9, 1073741824⟩
    validateCapacity ⟨100⟩ (fun c => toString c.count) r machine = .ok () ∧
      10 * r.ram.toNat ≤ 9 * machine.ram.toNat ∧
      ∀ i, 10 * vramOn i r.gpus ≤ 9 * vramOf machine.gpus i := by
  intro machine r
  have haccepted : validateCapacity ⟨100⟩ (fun c => toString c.count) r machine = .ok () := by
    decide
  obtain ⟨hsizes, hgpus⟩ := host_share_iff (⟨100⟩ : Hundredths) fun c => toString c.count
  refine ⟨haccepted, (hsizes r machine haccepted).1, ?_⟩
  exact (hgpus r machine haccepted).mpr (by decide) machine r.gpus rfl haccepted

theorem shared_gpu_overdrawn :
    let machine : Resources Hundredths := ⟨⟨100⟩, [⟨0, "gpu", 10⟩], 10, 2000000000⟩
    let r : Resources Hundredths := ⟨⟨100⟩, [⟨0, "gpu", 9⟩, ⟨0, "gpu", 9⟩], 9, 1073741824⟩
    validateCapacity ⟨100⟩ (fun c => toString c.count) r machine = .ok () ∧
      vramOn 0 r.gpus = 18 ∧ vramOf machine.gpus 0 = 10 := by
  decide

end DMS.Types
