import DMS.Resources.GpuCapacity

/-! # Onboarded resources that are read and updated

`UpdateOnboardedResources`, and queries one after another. An update stores what is left of the
resources after the check that the allocations fit, so that the allocations are subtracted
again from then on. A query subtracts from the GPUs of the store.
-/

namespace DMS.Types

variable {κ : Type}

/-- The request takes no memory from the GPUs. -/
def Spares (gpus request : List GPU) : Prop :=
  ∀ gpu ∈ gpus, asked (GPUs.byIndex request) gpu.index = 0

instance (gpus request : List GPU) : Decidable (Spares gpus request) :=
  inferInstanceAs (Decidable (∀ gpu ∈ _, _ = _))

theorem subtractLoop_of_spares {req gpus} (h : ∀ gpu ∈ gpus, asked req gpu.index = 0) :
    (GPUs.subtractLoop req gpus : Subtracted κ (List GPU)).1 = gpus := by
  induction gpus with
  | nil => rfl
  | cons gpu gpus ih =>
    rcases subtractLoop_cons req gpu gpus with ⟨e, heq⟩ | ⟨vram, hvram, heq⟩
    · rw [heq]
    obtain rfl : vram = gpu.vram := by
      apply UInt64.toNat_inj.mp
      have hnone := h gpu (.head _)
      omega
    rw [heq, ih fun g hg => h g (.tail _ hg)]

theorem spares_of_subtractLoop {req gpus}
    (hok : (GPUs.subtractLoop req gpus : Subtracted κ (List GPU)).2 = .ok ())
    (h : (GPUs.subtractLoop req gpus : Subtracted κ (List GPU)).1 = gpus) :
    ∀ gpu ∈ gpus, asked req gpu.index = 0 := by
  induction gpus with
  | nil => simp
  | cons gpu gpus ih =>
    rcases subtractLoop_cons (κ := κ) req gpu gpus with ⟨e, heq⟩ | ⟨vram, hvram, heq⟩
    · simp [heq] at hok
    rw [heq] at hok h
    obtain ⟨hhead, htail⟩ := List.cons.inj h
    refine List.forall_mem_cons.mpr ⟨?_, ih hok htail⟩
    have hsame : vram = gpu.vram := congrArg GPU.vram hhead
    rw [hsame] at hvram
    omega

variable [Cores κ] {r other : Resources κ}

theorem Resources.subtract_gpus_of_spares (h : Spares r.gpus other.gpus) :
    (r.subtract other).1.gpus = r.gpus := by
  rcases subtract_cases r other with ⟨r', e, heq, hgpus | hgpus⟩ | ⟨ram, disk, _, _, _, heq⟩
  · rw [heq, hgpus]
  · rw [heq, hgpus]
    exact subtractLoop_of_spares h
  · rw [heq]
    exact subtractLoop_of_spares h

/-- Subtracting changes none of the parts. -/
structure Resources.TakesNothing (other r : Resources κ) : Prop where
  cpu : Cores.sub r.cpu other.cpu = r.cpu
  size : ∀ z, other.size z = 0
  gpus : Spares r.gpus other.gpus

theorem Resources.subtract_eq_self_iff (hok : (r.subtract other).2 = .ok ()) :
    (r.subtract other).1 = r ↔ other.TakesNothing r := by
  have hsize := subtract_ok_size hok
  rcases subtract_cases r other with ⟨r', e, heq, _⟩ | ⟨ram, disk, hram, hdisk, hgpus, heq⟩
  · simp [heq] at hok
  constructor
  · intro hsame
    refine ⟨?_, fun z => ?_, ?_⟩
    · rw [heq] at hsame
      exact congrArg Resources.cpu hsame
    · have hz := hsize z
      rw [hsame] at hz
      exact UInt64.toNat_inj.mp (Nat.add_left_cancel (hz.trans (Nat.add_zero _).symm))
    · rw [heq] at hsame
      exact spares_of_subtractLoop hgpus (congrArg Resources.gpus hsame)
  intro h
  have hsame : ∀ z, (r.subtract other).1.size z = r.size z := by
    intro z
    have hz := hsize z
    rw [h.size] at hz
    exact UInt64.toNat_inj.mp hz
  have hspared := subtract_gpus_of_spares h.gpus
  rw [heq] at hsame hspared ⊢
  obtain rfl : ram = r.ram := hsame .ram
  obtain rfl : disk = r.disk := hsame .disk
  exact congrArg₂ (fun cpu gpus => (⟨cpu, gpus, r.ram, r.disk⟩ : Resources κ)) h.cpu hspared

end DMS.Types

namespace DMS.Resources

open DMS.Types

variable {κ : Type} [Cores κ] {s : Store κ} {r : Resources κ} {get : Except String (Resources κ)}

/-- The GPUs of the stored resources are the slice that was given. -/
def Store.updateOnboardedResources (order : RangeOrder) (save : Except String Unit)
    (resources : Resources κ) (s : Store κ) : Store κ × ManagerResult κ Unit :=
  match resources.subtract (s.getTotalAllocation order) with
  | (_, .error e) =>
    -- The text goes on after the error with ". Demand too high".
    (s, .error ((e.lift .underflow).wrap "couldn't subtract allocation"))
  | (resources, .ok _) =>
    match save with
    | .error text =>
      (s, .error ((GoError.new (.repository text)).wrap "failed to update onboarded resources"))
    | .ok _ => ({ s with onboardedResources := some resources }, .ok ())

structure Store.Covered (s : Store κ) (r : Resources κ) : Prop where
  fits : ∀ order, (freeOf r (s.getTotalAllocation order) (s.getTotalCommitted order)).2 = .ok ()
  held_le : ∀ z, s.held (bytes z) ≤ bytes z r

/-- What an update should lead to. -/
structure Store.Balanced (s s' : Store κ) (r : Resources κ) (call : Call κ) : Prop where
  onboarded : (s'.getOnboardedResources call.get).2 = .ok r
  free : ∃ free, (s'.getFreeResources call).2 = .ok free ∧
    ∀ z, bytes z free + s.held (bytes z) = bytes z r
  again : (s'.updateOnboardedResources call.order (.ok ()) r).1 = s'

theorem Store.Covered.update (h : s.Covered r) (order : RangeOrder) :
    (r.subtract (s.getTotalAllocation order)).2 = .ok () ∧
      s.updateOnboardedResources order (.ok ()) r =
        ({ s with onboardedResources := some (r.subtract (s.getTotalAllocation order)).1 },
          .ok ()) := by
  have hfits := h.fits order
  unfold freeOf at hfits
  unfold Store.updateOnboardedResources
  split at hfits
  · simp at hfits
  rename_i free u heq
  rw [heq]
  exact ⟨rfl, rfl⟩

theorem Store.Covered.update_of_takesNothing (h : s.Covered r) {order}
    (hnothing : (s.getTotalAllocation order).TakesNothing r) :
    s.updateOnboardedResources order (.ok ()) r =
      ({ s with onboardedResources := some r }, .ok ()) := by
  obtain ⟨hok, heq⟩ := h.update order
  rw [heq, (Resources.subtract_eq_self_iff hok).mpr hnothing]

theorem freeOf_of_onboards {o} {call : Call κ} (ho : s.Onboards call.get o) :
    (s.getFreeResources call).2 = (freeOf o (s.getTotalAllocation call.order)
      (s.getTotalCommitted call.order)).2.map fun _ =>
        (freeOf o (s.getTotalAllocation call.order) (s.getTotalCommitted call.order)).1 :=
  congrArg Prod.snd (getFreeResources_of_onboards ho)

/-- For resources that cover the entries, the books are balanced after an update exactly when
the allocations take nothing from the resources. -/
theorem update_balanced_iff (h : s.Covered r) :
    (∀ order call, (s.updateOnboardedResources order (.ok ()) r).2 = .ok () ∧
      s.Balanced (s.updateOnboardedResources order (.ok ()) r).1 r call) ↔
    ∀ order, (s.getTotalAllocation order).TakesNothing r := by
  constructor
  · intro hall order
    obtain ⟨hok, heq⟩ := h.update order
    have honboarded := (hall order ⟨.ok r, .ok (), .ok (), .ok (), order⟩).2.onboarded
    rw [heq] at honboarded
    exact (Resources.subtract_eq_self_iff hok).mp (Except.ok.inj honboarded)
  intro hnothing order call
  rw [h.update_of_takesNothing (hnothing order)]
  refine ⟨rfl, rfl, ?_, ?_⟩
  · have hfits := h.fits call.order
    refine ⟨_, (freeOf_of_onboards (.inl rfl)).trans (congrArg (Except.map _) hfits), ?_⟩
    intro z
    have hfree := freeOf_ok hfits z
    rw [getTotalAllocation_size _ (h.held_le z), getTotalCommitted_size _ (h.held_le z)] at hfree
    exact (Nat.add_assoc _ _ _).symm.trans hfree
  · have hcovered : Store.Covered { s with onboardedResources := some r } r := ⟨h.fits, h.held_le⟩
    rw [hcovered.update_of_takesNothing (hnothing call.order)]

/-- A store in which only the commitments take something. -/
def committedOnly : Store Hundredths := Store.new.commit ⟨⟨⟨100⟩, [], 4, 8⟩, ascii "a"⟩

theorem committedOnly_totals (order : RangeOrder) : committedOnly.getTotalAllocation order = .zero ∧
      committedOnly.getTotalCommitted order = ⟨⟨100⟩, [], 4, 8⟩ := by
  unfold Store.getTotalAllocation Store.getTotalCommitted
  constructor
  · rw [(order.perm committedOnly.allocations.entries).eq_nil]
    rfl
  · rw [List.perm_singleton.mp (order.perm committedOnly.committedResources.entries)]
    rfl

theorem update_balanced_committed : committedOnly.Covered sampleOnboarded ∧
    ∀ order call,
      (committedOnly.updateOnboardedResources order (.ok ()) sampleOnboarded).2 = .ok () ∧
      committedOnly.Balanced
        (committedOnly.updateOnboardedResources order (.ok ()) sampleOnboarded).1
        sampleOnboarded call := by
  have hcovered : committedOnly.Covered sampleOnboarded := by
    refine ⟨fun order => ?_, fun z => ?_⟩
    · rw [(committedOnly_totals order).1, (committedOnly_totals order).2]
      rfl
    · cases z <;> decide
  refine ⟨hcovered, (update_balanced_iff hcovered).mpr fun order => ?_⟩
  rw [(committedOnly_totals order).1]
  exact ⟨rfl, fun z => Resources.zero_size z, by decide⟩

/-- Four bytes are allocated. They are missing from the onboarded resources, and twice from the
free ones. -/
theorem update_unbalanced : let s := afterRequests [sampleCommit "a" 4 [], .allocate (ascii "a")]
    let s' := (s.updateOnboardedResources .stored (.ok ()) sampleOnboarded).1
    (s.updateOnboardedResources .stored (.ok ()) sampleOnboarded).2 = .ok () ∧
      sampleOnboarded.ram = 16 ∧
      ((s'.getOnboardedResources sampleCall.get).2.map fun o => o.ram) = .ok 12 ∧
      ((s'.getFreeResources sampleCall).2.map fun free => free.ram) = .ok 8 :=
  ⟨by rfl, by rfl, by rfl, by rfl⟩

inductive Query (κ : Type)
  | free
  | commit (commitment : CommittedResources κ)

def Store.ask (s : Store κ) : Call κ × Query κ → Store κ
  | (call, .free) => (s.getFreeResources call).1
  | (call, .commit commitment) => (s.commitResources call commitment).1

/-- The database gives one answer, a commitment ends in an error, and what it asks for takes no
memory from an onboarded GPU. -/
def Store.Asks (get : Except String (Resources κ)) (s : Store κ) (q : Call κ × Query κ) : Prop :=
  q.1.get = get ∧ ∀ c, q.2 = .commit c → (s.commitResources q.1 c).2 ≠ .ok () ∧
    ∀ o, s.Onboards get o → Spares o.gpus c.resources.gpus

def Store.Spared (get : Except String (Resources κ)) (s : Store κ) : Prop :=
  ∀ o, s.Onboards get o → ∀ order, Spares o.gpus (s.getTotalAllocation order).gpus ∧
    Spares o.gpus (s.getTotalCommitted order).gpus

/-- Only the answer of the database was remembered. -/
def Store.Remembers (get : Except String (Resources κ)) (s s' : Store κ) : Prop :=
  s' = s ∨ ∃ o, s.Onboards get o ∧ s' = { s with onboardedResources := some o }

omit [Cores κ] in
theorem reading_of_gpus {o out : Resources κ} (h : out.gpus = o.gpus) (s : Store κ) :
    s.reading o out.gpus = { s with onboardedResources := some o } := by
  rw [h]
  rfl

theorem ask_remembers {q} (hs : s.Spared get) (hq : s.Asks get q) : s.Remembers get (s.ask q) := by
  obtain ⟨call, query⟩ := q
  obtain ⟨rfl, hcommit⟩ := hq
  have hsame : ∀ {o other : Resources κ}, Spares o.gpus other.gpus →
      ∀ r : Resources κ, r.gpus = o.gpus → (r.subtract other).1.gpus = o.gpus := by
    intro o other hspares r hr
    rw [← hr] at hspares
    exact (Resources.subtract_gpus_of_spares hspares).trans hr
  cases query with
  | free =>
    rcases getFreeResources_cases s call with ⟨e, he⟩ | ⟨o, ho, heq⟩
    · exact .inl (congrArg Prod.fst he)
    refine .inr ⟨o, ho, (congrArg Prod.fst heq).trans (reading_of_gpus ?_ s)⟩
    exact freeOf_invariant (P := fun r => r.gpus = o.gpus) rfl (hsame (hs o ho _).1)
      (hsame (hs o ho _).2)
  | commit c =>
    obtain ⟨herror, hspares⟩ := hcommit c rfl
    have hchecked : s.Remembers call.get (s.checkCapacity call c.resources).1 := by
      rcases checkCapacity_cases s call c.resources with ⟨e, he⟩ | ⟨o, ho, heq⟩
      · exact .inl (congrArg Prod.fst he)
      refine .inr ⟨o, ho, (congrArg Prod.fst heq).trans (reading_of_gpus ?_ s)⟩
      exact assess_invariant (P := fun r => r.gpus = o.gpus) rfl (hsame (hs o ho _).1)
        (hsame (hs o ho _).2) (hsame (hspares o ho))
    show s.Remembers call.get (s.commitResources call c).1
    unfold Store.commitResources at herror ⊢
    split
    · exact .inl rfl
    split
    · exact .inl rfl
    rename_i hid hfresh
    rw [if_neg hid, if_neg hfresh] at herror
    split
    · next heq => rwa [heq] at hchecked
    · next heq => simp [heq] at herror

section Remembers

variable {s' s'' : Store κ} (h : s.Remembers get s')

include h

omit [Cores κ] in
theorem Store.Remembers.onboards {o} : s'.Onboards get o ↔ s.Onboards get o := by
  rcases h with rfl | ⟨o', ho', rfl⟩
  · exact Iff.rfl
  unfold Store.Onboards at ho' ⊢
  rcases ho' with hstored | ⟨hnone, hget⟩
  · simp [hstored]
  · simp [hnone, hget]

omit [Cores κ] in
theorem Store.Remembers.trans (h' : s'.Remembers get s'') : s.Remembers get s'' := by
  rcases h' with rfl | ⟨o, ho, rfl⟩
  · exact h
  · refine .inr ⟨o, h.onboards.mp ho, ?_⟩
    rcases h with rfl | ⟨o', _, rfl⟩ <;> rfl

theorem Store.Remembers.spared (hs : s.Spared get) : s'.Spared get := by
  intro o ho order
  have hspared := hs o (h.onboards.mp ho) order
  rcases h with rfl | ⟨o', _, rfl⟩ <;> exact hspared

theorem Store.Remembers.answers :
    (s'.getOnboardedResources get).2 = (s.getOnboardedResources get).2 ∧ ∀ call, call.get = get →
        (s'.getFreeResources call).2 = (s.getFreeResources call).2 := by
  rcases h with rfl | ⟨o, ho, rfl⟩
  · exact ⟨rfl, fun _ _ => rfl⟩
  constructor
  · rcases ho with hstored | ⟨hnone, rfl⟩
    · simp [Store.getOnboardedResources, hstored]
    · simp [Store.getOnboardedResources, hnone]
  rintro call rfl
  rw [freeOf_of_onboards ho]
  rfl

end Remembers

/-- Queries that take no memory from an onboarded GPU change no answer. -/
theorem queries_consume_nothing {queries : List (Call κ × Query κ)} (hs : s.Spared get)
    (hqueries : Reach.Passes (Store.Asks get) Store.ask s queries) :
    ((queries.foldl Store.ask s).getOnboardedResources get).2 = (s.getOnboardedResources get).2 ∧
      ∀ call, call.get = get →
        ((queries.foldl Store.ask s).getFreeResources call).2 = (s.getFreeResources call).2 := by
  have hrun : s.Remembers get (queries.foldl Store.ask s) := by
    refine hqueries.invariant (s.Remembers get) (.inl rfl) ?_ queries (List.prefix_refl _)
    intro s' q h hq
    exact h.trans (ask_remembers (h.spared hs) hq)
  exact hrun.answers

/-- A query, and a commitment for more memory than is free. -/
def sampleQueries : List (Call Hundredths × Query Hundredths) :=
  [(sampleCall, .free), (sampleCall, .commit ⟨⟨⟨100⟩, [], 14, 8⟩, ascii "b"⟩)]

theorem queries_consume_nothing_twice :
    ((sampleQueries.foldl Store.ask committedOnly).getFreeResources sampleCall).2 =
      (committedOnly.getFreeResources sampleCall).2 := by
  have hspared : committedOnly.Spared sampleCall.get := by
    intro o _ order
    rw [(committedOnly_totals order).1, (committedOnly_totals order).2]
    exact ⟨fun _ _ => rfl, fun _ _ => rfl⟩
  have hpasses :
      Reach.Passes (Store.Asks sampleCall.get) Store.ask committedOnly sampleQueries := by
    refine ⟨⟨rfl, nofun⟩, ⟨rfl, fun c hc => ?_⟩, trivial⟩
    obtain rfl := Query.commit.inj hc
    exact ⟨nofun, fun _ _ _ _ => rfl⟩
  exact (queries_consume_nothing hspared hpasses).2 _ rfl

/-- Seven units of memory are allocated on a GPU with sixteen, and every query takes them from
the onboarded resources. -/
theorem query_consumes :
    let s : Store Hundredths := Store.new.allocate ⟨ascii "a", ⟨⟨100⟩, [⟨0, "", 7⟩], 4, 8⟩⟩
    let s' := s.ask (sampleCall, .free)
    let vram (r : Resources Hundredths) := r.gpus.map GPU.vram
    (s.getOnboardedResources sampleCall.get).2.map vram = .ok [16, 40] ∧
      (s.getFreeResources sampleCall).2.map vram = .ok [9, 40] ∧
      (s'.getOnboardedResources sampleCall.get).2.map vram = .ok [9, 40] ∧
      (s'.getFreeResources sampleCall).2.map vram = .ok [2, 40] :=
  ⟨by rfl, by rfl, by rfl, by rfl⟩

structure OnboardingConfig (κ : Type) where
  isOnboarded : Bool
  onboardedResources : Resources κ

/-- `dms/onboarding/onboarding.go`: the cached configuration, the saved one, the store of the
resource manager, and its saved record of the onboarded resources. -/
structure Onboarding (κ : Type) where
  config : OnboardingConfig κ
  configRepo : Option (OnboardingConfig κ)
  store : Store κ
  resourcesRepo : Option (Resources κ)

structure OnboardingEnv where
  validatePrerequisites : Except String Unit
  order : RangeOrder
  saveResources : Except String Unit
  saveConfig : Except String Unit
  clearConfig : Except String Unit

namespace Onboarding

variable (env : OnboardingEnv) (o : Onboarding κ)

/-- The cached resources, or else the saved record. -/
def onboarded : Option (Resources κ) := o.store.onboardedResources.or o.resourcesRepo

omit [Cores κ] in
theorem getOnboardedResources_eq :
    (o.store.getOnboardedResources (o.resourcesRepo.elim (.error "not found") .ok)).2.toOption =
      o.onboarded := by
  unfold Store.getOnboardedResources onboarded
  cases o.store.onboardedResources with
  | some r => rfl
  | none => cases o.resourcesRepo <;> rfl

def failed (text context : String) : ManagerResult κ Unit :=
  .error ((GoError.new (.repository text)).wrap context)

def assign (resources : Resources κ) : Onboarding κ × ManagerResult κ Unit :=
  match o.store.updateOnboardedResources env.order env.saveResources resources with
  | (_, .error e) => (o, .error e)
  | (store, .ok _) => ({ o with store := store, resourcesRepo := store.onboardedResources }, .ok ())

/-- What is left of some resources when the allocations are subtracted. -/
def left (resources : Resources κ) : Subtracted κ (Resources κ) :=
  resources.subtract (o.store.getTotalAllocation env.order)

def onboard (config : OnboardingConfig κ) : Onboarding κ × ManagerResult κ Unit :=
  match env.validatePrerequisites with
  | .error text => (o, failed text "could not validate onboarding prerequisites")
  | .ok _ =>
    match o.assign env config.onboardedResources with
    | (_, .error e) => (o, .error (e.wrap "could not update onboarded resources"))
    | (o', .ok _) =>
      -- The GPUs are the slice that the allocations were subtracted from.
      let config : OnboardingConfig κ := ⟨true, { config.onboardedResources with
        gpus := (o.left env config.onboardedResources).1.gpus }⟩
      match env.saveConfig with
      | .error text => (o', failed text "could not save onboarding config")
      | .ok _ => ({ o' with config := config, configRepo := some config }, .ok ())

/-- The configuration is cleared from the database. -/
def cleared : Onboarding κ :=
  { o with config := { o.config with isOnboarded := false }, configRepo := none }

/-- `New` calls this too, when what is onboarded is no longer there. -/
def offboard : Onboarding κ × ManagerResult κ Unit :=
  if o.config.isOnboarded = false then (o, .error (.new (.repository "machine is not onboarded")))
  else
    match env.clearConfig with
    | .error text => (o, failed text "failed to clear onboarding config from db")
    | .ok _ =>
      match o.cleared.assign env .zero with
      | (_, .error e) => (o.cleared, .error (e.wrap "could not clear onboarded resources"))
      | (o', .ok _) => (o', .ok ())

structure Same (o' : Onboarding κ) : Prop where
  isOnboarded : o'.config.isOnboarded = o.config.isOnboarded
  configRepo : o'.configRepo = o.configRepo
  onboarded : o'.onboarded = o.onboarded
  resourcesRepo : o'.resourcesRepo = o.resourcesRepo

/-- The resources cover the allocations, and what is left of them can be saved. -/
def Assignable (resources : Resources κ) : Prop :=
  (o.left env resources).2 = .ok () ∧ env.saveResources.isOk = true

theorem assign_of_assignable {r : Resources κ} (h : o.Assignable env r) : o.assign env r =
    ({ o with
        store.onboardedResources := some (o.left env r).1
        resourcesRepo := some (o.left env r).1 }, .ok ()) := by
  obtain ⟨hleft, hsave⟩ := h
  obtain ⟨⟨⟩, hsave⟩ := Outcome.isOk_iff.mp hsave
  unfold assign Store.updateOnboardedResources
  unfold left at hleft ⊢
  generalize r.subtract (o.store.getTotalAllocation env.order) = difference at hleft ⊢
  obtain ⟨rest, result⟩ := difference
  cases hleft
  rw [hsave]

theorem assign_of_not_assignable {r : Resources κ} (h : ¬ o.Assignable env r) :
    ∃ e, o.assign env r = (o, .error e) := by
  unfold Assignable left at h
  unfold assign Store.updateOnboardedResources
  generalize r.subtract (o.store.getTotalAllocation env.order) = difference at h ⊢
  obtain ⟨rest, result⟩ := difference
  cases result with
  | error e => exact ⟨_, rfl⟩
  | ok u =>
    cases hsave : env.saveResources with
    | error text => exact ⟨_, rfl⟩
    | ok u' => exact absurd ⟨rfl, by rw [hsave]; rfl⟩ h

/-- Nothing is allocated that could not be taken from no resources. -/
structure Unused : Prop where
  cpu : Cores.lt Cores.zero (o.store.getTotalAllocation env.order).cpu = false
  ram : (o.store.getTotalAllocation env.order).ram = 0
  disk : (o.store.getTotalAllocation env.order).disk = 0

theorem left_zero_iff : (o.left env .zero).2 = .ok () ↔ o.Unused env := by
  unfold left
  generalize htotal : o.store.getTotalAllocation env.order = total
  have hunused : o.Unused env ↔
      Cores.lt Cores.zero total.cpu = false ∧ total.ram = 0 ∧ total.disk = 0 := by
    subst htotal
    exact ⟨fun h => ⟨h.cpu, h.ram, h.disk⟩, fun ⟨hcpu, hram, hdisk⟩ => ⟨hcpu, hram, hdisk⟩⟩
  have hsize (n : UInt64) : 0 < n ↔ ¬ n = 0 := UInt64.pos_iff_ne_zero
  rw [hunused]
  by_cases hcpu : Cores.lt Cores.zero total.cpu = true
  · simp [Resources.subtract, Resources.zero, hcpu]
  by_cases hram : total.ram = 0
  · by_cases hdisk : total.disk = 0
    · simp [Resources.subtract, Resources.zero, subtractSize, hcpu, hram, hdisk, GPUs.subtract,
        GPUs.subtractLoop]
    · simp [Resources.subtract, Resources.zero, subtractSize, hcpu, hram, hdisk, hsize]
  · simp [Resources.subtract, Resources.zero, subtractSize, hcpu, hram, hsize]

/-- A failed `Onboard` leaves everything as it was exactly when the configuration is not refused
behind an update that changed the onboarded resources, and a failed `Offboard` exactly when the
resources are not kept behind a configuration that was cleared. -/
theorem all_or_nothing_iff (config : OnboardingConfig κ) :
    (((o.onboard env config).2.isOk = false → o.Same (o.onboard env config).1) ↔
      (env.validatePrerequisites.isOk = true → env.saveConfig.isOk = false →
        o.Assignable env config.onboardedResources →
          o.resourcesRepo = some (o.left env config.onboardedResources).1 ∧
            o.onboarded = o.resourcesRepo)) ∧
    (((o.offboard env).2.isOk = false → o.Same (o.offboard env).1) ↔
      (o.config.isOnboarded = true → env.clearConfig.isOk = true →
        o.Unused env ∧ env.saveResources.isOk = true)) := by
  have hsame : o.Same o := ⟨rfl, rfl, rfl, rfl⟩
  constructor
  · unfold onboard
    cases env.validatePrerequisites with
    | error text => exact iff_of_true (fun _ => hsame) nofun
    | ok _ =>
      by_cases hassign : o.Assignable env config.onboardedResources
      · rw [o.assign_of_assignable env hassign]
        cases env.saveConfig with
        | error text =>
          constructor
          · intro h _ _ _
            have hafter := h rfl
            exact ⟨hafter.resourcesRepo.symm, hafter.onboarded.symm.trans hafter.resourcesRepo⟩
          · rintro h -
            obtain ⟨hrepo, honboarded⟩ := h rfl rfl hassign
            exact ⟨rfl, rfl, (honboarded.trans hrepo).symm, hrepo.symm⟩
        | ok _ => exact iff_of_true nofun fun _ => nofun
      · obtain ⟨e, herror⟩ := o.assign_of_not_assignable env hassign
        rw [herror]
        exact iff_of_true (fun _ => hsame) fun _ _ h => absurd h hassign
  unfold offboard
  split
  · next hoff => exact iff_of_true (fun _ => hsame) fun hon => by simp [hoff] at hon
  rename_i hon
  cases env.clearConfig with
  | error text => exact iff_of_true (fun _ => hsame) fun _ => nofun
  | ok _ =>
    have hassignable : o.cleared.Assignable env .zero ↔
        o.Unused env ∧ env.saveResources.isOk = true :=
      and_congr_left' (o.left_zero_iff env)
    by_cases hassign : o.cleared.Assignable env .zero
    · rw [o.cleared.assign_of_assignable env hassign]
      exact iff_of_true nofun fun _ _ => hassignable.mp hassign
    · obtain ⟨e, herror⟩ := o.cleared.assign_of_not_assignable env hassign
      rw [herror]
      refine iff_of_false (fun h => hon (h rfl).isOnboarded.symm) fun h => ?_
      exact hassign (hassignable.mpr (h (by simpa using hon) rfl))

/-- The configuration is not saved after the resources were onboarded, and the resources are not
cleared after the configuration was. -/
theorem failed_writes_not_undone :
    let blank : Onboarding Hundredths := ⟨⟨false, .zero⟩, none, .new, none⟩
    let config : OnboardingConfig Hundredths := ⟨false, sampleOnboarded⟩
    let env : OnboardingEnv := ⟨.ok (), .stored, .ok (), .error "disk", .ok ()⟩
    let half := blank.onboard env config
    let on := (blank.onboard { env with saveConfig := .ok () } config).1
    let off := on.offboard { env with saveResources := .error "disk" }
    (half.2.isOk = false ∧ half.1.config.isOnboarded = false ∧
      blank.onboarded = none ∧ half.1.onboarded = some sampleOnboarded) ∧
    off.2.isOk = false ∧ off.1.config.isOnboarded = false ∧ off.1.configRepo = none ∧
      off.1.onboarded = some sampleOnboarded :=
  ⟨⟨by rfl, by rfl, by rfl, by rfl⟩, by rfl, by rfl, by rfl, by rfl⟩

end Onboarding

end DMS.Resources
