import DMS.Core.Reach
import DMS.Node.AllocationRecords

/-! # The persisted records and the running allocations

When all callbacks have finished, the record of an ensemble is meant to list the allocations that
are `Running`. It does in the runs in which no callback writes what has become stale.
-/

namespace DMS.Node

open Jobs Documents GoMap List AList Option

variable {γ : Type}

def Listed (store : Records γ) (ensembleID allocationID : GoString) : Prop :=
  ∃ i record, (i, record) ∈ store.docs ∧ record.ensembleID = ensembleID ∧
    allocationID ∈ record.allocations

def OnePerEnsemble (store : Records γ) : Prop :=
  ∀ i j x y, (i, x) ∈ store.docs → (j, y) ∈ store.docs → x.ensembleID = y.ensembleID → i = j

def SameListing (x y : EnsembleRecord γ) : Prop :=
  x.ensembleID = y.ensembleID ∧ ∀ id, id ∈ x.allocations ↔ id ∈ y.allocations

/-- Among the records that matter, those that were read are those that are stored now. -/
structure Agree (matters : EnsembleRecord γ → Prop) (read now : Records γ) : Prop where
  stored : ∀ i x, (i, x) ∈ read.docs → matters x →
    ∃ y, (i, y) ∈ now.docs ∧ matters y ∧ SameListing x y
  seen : ∀ i y, (i, y) ∈ now.docs → matters y → ∃ x, (i, x) ∈ read.docs ∧ matters x

/-! ## What the writes list -/

section Writes

variable {now read : Records γ} {record y : EnsembleRecord γ} {k : Nat}

theorem listed_create (e id : GoString) : Listed (now.create record) e id ↔
      Listed now e id ∨ record.ensembleID = e ∧ id ∈ record.allocations := by
  constructor
  · rintro ⟨i, x, hx, he, hid⟩
    rcases mem_create.mp hx with hx | ⟨rfl, rfl⟩
    · exact .inl ⟨i, x, hx, he, hid⟩
    · exact .inr ⟨he, hid⟩
  rintro (⟨i, x, hx, he, hid⟩ | ⟨he, hid⟩)
  · exact ⟨i, x, mem_create.mpr (.inl hx), he, hid⟩
  · exact ⟨now.next, record, mem_create.mpr (.inr ⟨rfl, rfl⟩), he, hid⟩

variable (hone : OnePerEnsemble now)

include hone

theorem OnePerEnsemble.create
    (hnone : ∀ i x, (i, x) ∈ now.docs → x.ensembleID ≠ record.ensembleID) :
    OnePerEnsemble (now.create record) := by
  intro i j x y hx hy heq
  rcases mem_create.mp hx with hold | ⟨rfl, rfl⟩
  · rcases mem_create.mp hy with hold' | ⟨rfl, rfl⟩
    · exact hone i j x y hold hold' heq
    · exact absurd heq (hnone i x hold)
  rcases mem_create.mp hy with hold' | ⟨rfl, rfl⟩
  · exact absurd heq.symm (hnone j y hold')
  · rfl

theorem OnePerEnsemble.update (hy : (k, y) ∈ now.docs) (hsame : record.ensembleID = y.ensembleID) :
    OnePerEnsemble (now.update k record) := by
  have hold {i : Nat} {x : EnsembleRecord γ} (hx : (i, x) ∈ (now.update k record).docs) :
      ∃ x', (i, x') ∈ now.docs ∧ x'.ensembleID = x.ensembleID := by
    rcases mem_update.mp hx with ⟨_, hx⟩ | ⟨rfl, rfl, _⟩
    · exact ⟨x, hx, rfl⟩
    · exact ⟨y, hy, hsame.symm⟩
  intro i j x x' hx hx' heq
  obtain ⟨z, hz, hzx⟩ := hold hx
  obtain ⟨z', hz', hzx'⟩ := hold hx'
  exact hone i j z z' hz hz' (hzx.trans (heq.trans hzx'.symm))

theorem listed_iff_mem (hy : (k, y) ∈ now.docs) (id : GoString) :
    Listed now y.ensembleID id ↔ id ∈ y.allocations := by
  constructor
  · rintro ⟨j, z, hz, hze, hid⟩
    have hjk := hone j k z y hz hy hze
    subst hjk
    rwa [now.eq_of_mem hz hy] at hid
  · exact fun hid => ⟨k, y, hy, rfl, hid⟩

theorem listed_update (hy : (k, y) ∈ now.docs) (hsame : record.ensembleID = y.ensembleID)
    (e id : GoString) : Listed (now.update k record) e id ↔
      if e = y.ensembleID then id ∈ record.allocations else Listed now e id := by
  constructor
  · rintro ⟨i, x, hx, he, hid⟩
    rcases mem_update.mp hx with ⟨hi, hx⟩ | ⟨rfl, rfl, _⟩
    · have hother : e ≠ y.ensembleID := fun heq =>
        hi (hone i k x y hx hy (he.trans heq))
      rw [if_neg hother]
      exact ⟨i, x, hx, he, hid⟩
    · rw [if_pos (he.symm.trans hsame)]
      exact hid
  intro h
  split at h
  · next heq =>
    exact ⟨k, record, mem_update.mpr (.inr ⟨rfl, rfl, y, hy⟩), hsame.trans heq.symm, h⟩
  rename_i hne
  obtain ⟨i, x, hx, he, hid⟩ := h
  have hi : i ≠ k := by
    rintro rfl
    rw [now.eq_of_mem hx hy] at he
    exact hne he.symm
  exact ⟨i, x, mem_update.mpr (.inl ⟨hi, hx⟩), he, hid⟩

theorem OnePerEnsemble.delete (k : Nat) : OnePerEnsemble (now.delete k) := by
  intro i j x y hx hy heq
  exact hone i j x y (mem_delete.mp hx).1 (mem_delete.mp hy).1 heq

theorem listed_delete (hy : (k, y) ∈ now.docs) (e id : GoString) :
    Listed (now.delete k) e id ↔ e ≠ y.ensembleID ∧ Listed now e id := by
  constructor
  · rintro ⟨i, x, hx, he, hid⟩
    obtain ⟨hx, hik⟩ := mem_delete.mp hx
    exact ⟨fun heq => hik (hone i k x y hx hy (he.trans heq)), i, x, hx, he, hid⟩
  rintro ⟨hother, i, x, hx, he, hid⟩
  refine ⟨i, x, mem_delete.mpr ⟨hx, ?_⟩, he, hid⟩
  rintro rfl
  rw [now.eq_of_mem hx hy] at he
  exact hother he.symm

theorem filter_ensemble_cases {e} (hagree : Agree (·.ensembleID = e) read now)
    (order : RangeOrder) : (order.visit read.docs).filter (·.2.ensembleID = e) = [] ∨
      ∃ entry, (order.visit read.docs).filter (·.2.ensembleID = e) = [entry] := by
  have hnodup : ((order.visit read.docs).map Prod.fst).Nodup :=
    ((order.perm read.docs).map Prod.fst).nodup_iff.mpr read.nodup
  have hkeys := hnodup.sublist (filter_sublist (p := (·.2.ensembleID = e)).map Prod.fst)
  have hread (entry : Nat × EnsembleRecord γ)
      (h : entry ∈ (order.visit read.docs).filter (·.2.ensembleID = e)) :
      entry ∈ read.docs ∧ entry.2.ensembleID = e := by
    have hmem := mem_filter.mp h
    exact ⟨order.mem_visit.mp hmem.1, by simpa using hmem.2⟩
  match hfilter : (order.visit read.docs).filter (·.2.ensembleID = e) with
  | [] => exact .inl hfilter
  | [entry] => exact .inr ⟨entry, hfilter⟩
  | first :: second :: rest =>
    rw [hfilter] at hread hkeys
    obtain ⟨hfirst, hfirste⟩ := hread first (.head _)
    obtain ⟨hsecond, hseconde⟩ := hread second (.tail _ (.head _))
    obtain ⟨y, hy, hye, _⟩ := hagree.stored first.1 first.2 hfirst hfirste
    obtain ⟨z, hz, hze, _⟩ := hagree.stored second.1 second.2 hsecond hseconde
    have hsame := hone first.1 second.1 y z hy hz (hye.trans hze.symm)
    exact absurd hsame (by simp at hkeys; exact hkeys.1.1)

theorem save_listed (as : AllocationState γ) (order : RangeOrder)
    (hagree : Agree (·.ensembleID = as.deploymentID) read now) :
    OnePerEnsemble ((saveAllocationsState (order.visit read.docs) as).apply now) ∧
      ∀ e id, Listed ((saveAllocationsState (order.visit read.docs) as).apply now) e id ↔
        Listed now e id ∨ e = as.deploymentID ∧ id = as.allocationID := by
  unfold saveAllocationsState
  rcases filter_ensemble_cases hone hagree order with hnone | ⟨⟨i, x⟩, hsingle⟩
  · rw [hnone]
    have hnew : ∀ i y, (i, y) ∈ now.docs → y.ensembleID ≠ as.deploymentID := by
      intro i y hy heq
      obtain ⟨x, hx, hxe⟩ := hagree.seen i y hy heq
      have hmem : (i, x) ∈ (order.visit read.docs).filter (·.2.ensembleID = as.deploymentID) :=
        mem_filter.mpr ⟨order.mem_visit.mpr hx, by simpa using hxe⟩
      rw [hnone] at hmem
      cases hmem
    refine ⟨hone.create hnew, fun e id => ?_⟩
    refine (listed_create e id).trans (or_congr_right (and_congr eq_comm ?_))
    exact (mem_insert _).trans (or_iff_left (notMem_empty id))
  have hmem : (i, x) ∈ (order.visit read.docs).filter (·.2.ensembleID = as.deploymentID) := by
    rw [hsingle]
    exact mem_singleton_self _
  have hx := mem_filter.mp hmem
  have hxe : x.ensembleID = as.deploymentID := by simpa using hx.2
  obtain ⟨y, hy, hye, hsame⟩ := hagree.stored i x (order.mem_visit.mp hx.1) hxe
  rw [hsingle]
  refine ⟨hone.update hy hsame.1, fun e id => ?_⟩
  show Listed (now.update i { x with
    allocations := x.allocations.insert as.allocationID as }) e id ↔ _
  rw [listed_update hone hy (by exact hsame.1) e id, hye]
  split
  · next he =>
    subst he
    rw [← hye, listed_iff_mem hone hy, ← hsame.2 id]
    simp [mem_insert, or_comm]
  · next he => simp [he]

theorem delete_listed {allocationID}
    (hhome : ∀ e e', Listed now e allocationID → Listed now e' allocationID → e = e')
    (order : RangeOrder) (hagree : Agree (allocationID ∈ ·.allocations) read now) :
    OnePerEnsemble ((deletePersistedAllocationState (order.visit read.docs) allocationID).apply
        now) ∧
      ∀ e id, Listed ((deletePersistedAllocationState (order.visit read.docs) allocationID).apply
        now) e id ↔ Listed now e id ∧ id ≠ allocationID := by
  unfold deletePersistedAllocationState
  cases hfind : (order.visit read.docs).find? (allocationID ∈ ·.2.allocations) with
  | none =>
    have hnone : ∀ e, ¬ Listed now e allocationID := by
      rintro e ⟨i, y, hy, _, hid⟩
      obtain ⟨x, hx, hxid⟩ := hagree.seen i y hy hid
      have hall := find?_eq_none.mp hfind (i, x) (order.mem_visit.mpr hx)
      exact hall (by simpa using hxid)
    refine ⟨hone, fun e id => ?_⟩
    constructor
    · intro hlisted
      refine ⟨hlisted, ?_⟩
      rintro rfl
      exact hnone e hlisted
    · exact fun h => h.1
  | some entry =>
    obtain ⟨i, x⟩ := entry
    have hx := order.mem_visit.mp (mem_of_find?_eq_some hfind)
    have hxid : allocationID ∈ x.allocations := by simpa using find?_some hfind
    obtain ⟨y, hy, hyid, hsame⟩ := hagree.stored i x hx hxid
    have hyhome : Listed now y.ensembleID allocationID := ⟨i, y, hy, rfl, hyid⟩
    have hrecord (id : GoString) : Listed now y.ensembleID id ↔ id ∈ x.allocations :=
      (listed_iff_mem hone hy id).trans (hsame.2 id).symm
    have helsewhere {e id : GoString} (he : e ≠ y.ensembleID) (h : Listed now e id) :
        id ≠ allocationID := by
      rintro rfl
      exact he (hhome e y.ensembleID h hyhome)
    dsimp only
    split
    · next hempty =>
      refine ⟨hone.delete i, fun e id => (listed_delete hone hy e id).trans ?_⟩
      constructor
      · exact fun h => ⟨h.2, helsewhere h.1 h.2⟩
      rintro ⟨hlisted, hne⟩
      refine ⟨?_, hlisted⟩
      rintro rfl
      have hrest : id ∈ x.allocations.erase allocationID :=
        mem_erase.mpr ⟨hne, (hrecord id).mp hlisted⟩
      rw [AList.mem_keys, hempty] at hrest
      cases hrest
    refine ⟨hone.update hy hsame.1, fun e id => ?_⟩
    show Listed (now.update i { x with
      allocations := x.allocations.erase allocationID }) e id ↔ _
    rw [listed_update hone hy (by exact hsame.1) e id]
    split
    · next he =>
      rw [he, hrecord, mem_erase, and_comm]
    · next he => exact ⟨fun h => ⟨h, helsewhere he h⟩, fun h => h.1⟩

end Writes

namespace Callback

def matters (c : Callback γ) (r : Reading γ) (record : EnsembleRecord γ) : Prop :=
  match recorded c.status with
  | none => False
  | some true => record.ensembleID = r.state.deploymentID
  | some false => c.allocID ∈ record.allocations

end Callback

/-- A callback of the allocation that saves or deletes it has not finished. -/
def Outstanding (pending : List (Callback γ)) (allocID : GoString) : Prop :=
  ∃ c ∈ pending, c.allocID = allocID ∧ (recorded c.status).isSome = true

variable {pending : List (Callback γ)} {id : GoString}

variable {c : Callback γ}

theorem outstanding_eraseIdx {k} (hk : pending[k]? = some c) (h : Outstanding pending id) :
    Outstanding (pending.eraseIdx k) id ∨ c.allocID = id ∧ (recorded c.status).isSome = true := by
  obtain ⟨d, hd, hid, hrec⟩ := h
  obtain ⟨j, hj⟩ := mem_iff_getElem?.mp hd
  by_cases hjk : j = k
  · subst hjk
    cases hk.symm.trans hj
    exact .inr ⟨hid, hrec⟩
  · exact .inl ⟨d, mem_eraseIdx_iff_getElem?.mpr ⟨j, hjk, hj⟩, hid, hrec⟩

theorem outstanding_set {k} {d : Callback γ} (hk : pending[k]? = some c)
    (hid : d.allocID = c.allocID) (hstatus : d.status = c.status) (h : Outstanding pending id) :
    Outstanding (pending.set k d) id := by
  rcases outstanding_eraseIdx hk h with ⟨x, hx, hrest⟩ | ⟨hc, hrec⟩
  · obtain ⟨j, hjk, hj⟩ := mem_eraseIdx_iff_getElem?.mp hx
    refine ⟨x, mem_iff_getElem?.mpr ⟨j, ?_⟩, hrest⟩
    rw [getElem?_set_ne (Ne.symm hjk), hj]
  have hlt : k < pending.length := (List.getElem?_eq_some_iff.mp hk).1
  refine ⟨d, mem_iff_getElem?.mpr ⟨k, getElem?_set_self hlt⟩, hid.trans hc, ?_⟩
  rw [hstatus]
  exact hrec

namespace RecordKeeper

/-- The record of each ensemble lists the allocations of it that are `Running`. -/
structure Mirrors (s : RecordKeeper γ) : Prop where
  single : OnePerEnsemble s.store
  listed : ∀ e id, Listed s.store e id ↔
    ∃ t, s.allocations.lookup id = some t ∧ t.deploymentID = e ∧ t.status = .running

def Spared (s : RecordKeeper γ) (k : Nat) (allocID : GoString) : Prop :=
  Outstanding (s.pending.eraseIdx k) allocID ∨ ∀ t, s.allocations.lookup allocID = some t →
      (Listed s.store t.deploymentID allocID ↔ t.lasting = true)

def Newest (s : RecordKeeper γ) (k : Nat) (c : Callback γ) : Prop :=
  Outstanding (s.pending.eraseIdx k) c.allocID ∨
    ∀ t, s.allocations.lookup c.allocID = some t → recorded c.status = some t.lasting

/-- The last callback does not finish while an allocation that was `Running` is neither that nor
ended, as it is when it restarts. -/
def Rested (s : RecordKeeper γ) (k : Nat) : Prop := s.pending.eraseIdx k = [] →
    ∀ id t, s.allocations.lookup id = some t → t.lasting = true → t.status = .running

/-- A callback that stores reads what is still there when it writes, and is not overtaken by a
newer one of its allocation. One that stores nothing is spared. -/
def Orderly (s : RecordKeeper γ) : KeeperStep γ → Prop
  | .change _ _ => True
  | .read k env =>
    ∀ c, s.pending[k]? = some c → c.reading = none →
      if c.reads env then recorded c.status = some true → env.privKey = true
      else ((recorded c.status).isSome = true → s.Spared k c.allocID) ∧ s.Rested k
  | .finish k stored =>
    ∀ c r, s.pending[k]? = some c → c.reading = some r →
      (if stored then Agree (c.matters r) r.store s.store ∧ s.Newest k c
        else s.Spared k c.allocID) ∧ s.Rested k

structure Kept (s : RecordKeeper γ) : Prop where
  single : OnePerEnsemble s.store
  home : ∀ e id, Listed s.store e id → ∃ t, s.allocations.lookup id = some t ∧ t.deploymentID = e
  running : ∀ id t, s.allocations.lookup id = some t → t.status = .running → t.lasting = true
  agreed : ∀ id t, s.allocations.lookup id = some t → ¬ Outstanding s.pending id →
    (Listed s.store t.deploymentID id ↔ t.lasting = true)
  tracked : ∀ c ∈ s.pending, ∃ t, s.allocations.lookup c.allocID = some t
  reading : ∀ c ∈ s.pending, ∀ r, c.reading = some r →
    (recorded c.status).isSome = true ∧ (recorded c.status = some true →
      r.state.allocationID = c.allocID ∧ ∀ t, s.allocations.lookup c.allocID = some t →
        r.state.deploymentID = t.deploymentID)
  rested : s.pending = [] →
    ∀ id t, s.allocations.lookup id = some t → t.lasting = true → t.status = .running

variable {s : RecordKeeper γ}

theorem Kept.mirrors (h : s.Kept) (hnone : s.pending = []) : s.Mirrors := by
  have hagreed (id : GoString) (t : TrackedAllocation) (ht : s.allocations.lookup id = some t) :
      Listed s.store t.deploymentID id ↔ t.status = .running := by
    rw [h.agreed id t ht (by rw [hnone]; rintro ⟨c, hc, _⟩; cases hc)]
    exact ⟨h.rested hnone id t ht, h.running id t ht⟩
  refine ⟨h.single, fun e id => ?_⟩
  constructor
  · intro hlisted
    obtain ⟨t, ht, rfl⟩ := h.home e id hlisted
    exact ⟨t, ht, rfl, (hagreed id t ht).mp hlisted⟩
  · rintro ⟨t, ht, rfl, hrunning⟩
    exact (hagreed id t ht).mpr hrunning

theorem Kept.drop (h : s.Kept) {k} (hk : s.pending[k]? = some c)
    (hspared : (recorded c.status).isSome = true → s.Spared k c.allocID) (hrested : s.Rested k) :
    (s.drop k).Kept where
  single := h.single
  home := h.home
  running := h.running
  agreed := by
    intro id t ht hout
    by_cases hold : Outstanding s.pending id
    · rcases outstanding_eraseIdx hk hold with hnew | ⟨rfl, hrec⟩
      · exact absurd hnew hout
      rcases hspared hrec with hnew | hagreed
      · exact absurd hnew hout
      · exact hagreed t ht
    · exact h.agreed id t ht hold
  tracked := fun d hd => h.tracked d (mem_of_mem_eraseIdx hd)
  reading := fun d hd => h.reading d (mem_of_mem_eraseIdx hd)
  rested := hrested

theorem Kept.change (h : s.Kept) (allocID : GoString)
    (ns : AllocationStatus) : (s.change allocID ns).Kept := by
  unfold RecordKeeper.change
  cases ht : s.allocations.lookup allocID with
  | none => exact h
  | some t =>
    dsimp only
    split
    · exact h
    -- An allocation keeps its ensemble.
    have hdeployment (id : GoString) (t' : TrackedAllocation)
        (ht' : s.allocations.lookup id = some t') :
        ∃ t'', (s.allocations.insert allocID
          ⟨t.deploymentID, ns, (recorded ns).getD t.lasting⟩).lookup id = some t'' ∧
          t''.deploymentID = t'.deploymentID := by
      by_cases hid : id = allocID
      · subst hid
        cases ht.symm.trans ht'
        exact ⟨_, lookup_insert _, rfl⟩
      · exact ⟨t', (lookup_insert_ne hid).trans ht', rfl⟩
    constructor
    · exact h.single
    · intro e id hlisted
      obtain ⟨t', ht', rfl⟩ := h.home e id hlisted
      exact hdeployment id t' ht'
    · intro id t' ht' hrunning
      rcases lookup_insert_cases ht' with ⟨rfl, rfl⟩ | ⟨_, ht'⟩
      · dsimp only at hrunning
        rw [hrunning]
        rfl
      · exact h.running id t' ht' hrunning
    · intro id t' ht' hout
      simp only [Outstanding, mem_append, or_and_right, exists_or, not_or] at hout
      rcases lookup_insert_cases ht' with ⟨rfl, rfl⟩ | ⟨_, ht'⟩
      · have hnone : recorded ns = none := by
          by_contra hsome
          refine hout.2 ⟨_, mem_singleton_self _, rfl, ?_⟩
          exact isSome_iff_ne_none.mpr hsome
        rw [hnone]
        exact h.agreed id t ht hout.1
      · exact h.agreed id t' ht' hout.1
    · intro c hc
      rcases mem_append.mp hc with hc | hc
      · obtain ⟨t', ht'⟩ := h.tracked c hc
        obtain ⟨t'', ht'', _⟩ := hdeployment c.allocID t' ht'
        exact ⟨t'', ht''⟩
      · rw [mem_singleton.mp hc]
        exact ⟨_, lookup_insert _⟩
    · intro c hc r hr
      rcases mem_append.mp hc with hc | hc
      · obtain ⟨hrec, hstate⟩ := h.reading c hc r hr
        refine ⟨hrec, fun hrunning => ⟨(hstate hrunning).1, fun t' ht' => ?_⟩⟩
        rcases lookup_insert_cases ht' with ⟨hid, rfl⟩ | ⟨_, ht'⟩
        · exact (hstate hrunning).2 t (hid ▸ ht)
        · exact (hstate hrunning).2 t' ht'
      · rw [mem_singleton.mp hc] at hr
        cases hr
    · intro hnone
      exact absurd hnone (by simp)

theorem Kept.read [Inhabited γ] (h : s.Kept) (k : Nat) (env : ReadEnv γ)
    (hguard : s.Orderly (.read k env)) : (s.read k env).Kept := by
  unfold RecordKeeper.read
  match hk : s.pending[k]? with
  | none | some ⟨allocID, st, some r⟩ => exact h
  | some ⟨allocID, st, none⟩ =>
    have hguard := hguard _ hk rfl
    dsimp only at hguard ⊢
    split
    · next hreads =>
      rw [if_pos hreads] at hguard
      have hmem : ⟨allocID, st, none⟩ ∈ s.pending := mem_of_getElem? hk
      constructor
      · exact h.single
      · exact h.home
      · exact h.running
      · intro id t ht hout
        exact h.agreed id t ht fun hold => hout (outstanding_set hk rfl rfl hold)
      · intro c hc
        rcases mem_or_eq_of_mem_set hc with hc | rfl
        · exact h.tracked c hc
        · obtain ⟨t, ht⟩ := h.tracked _ hmem
          exact ⟨t, ht⟩
      · intro c hc r hr
        rcases mem_or_eq_of_mem_set hc with hc | rfl
        · exact h.reading c hc r hr
        cases hr
        refine ⟨?_, fun hrunning => ?_⟩
        · unfold Callback.reads at hreads
          cases hrec : recorded st with
          | none => simp [hrec] at hreads
          | some acts => rfl
        rw [persistState, if_pos (hguard hrunning)]
        refine ⟨rfl, fun t ht => ?_⟩
        simp [ht]
      intro hnone
      have hlt : k < s.pending.length := (List.getElem?_eq_some_iff.mp hk).1
      have hlen := congrArg length hnone
      rw [length_set, length_nil] at hlen
      omega
    rename_i hreads
    rw [if_neg hreads] at hguard
    exact h.drop hk hguard.1 hguard.2

theorem Kept.write_listed (h : s.Kept) {r acts} (hc : c ∈ s.pending) (hr : c.reading = some r)
    (hacts : recorded c.status = some acts) (hagree : Agree (c.matters r) r.store s.store) :
    OnePerEnsemble ((c.write r).apply s.store) ∧ ∀ e id, Listed ((c.write r).apply s.store) e id ↔
        if id = c.allocID then
          acts = true ∧ ∃ t, s.allocations.lookup id = some t ∧ t.deploymentID = e
        else Listed s.store e id := by
  obtain ⟨t, ht⟩ := h.tracked c hc
  unfold Callback.matters at hagree
  unfold Callback.write
  rw [hacts] at hagree ⊢
  cases acts with
  | true =>
    obtain ⟨hstate, hdeployment⟩ := (h.reading c hc r hr).2 hacts
    have hsaved := save_listed h.single r.state r.order hagree
    refine ⟨hsaved.1, fun e id => (hsaved.2 e id).trans ?_⟩
    rw [hdeployment t ht, hstate]
    split
    · next hid =>
      subst hid
      rw [ht]
      constructor
      · rintro (hlisted | ⟨rfl, _⟩)
        · obtain ⟨t', ht', he⟩ := h.home e _ hlisted
          exact ⟨rfl, t, rfl, by rw [ht] at ht'; cases ht'; exact he⟩
        · exact ⟨rfl, t, rfl, rfl⟩
      · rintro ⟨_, t', ⟨⟩, rfl⟩
        exact .inr ⟨rfl, rfl⟩
    · next hid => simp [hid]
  | false =>
    have hhome : ∀ e e', Listed s.store e c.allocID → Listed s.store e' c.allocID → e = e' := by
      intro e e' he he'
      obtain ⟨t₁, ht₁, rfl⟩ := h.home e _ he
      obtain ⟨t₂, ht₂, rfl⟩ := h.home e' _ he'
      cases ht₁.symm.trans ht₂
      rfl
    have hdeleted := delete_listed h.single hhome r.order hagree
    refine ⟨hdeleted.1, fun e id => (hdeleted.2 e id).trans ?_⟩
    split <;> next hid => simp [hid]

theorem Kept.finish (h : s.Kept) (k : Nat) (stored : Bool)
    (hguard : s.Orderly (.finish k stored)) : (s.finish k stored).Kept := by
  unfold RecordKeeper.finish
  match hk : s.pending[k]? with
  | none | some ⟨allocID, st, none⟩ => exact h
  | some ⟨allocID, st, some r⟩ =>
    obtain ⟨hwrite, hrested⟩ := hguard _ r hk rfl
    have hmem : ⟨allocID, st, some r⟩ ∈ s.pending := mem_of_getElem? hk
    cases stored with
    | false => exact h.drop hk (fun _ => hwrite) hrested
    | true =>
      obtain ⟨hagree, hnewest⟩ := hwrite
      obtain ⟨acts, hacts⟩ := isSome_iff_exists.mp (h.reading _ hmem r rfl).1
      obtain ⟨hsingle, hlisted⟩ := h.write_listed hmem rfl hacts hagree
      constructor
      · exact hsingle
      · intro e id hl
        have hl := (hlisted e id).mp hl
        split at hl
        · exact hl.2
        · exact h.home e id hl
      · exact h.running
      · intro id t ht hout
        refine (hlisted t.deploymentID id).trans ?_
        split
        · next hid =>
          subst hid
          rcases hnewest with hnew | hnewest
          · exact absurd hnew hout
          have hlasting : acts = t.lasting := some.inj (hacts.symm.trans (hnewest t ht))
          rw [hlasting]
          exact ⟨fun hl => hl.1, fun hl => ⟨hl, t, ht, rfl⟩⟩
        rename_i hid
        refine h.agreed id t ht fun hold => ?_
        rcases outstanding_eraseIdx hk hold with hnew | ⟨hid', _⟩
        · exact hout hnew
        · exact hid hid'.symm
      · exact fun d hd => h.tracked d (mem_of_mem_eraseIdx hd)
      · exact fun d hd => h.reading d (mem_of_mem_eraseIdx hd)
      · exact hrested

theorem Kept.step [Inhabited γ] (h : s.Kept) (turn : KeeperStep γ)
    (hguard : s.Orderly turn) : (s.step turn).Kept := by
  cases turn with
  | change allocID ns => exact h.change allocID ns
  | read k env => exact h.read k env hguard
  | finish k stored => exact h.finish k stored hguard

/-! ## New allocations -/

theorem createAllocStatePersist_empty {store : Records γ} (hone : OnePerEnsemble store)
    (hnone : ∀ e id, ¬ Listed store e id) (ensembleID : GoString) :
    OnePerEnsemble (createAllocStatePersist store ensembleID) ∧
      ∀ e id, ¬ Listed (createAllocStatePersist store ensembleID) e id := by
  unfold createAllocStatePersist
  split
  · next hfilter =>
    have hnew : ∀ i x, (i, x) ∈ store.docs → x.ensembleID ≠ ensembleID := by
      intro i x hx heq
      have hall := filter_eq_nil_iff.mp hfilter (i, x) hx
      exact hall (by simpa using heq)
    refine ⟨hone.create hnew, fun e id hlisted => ?_⟩
    rcases (listed_create e id).mp hlisted with hold | ⟨_, hid⟩
    · exact hnone e id hold
    · exact absurd hid (notMem_empty id)
  · exact ⟨hone, hnone⟩

theorem start_store (ensembles : List GoString) :
    OnePerEnsemble (ensembles.foldl createAllocStatePersist (.empty : Records γ)) ∧
      ∀ e id, ¬ Listed (ensembles.foldl createAllocStatePersist (.empty : Records γ)) e id := by
  refine List.foldlRecOn
    (motive := fun store : Records γ => OnePerEnsemble store ∧ ∀ e id, ¬ Listed store e id)
    ensembles _ ⟨fun i j x y hx => absurd hx not_mem_nil, ?_⟩ ?_
  · rintro e id ⟨i, x, ⟨⟩, _⟩
  · exact fun store h e _ => createAllocStatePersist_empty h.1 h.2 e

theorem start_kept (deployments : GoMap GoString GoString) (ensembles : List GoString) :
    (start deployments ensembles : RecordKeeper γ).Kept := by
  obtain ⟨hone, hnone⟩ := start_store ensembles
  have hlookup (id : GoString) (t : TrackedAllocation)
      (ht : (start deployments ensembles : RecordKeeper γ).allocations.lookup id = some t) :
      t.status = .pending ∧ t.lasting = false := by
    have ht := (lookup_mapValues _ deployments id).symm.trans ht
    obtain ⟨deploymentID, _, rfl⟩ := map_eq_some_iff.mp ht
    exact ⟨rfl, rfl⟩
  constructor
  · exact hone
  · exact fun e id hlisted => absurd hlisted (hnone e id)
  · intro id t ht hrunning
    cases (hlookup id t ht).1.symm.trans hrunning
  · intro id t ht _
    exact iff_of_false (hnone _ id) (by simp [(hlookup id t ht).2])
  · exact fun c hc => absurd hc not_mem_nil
  · exact fun c hc => absurd hc not_mem_nil
  · intro _ id t ht hlasting
    cases (hlookup id t ht).2.symm.trans hlasting

/-- In every orderly run of status changes and callbacks, the records mirror the allocations that
are `Running` whenever no callback is under way. -/
theorem mirrors_of_orderly [Inhabited γ] (deployments : GoMap GoString GoString)
    (ensembles : List GoString) (turns : List (KeeperStep γ))
    (h : Reach.Passes Orderly step (start deployments ensembles) turns) :
    ∀ past, past <+: turns → (past.foldl step (start deployments ensembles)).pending = [] →
      (past.foldl step (start deployments ensembles)).Mirrors := by
  intro past hpast
  have hkept := h.invariant Kept (start_kept deployments ensembles)
    (fun _ turn hkept hguard => hkept.step turn hguard) past hpast
  exact hkept.mirrors

/-! ## A run that keeps the records, and one that loses an allocation -/

theorem agree_self (matters : EnsembleRecord γ → Prop) (store : Records γ) :
    Agree matters store store :=
  ⟨fun _ x hx hm => ⟨x, hx, hm, rfl, fun _ => Iff.rfl⟩, fun _ y hy hm => ⟨y, hy, hm⟩⟩

def sampleKeeper : RecordKeeper Unit :=
  start (((∅ : GoMap GoString GoString).insert (ascii "a") (ascii "e")).insert (ascii "b")
    (ascii "e")) [ascii "e"]

def sampleRead : ReadEnv Unit := ⟨true, true, true, (), true, .stored⟩

def savedRun : List (KeeperStep Unit) :=
  [.change (ascii "a") .running, .read 0 sampleRead, .finish 0 true]

theorem savedRun_orderly : Reach.Passes Orderly step sampleKeeper savedRun := by
  refine ⟨trivial, ?_, ?_, trivial⟩
  · rintro c ⟨⟩ _
    exact fun _ => rfl
  rintro c r ⟨⟩ hr
  cases hr
  refine ⟨⟨agree_self _ _, .inr fun t ht => ?_⟩, fun _ id t ht hlasting => ?_⟩
  · cases ht
    rfl
  rcases lookup_insert_cases ht with ⟨_, rfl⟩ | ⟨_, ht⟩
  · rfl
  have ht := (lookup_mapValues _ _ id).symm.trans ht
  obtain ⟨deploymentID, _, rfl⟩ := map_eq_some_iff.mp ht
  cases hlasting

theorem mirrors_saved :
    (savedRun.foldl step sampleKeeper).pending = [] ∧ (savedRun.foldl step sampleKeeper).Mirrors :=
  ⟨rfl, mirrors_of_orderly _ _ savedRun savedRun_orderly savedRun prefix_rfl rfl⟩

/-- Both allocations run. Their callbacks read the record before either of them writes. -/
def lostUpdate : List (KeeperStep Unit) :=
  [.change (ascii "a") .running, .change (ascii "b") .running, .read 0 sampleRead,
    .read 1 sampleRead, .finish 0 true, .finish 0 true]

/-- All callbacks have finished, and the record does not list the first allocation. -/
theorem running_allocation_not_listed : (lostUpdate.foldl step sampleKeeper).pending = [] ∧
      ((lostUpdate.foldl step sampleKeeper).allocations.lookup (ascii "a")).map (·.status) =
        some .running ∧ ¬ (lostUpdate.foldl step sampleKeeper).Mirrors := by
  refine ⟨rfl, by decide, fun h => ?_⟩
  obtain ⟨i, record, hrecord, _, hid⟩ :=
    (h.listed (ascii "e") (ascii "a")).mpr ⟨⟨ascii "e", .running, true⟩, rfl, rfl, rfl⟩
  cases mem_singleton.mp hrecord
  revert hid
  decide

end RecordKeeper

end DMS.Node
