import DMS.Core.GoMap
import Mathlib.Data.List.Count
import Mathlib.Data.List.Perm.Subperm

/-! # Ordering a graph by levels

Every vertex has a list of the vertices that it depends on. The vertices without
dependencies are the first level; a vertex joins a later one as soon as its last
dependency is processed. A vertex that depends twice on another one counts it twice.
-/

namespace DMS

open List AList

variable {K : Type} [DecidableEq K]

structure Degrees (K : Type) where
  dependentMap : GoMap K (List K)
  inDegree : GoMap K Int

def degree (inDegree : GoMap K Int) (v : K) : Int := (inDegree.lookup v).getD 0

/-- Count the dependencies of each vertex. The error names a vertex and a dependency of it
that is none of the vertices. -/
def countDegrees (vertices : GoMap K (List K)) :
    List (Σ _ : K, List K) → Degrees K → Except (K × K) (Degrees K)
  | [], d => .ok d
  | e :: es, d =>
    match e.2.find? fun dep => dep ∉ vertices with
    | some dep => .error (e.1, dep)
    | none =>
      countDegrees vertices es
        { dependentMap := e.2.foldl (fun m dep => m.push dep e.1) d.dependentMap
          inDegree := d.inDegree.insert e.1 e.2.length }

def release (s : GoMap K Int × List K) (dependent : K) : GoMap K Int × List K :=
  let d := degree s.1 dependent - 1
  (s.1.insert dependent d, if d = 0 then s.2 ++ [dependent] else s.2)

def nextLevel (dependentMap : GoMap K (List K)) (queue : List K) (inDegree : GoMap K Int) :
    GoMap K Int × List K :=
  queue.foldl (fun s service => (dependentMap.list service).foldl release s) (inDegree, [])

def levels (dependentMap : GoMap K (List K)) : Nat → List K → GoMap K Int → List (List K)
  | 0, _, _ => []
  | fuel + 1, queue, inDegree =>
    if queue = [] then []
    else
      let next := nextLevel dependentMap queue inDegree
      queue :: levels dependentMap fuel next.2 next.1

section Counting

theorem degree_release (s : GoMap K Int × List K) (d v : K) :
    degree (release s d).1 v = degree s.1 v - if v = d then 1 else 0 := by
  unfold release degree
  by_cases h : v = d
  · subst h
    simp
  · simp [h, lookup_insert_ne h]

variable {s : GoMap K Int × List K} {vs : GoMap K (List K)}

theorem mem_release {d v} : v ∈ (release s d).2 ↔ v ∈ s.2 ∨ v = d ∧ degree s.1 d = 1 := by
  unfold release
  dsimp only
  split
  · next h =>
    have hone : degree s.1 d = 1 := by omega
    simp [hone]
  have hne : degree s.1 d ≠ 1 := by omega
  simp [hne]

theorem degree_foldl_release (l : List K) (s : GoMap K Int × List K) (v : K) :
    degree (l.foldl release s).1 v = degree s.1 v - l.count v := by
  induction l generalizing s with
  | nil => simp
  | cons d l ih =>
    rw [foldl_cons, ih, degree_release, count_cons]
    by_cases h : v = d
    · subst h
      simp only [if_true, beq_self_eq_true]
      omega
    · have h' : ¬ d = v := fun hd => h hd.symm
      simp [h, h']

theorem mem_foldl_release {l : List K} {v} :
    v ∈ (l.foldl release s).2 ↔ v ∈ s.2 ∨ 1 ≤ degree s.1 v ∧ degree s.1 v ≤ l.count v := by
  induction l generalizing s with
  | nil =>
    have hnone : ¬ (1 ≤ degree s.1 v ∧ degree s.1 v ≤ [].count v) := by
      rw [count_nil]
      omega
    simp only [foldl_nil, hnone, or_false]
  | cons d l ih =>
    rw [foldl_cons, ih, degree_release, count_cons, mem_release]
    by_cases h : v = d
    · subst h
      simp only [if_true, beq_self_eq_true, true_and, or_assoc]
      refine or_congr_right ?_
      omega
    · have h' : ¬ d = v := fun hd => h hd.symm
      simp [h, h']

theorem nodup_foldl_release {l : List K} (hnodup : s.2.Nodup)
    (hdone : ∀ v ∈ s.2, degree s.1 v ≤ 0) : (l.foldl release s).2.Nodup := by
  induction l generalizing s with
  | nil => exact hnodup
  | cons d l ih =>
    refine ih ?_ fun v hv => ?_
    · unfold release
      dsimp only
      split
      · next h =>
        refine nodup_append.mpr ⟨hnodup, nodup_singleton d, ?_⟩
        intro a ha b hb hab
        have hd : a = d := hab.trans (mem_singleton.mp hb)
        have := hdone a ha
        rw [hd] at this
        omega
      · exact hnodup
    rw [degree_release]
    rcases mem_release.mp hv with hv | ⟨rfl, hone⟩
    · have := hdone v hv
      split <;> omega
    · simp only [if_true]
      omega

theorem nextLevel_eq (dependentMap : GoMap K (List K)) (queue : List K) (inDegree : GoMap K Int) :
    nextLevel dependentMap queue inDegree =
      (queue.flatMap dependentMap.list).foldl release (inDegree, []) :=
  foldl_flatMap.symm

theorem count_foldl_push (l : List K) (m : GoMap K (List K)) (v s w : K) :
    ((l.foldl (fun m dep => m.push dep v) m).list s).count w =
      (m.list s).count w + if w = v then l.count s else 0 := by
  induction l generalizing m with
  | nil => simp
  | cons d l ih =>
    rw [foldl_cons, ih, GoMap.list_push, count_cons]
    by_cases hs : s = d
    · subst hs
      by_cases hw : w = v
      · subst hw
        simp only [if_true, count_append, count_singleton_self, beq_self_eq_true]
        omega
      · have hw' : ¬ v = w := fun h => hw h.symm
        simp [hw, hw']
    · have hs' : ¬ d = s := fun h => hs h.symm
      simp [hs, hs']

structure Degrees.Of (vertices : GoMap K (List K)) (d : Degrees K) : Prop where
  dependents : ∀ s v, (d.dependentMap.list s).count v = (vertices.list v).count s
  degrees : ∀ v, degree d.inDegree v = (vertices.list v).length
  keys : ∀ v, v ∈ d.inDegree ↔ v ∈ vertices

theorem countDegrees_cases {es : List (Σ _, List K)}
    {d d'} (hnodup : es.NodupKeys) (h : countDegrees vs es d = .ok d') :
    (∀ e ∈ es, ∀ dep ∈ e.2, dep ∈ vs) ∧ (∀ s v, (d'.dependentMap.list s).count v =
      (d.dependentMap.list s).count v + ((es.dlookup v).getD []).count s) ∧
    (∀ v, degree d'.inDegree v = match es.dlookup v with
      | some deps => deps.length
      | none => degree d.inDegree v) ∧ ∀ v, v ∈ d'.inDegree ↔ v ∈ d.inDegree ∨ v ∈ es.keys := by
  induction es generalizing d with
  | nil =>
    cases h
    simp
  | cons e es ih =>
    obtain ⟨k, deps⟩ := e
    obtain ⟨hout, hrest⟩ := nodupKeys_cons.mp hnodup
    unfold countDegrees at h
    split at h
    · cases h
    rename_i hfind
    obtain ⟨hmem, hcount, hdegree, hkeys⟩ := ih hrest h
    have hnone : es.dlookup k = none := dlookup_eq_none.mpr hout
    refine ⟨?_, fun s v => ?_, fun v => ?_, fun v => ?_⟩
    · intro e he dep hdep
      rcases mem_cons.mp he with rfl | he
      · simpa using find?_eq_none.mp hfind dep hdep
      · exact hmem e he dep hdep
    · rw [hcount, count_foldl_push]
      by_cases hv : v = k
      · subst hv
        simp [hnone]
      · rw [dlookup_cons_ne es ⟨k, deps⟩ hv, if_neg hv, Nat.add_zero]
    · rw [hdegree]
      by_cases hv : v = k
      · subst hv
        simp [hnone, degree]
      · rw [dlookup_cons_ne es ⟨k, deps⟩ hv]
        simp [degree, lookup_insert_ne hv]
    · rw [hkeys, mem_insert, keys_cons, mem_cons]
      tauto

theorem countDegrees_ok_of {es} (d : Degrees K) (hmem : ∀ e ∈ es, ∀ dep ∈ e.2, dep ∈ vs) :
    ∃ d', countDegrees vs es d = .ok d' := by
  induction es generalizing d with
  | nil => exact ⟨d, rfl⟩
  | cons e es ih =>
    unfold countDegrees
    have hfind : (e.2.find? fun dep => dep ∉ vs) = none := by
      refine find?_eq_none.mpr fun dep hdep => ?_
      simpa using hmem e (.head _) dep hdep
    rw [hfind]
    exact ih _ fun e he => hmem e (.tail _ he)

theorem degrees_of_countDegrees {order : RangeOrder}
    {d} (h : countDegrees vs (order.visit vs.entries) ⟨∅, ∅⟩ = .ok d) : d.Of vs := by
  have hperm := order.perm vs.entries
  have hnodup : (order.visit vs.entries).NodupKeys :=
    (perm_nodupKeys hperm).mpr vs.nodupKeys
  have hlookup : ∀ v, (order.visit vs.entries).dlookup v = vs.lookup v :=
    fun v => perm_dlookup v hnodup hperm
  obtain ⟨-, hcount, hdegree, hkeys⟩ := countDegrees_cases hnodup h
  refine ⟨fun s v => ?_, fun v => ?_, fun v => ?_⟩
  · rw [hcount, hlookup]
    simp [GoMap.list]
  · rw [hdegree, hlookup]
    unfold GoMap.list
    cases vs.lookup v <;> simp [degree]
  rw [hkeys]
  have hkeysPerm : (order.visit vs.entries).keys.Perm vs.keys := hperm.map Sigma.fst
  rw [hkeysPerm.mem_iff]
  simp [AList.mem_keys]

end Counting

section Levels

variable {vs dependentMap : GoMap K (List K)}
  (hdep : ∀ s v, (dependentMap.list s).count v = (vs.list v).count s)

/-- The state of the loop between two levels: what was processed, and what waits. -/
structure LevelInv (vertices : GoMap K (List K)) (done queue : List K)
    (inDegree : GoMap K Int) : Prop where
  nodup : (done ++ queue).Nodup
  known : ∀ v ∈ done ++ queue, v ∈ vertices
  degrees : ∀ v, degree inDegree v = (vertices.list v).countP (· ∉ done)
  ready : ∀ v ∈ vertices, v ∈ done ++ queue ↔ ∀ dep ∈ vertices.list v, dep ∈ done

include hdep in
theorem count_flatMap_dependents {queue : List K} (hnodup : queue.Nodup) (v : K) :
    (queue.flatMap dependentMap.list).count v = (vs.list v).countP (· ∈ queue) := by
  induction queue with
  | nil => simp
  | cons s queue ih =>
    obtain ⟨hs, hrest⟩ := nodup_cons.mp hnodup
    rw [flatMap_cons, count_append, ih hrest, hdep]
    generalize vs.list v = deps
    induction deps with
    | nil => rfl
    | cons d deps ihd =>
      simp only [count_cons, countP_cons, mem_cons] at ihd ⊢
      by_cases hd : d = s
      · subst hd
        simp only [beq_self_eq_true, if_true, hs, decide_false, Bool.false_eq_true, if_false,
          true_or, decide_true]
        omega
      · simp only [beq_iff_eq, hd, if_false, false_or]
        omega

theorem countP_split (l done queue : List K) (hdisj : ∀ v ∈ queue, v ∉ done) :
    l.countP (· ∉ done) = l.countP (· ∉ done ++ queue) + l.countP (· ∈ queue) := by
  induction l with
  | nil => rfl
  | cons d l ih =>
    simp only [countP_cons]
    rw [ih]
    by_cases hq : d ∈ queue
    · have hd := hdisj d hq
      simp [hq, hd]
      omega
    by_cases hd : d ∈ done
    · simp [hq, hd]
    · simp [hq, hd]
      omega

section Step

variable {done queue : List K} {inDegree : GoMap K Int} (h : LevelInv vs done queue inDegree)

include h

theorem LevelInv.separate : ∀ v ∈ queue, v ∉ done :=
  fun v hv hd => (nodup_append.mp h.nodup).2.2 v hd v hv rfl

include hdep

theorem LevelInv.degree_next (v : K) : degree (nextLevel dependentMap queue inDegree).1 v =
      (vs.list v).countP (· ∉ done ++ queue) := by
  have hcount := count_flatMap_dependents hdep (nodup_append.mp h.nodup).2.1 v
  have hsplit := countP_split (vs.list v) done queue h.separate
  rw [nextLevel_eq, degree_foldl_release, h.degrees]
  omega

theorem LevelInv.mem_next (v : K) : v ∈ (nextLevel dependentMap queue inDegree).2 ↔
      (∃ dep ∈ vs.list v, dep ∉ done) ∧ ∀ dep ∈ vs.list v, dep ∈ done ++ queue := by
  have hcount := count_flatMap_dependents hdep (nodup_append.mp h.nodup).2.1 v
  have hsplit := countP_split (vs.list v) done queue h.separate
  have hpos : 0 < (vs.list v).countP (· ∉ done) ↔ ∃ dep ∈ vs.list v, dep ∉ done := by
    simp [countP_pos_iff]
  have hzero : (vs.list v).countP (· ∉ done ++ queue) = 0 ↔
      ∀ dep ∈ vs.list v, dep ∈ done ++ queue := by
    rw [countP_eq_zero]
    simp only [decide_eq_true_eq, not_not]
  rw [← hpos, ← hzero, nextLevel_eq, mem_foldl_release, h.degrees]
  simp only [not_mem_nil, false_or]
  omega

theorem LevelInv.step : LevelInv vs (done ++ queue) (nextLevel dependentMap queue inDegree).2
      (nextLevel dependentMap queue inDegree).1 := by
  have hnext := h.mem_next hdep
  refine ⟨?_, ?_, h.degree_next hdep, ?_⟩
  · refine nodup_append.mpr ⟨h.nodup, ?_, ?_⟩
    · rw [nextLevel_eq]
      exact nodup_foldl_release nodup_nil (by simp)
    rintro v hv w hw rfl
    obtain ⟨⟨dep, hdep', hmissing⟩, -⟩ := (hnext v).mp hw
    exact hmissing ((h.ready v (h.known v hv)).mp hv dep hdep')
  · intro v hv
    rcases mem_append.mp hv with hv | hv
    · exact h.known v hv
    · obtain ⟨⟨dep, hdep', -⟩, -⟩ := (hnext v).mp hv
      exact AList.mem_keys.mpr (GoMap.mem_keys_of_mem_list hdep')
  intro v hv
  constructor
  · intro hin dep hdep'
    rcases mem_append.mp hin with hin | hin
    · exact mem_append_left _ ((h.ready v hv).mp hin dep hdep')
    · exact ((hnext v).mp hin).2 dep hdep'
  intro hall
  by_cases hold : ∀ dep ∈ vs.list v, dep ∈ done
  · exact mem_append_left _ ((h.ready v hv).mpr hold)
  · refine mem_append_right _ ((hnext v).mpr ⟨?_, hall⟩)
    simpa using hold

end Step

/-- Every level depends on the levels before it only. -/
def Ordered (vertices : GoMap K (List K)) : List K → List (List K) → Prop
  | _, [] => True
  | done, level :: rest =>
    (∀ v ∈ level, ∀ dep ∈ vertices.list v, dep ∈ done) ∧ Ordered vertices (done ++ level) rest

/-- What the loop has computed when it ends: nothing twice, in order, and as far as the
dependencies go. -/
structure LevelsOf (vertices : GoMap K (List K)) (done : List K) (result : List (List K)) :
    Prop where
  nodup : (done ++ result.flatten).Nodup
  known : ∀ v ∈ done ++ result.flatten, v ∈ vertices
  ordered : Ordered vertices done result
  closed : ∀ v ∈ vertices, (∀ dep ∈ vertices.list v, dep ∈ done ++ result.flatten) →
    v ∈ done ++ result.flatten

theorem LevelInv.length_le {done queue inDegree} (h : LevelInv vs done queue inDegree) :
    done.length + queue.length ≤ vs.keys.length := by
  have hsub : (done ++ queue).Subperm vs.keys :=
    subperm_of_subset h.nodup fun v hv => AList.mem_keys.mp (h.known v hv)
  simpa using hsub.length_le

include hdep in
theorem LevelInv.levelsOf (fuel : Nat) {done queue inDegree}
    (h : LevelInv vs done queue inDegree) (hfuel : vs.keys.length < done.length + fuel) :
    LevelsOf vs done (levels dependentMap fuel queue inDegree) := by
  induction fuel generalizing done queue inDegree with
  | zero =>
    have := h.length_le
    omega
  | succ fuel ih =>
    unfold levels
    split
    · next hempty =>
      subst hempty
      have hnodup := h.nodup
      have hknown := h.known
      have hready := h.ready
      simp only [append_nil] at hnodup hknown hready
      refine ⟨?_, ?_, trivial, ?_⟩
      · simpa using hnodup
      · simpa using hknown
      intro v hv hall
      simp only [flatten_nil, append_nil] at hall ⊢
      exact (hready v hv).mpr hall
    rename_i hne
    have hlen : 0 < queue.length := length_pos_iff.mpr hne
    have hrest := ih (h.step hdep) (by rw [length_append]; omega)
    refine ⟨?_, ?_, ⟨?_, hrest.ordered⟩, ?_⟩
    · rw [flatten_cons, ← append_assoc]
      exact hrest.nodup
    · rw [flatten_cons, ← append_assoc]
      exact hrest.known
    · intro v hv
      have hin : v ∈ done ++ queue := mem_append_right _ hv
      exact (h.ready v (h.known v hin)).mp hin
    · rw [flatten_cons, ← append_assoc]
      exact hrest.closed

theorem LevelsOf.all {r} (h : LevelsOf vs [] r) (hmem : ∀ v ∈ vs, ∀ dep ∈ vs.list v, dep ∈ vs)
    (hacc : ∀ v, Acc (fun a b => a ∈ vs.list b) v) : ∀ v ∈ vs, v ∈ r.flatten := by
  intro v
  induction hacc v with
  | intro v _ ih =>
    intro hv
    exact h.closed v hv fun dep hdep => ih dep hdep (hmem v hv dep hdep)

end Levels

end DMS
