import DMS.Core.GoMap
import Mathlib.Order.WellFounded

/-! # Searching a graph for cycles

Depth-first search with marks, over a graph that is given by a list of neighbours for
each vertex. The search is bounded by a depth; a bound as large as the graph is enough.
-/

namespace DMS

open List

variable {K : Type} [DecidableEq K]

/-- `a` is a neighbour of `b`. -/
def Neighbour (adjencyList : GoMap K (List K)) (a b : K) : Prop := a ∈ adjencyList.list b

structure Marks (K : Type) where
  visited : List K
  recursionStack : List K

def anyCycle (visit : K → Marks K → Option (Bool × Marks K)) :
    List K → Marks K → Option (Bool × Marks K)
  | [], s => some (false, s)
  | k :: ks, s =>
    match visit k s with
    | none => none
    | some (true, s) => some (true, s)
    | some (false, s) => anyCycle visit ks s

/-- `none` when the bound on the depth is reached. -/
def hasCycle (adjencyList : GoMap K (List K)) : Nat → K → Marks K → Option (Bool × Marks K)
  | 0, _, _ => none
  | depth + 1, node, s =>
    if node ∈ s.recursionStack then some (true, s)
    else if node ∈ s.visited then some (false, s)
    else
      match anyCycle (hasCycle adjencyList depth) (adjencyList.list node)
        ⟨node :: s.visited, node :: s.recursionStack⟩ with
      | some (false, s) =>
        some (false, { s with recursionStack := s.recursionStack.filter (· ≠ node) })
      | result => result

def vertices (adjencyList : GoMap K (List K)) : List K :=
  adjencyList.keys ++ adjencyList.entries.flatMap Sigma.snd

/-- A vertex that was visited before is not searched from. -/
def searchFrom (adjencyList : GoMap K (List K)) : K → Marks K → Option (Bool × Marks K) :=
  fun node s =>
    if node ∈ s.visited then some (false, s)
    else hasCycle adjencyList ((vertices adjencyList).length + 1) node s

def searchCycles (adjencyList : GoMap K (List K)) (order : RangeOrder) : Option Bool :=
  (anyCycle (searchFrom adjencyList) (order.visit adjencyList.keys) ⟨[], []⟩).map Prod.fst

section Sound

variable {g : GoMap K (List K)}

def Marks.Explored (adjencyList : GoMap K (List K)) (s : Marks K) : Prop :=
  ∀ v ∈ s.visited, v ∉ s.recursionStack → Acc (Neighbour adjencyList) v

/-- What a visit without a cycle shows, and what it keeps. -/
def Clear (adjencyList : GoMap K (List K)) (visit : K → Marks K → Option (Bool × Marks K)) : Prop :=
  ∀ k s s', s.Explored adjencyList → visit k s = some (false, s') →
    s'.Explored adjencyList ∧ (∀ x, x ∈ s'.recursionStack ↔ x ∈ s.recursionStack) ∧
      (k ∉ s.recursionStack → Acc (Neighbour adjencyList) k)

theorem anyCycle_clear {visit} (hvisit : Clear g visit) {ks} {s s' : Marks K}
    (hs : s.Explored g) (h : anyCycle visit ks s = some (false, s')) :
    s'.Explored g ∧ (∀ x, x ∈ s'.recursionStack ↔ x ∈ s.recursionStack) ∧
      ∀ k ∈ ks, k ∉ s.recursionStack → Acc (Neighbour g) k := by
  induction ks generalizing s with
  | nil =>
    cases h
    exact ⟨hs, fun _ => Iff.rfl, by simp⟩
  | cons k ks ih =>
    unfold anyCycle at h
    split at h
    · cases h
    · cases h
    rename_i s₁ hk
    obtain ⟨hs₁, hstack₁, hacc⟩ := hvisit k s s₁ hs hk
    obtain ⟨hs', hstack', hrest⟩ := ih hs₁ h
    refine ⟨hs', fun x => (hstack' x).trans (hstack₁ x), ?_⟩
    intro k' hk' hout
    rcases mem_cons.mp hk' with rfl | hk'
    · exact hacc hout
    · exact hrest k' hk' (fun hin => hout ((hstack₁ k').mp hin))

theorem anyCycle_stack {depth ks} {s s' : Marks K}
    (hs : s.Explored g) (hclear : Clear g (hasCycle g depth))
    (h : anyCycle (hasCycle g depth) ks s = some (false, s')) : ∀ k ∈ ks, k ∉ s.recursionStack := by
  induction ks generalizing s with
  | nil => simp
  | cons k ks ih =>
    unfold anyCycle at h
    split at h
    · cases h
    · cases h
    rename_i s₁ hk
    obtain ⟨hs₁, hstack₁, -⟩ := hclear k s s₁ hs hk
    intro k' hk' hin
    rcases mem_cons.mp hk' with rfl | hk'
    · cases depth with
      | zero => cases hk
      | succ depth =>
        unfold hasCycle at hk
        rw [if_pos hin] at hk
        cases hk
    · exact ih hs₁ h k' hk' ((hstack₁ k').mpr hin)

theorem Marks.Explored.push {s : Marks K} (hs : s.Explored g) (k : K) :
    Marks.Explored g ⟨k :: s.visited, k :: s.recursionStack⟩ := by
  intro v hv hout
  have hne : v ≠ k := fun hvk => hout (hvk ▸ (.head _))
  have hv' : v ∈ s.visited := by simpa [hne] using hv
  exact hs v hv' (fun hin => hout (.tail _ hin))

theorem hasCycle_clear (depth : Nat) : Clear g (hasCycle g depth) := by
  induction depth with
  | zero =>
    rintro k s s' _ ⟨⟩
  | succ depth ih =>
    intro k s s' hs h
    unfold hasCycle at h
    split at h
    · cases h
    rename_i hstack
    split at h
    · next hvisited =>
      cases h
      exact ⟨hs, fun _ => Iff.rfl, hs k hvisited⟩
    split at h
    · next s₂ hloop =>
      cases h
      have hs₁ := hs.push k
      obtain ⟨hs₂, hstack₂, hacc⟩ := anyCycle_clear ih hs₁ hloop
      have hk : Acc (Neighbour g) k := by
        refine Acc.intro k fun a ha => hacc a ha ?_
        exact anyCycle_stack hs₁ ih hloop a ha
      refine ⟨?_, ?_, fun _ => hk⟩
      · intro v hv hout
        by_cases hvk : v = k
        · exact hvk ▸ hk
        · exact hs₂ v hv (fun hin => hout (by simp [hin, hvk]))
      intro x
      simp only [mem_filter, hstack₂, mem_cons, ne_eq, decide_not,
        Bool.not_eq_eq_eq_not, Bool.not_true, decide_eq_false_iff_not]
      constructor
      · rintro ⟨rfl | hx, hne⟩
        · exact absurd rfl hne
        · exact hx
      · intro hx
        exact ⟨.inr hx, fun hxk => hstack (hxk ▸ hx)⟩
    · next hother => exact absurd h (hother s')

theorem searchFrom_clear : Clear g (searchFrom g) := by
  intro k s s' hs hk
  unfold searchFrom at hk
  split at hk
  · next hvisited =>
    cases hk
    exact ⟨hs, fun _ => Iff.rfl, hs k hvisited⟩
  · exact hasCycle_clear _ k s s' hs hk

theorem acc_of_searchCycles {order} (h : searchCycles g order = some false)
    (v : K) : Acc (Neighbour g) v := by
  obtain ⟨⟨found, s⟩, hloop, rfl⟩ := Option.map_eq_some_iff.mp h
  have hall := anyCycle_clear searchFrom_clear (fun v hv => by cases hv) hloop
  by_cases hv : v ∈ g.keys
  · exact hall.2.2 v (order.mem_visit.mpr hv) (by simp)
  · refine Acc.intro v fun a ha => ?_
    exact absurd (GoMap.mem_keys_of_mem_list ha) hv

def Cyclic (adjencyList : GoMap K (List K)) : Prop :=
  ∃ v, Relation.TransGen (Neighbour adjencyList) v v

/-- The vertices on the stack lead to the next one. -/
def Marks.LeadTo (adjencyList : GoMap K (List K)) (s : Marks K) (k : K) : Prop :=
  ∀ x ∈ s.recursionStack, Relation.TransGen (Neighbour adjencyList) k x

def Finds (adjencyList : GoMap K (List K)) (visit : K → Marks K → Option (Bool × Marks K)) : Prop :=
  ∀ k s s', s.Explored adjencyList → s.LeadTo adjencyList k → visit k s = some (true, s') →
    Cyclic adjencyList

theorem anyCycle_finds {visit} (hclear : Clear g visit) (hfinds : Finds g visit) {ks}
    {s s' : Marks K} (hs : s.Explored g) (hks : ∀ k ∈ ks, s.LeadTo g k)
    (h : anyCycle visit ks s = some (true, s')) : Cyclic g := by
  induction ks generalizing s with
  | nil => cases h
  | cons k ks ih =>
    unfold anyCycle at h
    split at h
    · cases h
    · next hk => exact hfinds k s _ hs (hks k (.head _)) hk
    rename_i s₁ hk
    obtain ⟨hs₁, hstack, -⟩ := hclear k s s₁ hs hk
    exact ih hs₁ (fun k' hk' x hx => hks k' (.tail _ hk') x ((hstack x).mp hx)) h

theorem hasCycle_finds (depth : Nat) : Finds g (hasCycle g depth) := by
  induction depth with
  | zero =>
    rintro k s s' _ _ ⟨⟩
  | succ depth ih =>
    intro k s s' hs hk h
    unfold hasCycle at h
    split at h
    · next hstack => exact ⟨k, hk k hstack⟩
    split at h
    · cases h
    split at h
    · cases h
    refine anyCycle_finds (hasCycle_clear depth) ih (hs.push k) (fun a ha x hx => ?_) h
    rcases mem_cons.mp hx with rfl | hx
    · exact .single ha
    · exact .head ha (hk x hx)

theorem cyclic_of_searchCycles {order} (h : searchCycles g order = some true) : Cyclic g := by
  obtain ⟨⟨found, s⟩, hloop, rfl⟩ := Option.map_eq_some_iff.mp h
  refine anyCycle_finds searchFrom_clear (fun k s s' hs hk hvisit => ?_)
    (fun v hv => by cases hv) (fun k _ x hx => by cases hx) hloop
  unfold searchFrom at hvisit
  split at hvisit
  · cases hvisit
  · exact hasCycle_finds _ k s s' hs hk hvisit

theorem not_cyclic_of_acc (h : ∀ v, Acc (Neighbour g) v) : ¬ Cyclic g := by
  rintro ⟨v, hv⟩
  exact (WellFounded.intro h).transGen.irrefl.irrefl v hv

end Sound

section Total

variable {g : GoMap K (List K)}

theorem mem_vertices_of_neighbour {a b} (h : Neighbour g a b) : a ∈ vertices g := by
  unfold Neighbour GoMap.list at h
  cases hl : g.lookup b with
  | none => simp [hl] at h
  | some l =>
    rw [hl] at h
    refine mem_append_right _ (mem_flatMap.mpr ⟨⟨b, l⟩, ?_, h⟩)
    exact AList.mem_lookup_iff.mp hl

def Marks.left (adjencyList : GoMap K (List K)) (s : Marks K) : Nat :=
  ((vertices adjencyList).filter fun v => v ∉ s.visited).length

theorem Marks.left_le_of_subset {s s' : Marks K} (h : ∀ v ∈ s.visited, v ∈ s'.visited) :
    s'.left g ≤ s.left g := by
  refine (monotone_filter_right _ fun v hv => ?_).length_le
  simp only [decide_not, Bool.not_eq_eq_eq_not, Bool.not_true, decide_eq_false_iff_not] at hv ⊢
  exact fun hin => hv (h v hin)

theorem Marks.left_lt_of_visit {s : Marks K} {k} (stack : List K)
    (hk : k ∈ vertices g) (hout : k ∉ s.visited) :
    Marks.left g ⟨k :: s.visited, stack⟩ < s.left g := by
  have hsub : ((vertices g).filter fun v => v ∉ k :: s.visited).Sublist
      ((vertices g).filter fun v => v ∉ s.visited) := by
    refine monotone_filter_right _ fun v hv => ?_
    simp only [mem_cons, not_or, decide_eq_true_eq] at hv ⊢
    exact hv.2
  refine lt_of_le_of_ne hsub.length_le fun heq => ?_
  have hsame := hsub.eq_of_length heq
  have hin : k ∈ (vertices g).filter fun v => v ∉ s.visited := by simp [hk, hout]
  rw [← hsame] at hin
  simp at hin

def Ends (adjencyList : GoMap K (List K)) (bound : Nat)
    (visit : K → Marks K → Option (Bool × Marks K)) : Prop :=
  ∀ k s, k ∈ vertices adjencyList → s.left adjencyList < bound →
    ∃ found s', visit k s = some (found, s') ∧ ∀ v ∈ s.visited, v ∈ s'.visited

theorem anyCycle_ends {bound visit} (hvisit : Ends g bound visit) (ks : List K) (s : Marks K)
    (hks : ∀ k ∈ ks, k ∈ vertices g) (hs : s.left g < bound) :
    ∃ found s', anyCycle visit ks s = some (found, s') ∧ ∀ v ∈ s.visited, v ∈ s'.visited := by
  induction ks generalizing s with
  | nil => exact ⟨false, s, rfl, fun _ => id⟩
  | cons k ks ih =>
    obtain ⟨found, s₁, hk, hsub⟩ := hvisit k s (hks k (.head _)) hs
    rw [anyCycle, hk]
    cases found with
    | true => exact ⟨true, s₁, rfl, hsub⟩
    | false =>
      have hlt := lt_of_le_of_lt (Marks.left_le_of_subset hsub) hs
      obtain ⟨found, s', hrest, hsub'⟩ := ih s₁ (fun k hk => hks k (.tail _ hk)) hlt
      exact ⟨found, s', hrest, fun v hv => hsub' v (hsub v hv)⟩

theorem hasCycle_ends (depth : Nat) : Ends g depth (hasCycle g depth) := by
  induction depth with
  | zero =>
    intro k s _ hs
    omega
  | succ depth ih =>
    intro k s hk hs
    unfold hasCycle
    split
    · exact ⟨true, s, rfl, fun _ => id⟩
    split
    · exact ⟨false, s, rfl, fun _ => id⟩
    rename_i hvisited
    have hlt := Marks.left_lt_of_visit (k :: s.recursionStack) hk hvisited
    obtain ⟨found, s', hloop, hsub⟩ := anyCycle_ends ih (g.list k)
      ⟨k :: s.visited, k :: s.recursionStack⟩
      (fun a ha => mem_vertices_of_neighbour ha) (by omega)
    rw [hloop]
    have hkeep : ∀ v ∈ s.visited, v ∈ s'.visited := fun v hv => hsub v (.tail _ hv)
    cases found with
    | true => exact ⟨true, s', rfl, hkeep⟩
    | false => exact ⟨false, _, rfl, hkeep⟩

theorem searchCycles_isSome (order : RangeOrder) : (searchCycles g order).isSome = true := by
  have hsearch : Ends g ((vertices g).length + 1) (searchFrom g) := by
    intro k s hk hs
    unfold searchFrom
    split
    · exact ⟨false, s, rfl, fun _ => id⟩
    · exact hasCycle_ends _ k s hk hs
  have hstart : Marks.left g ⟨[], []⟩ < (vertices g).length + 1 :=
    Nat.lt_succ_of_le (length_filter_le _ _)
  obtain ⟨found, s', hloop, -⟩ := anyCycle_ends hsearch (order.visit g.keys) ⟨[], []⟩
    (fun k hk => mem_append_left _ (order.mem_visit.mp hk)) hstart
  rw [searchCycles, hloop]
  rfl

end Total

def detectCycles (adjencyList : GoMap K (List K)) (order : RangeOrder) : Bool :=
  (searchCycles adjencyList order).get (searchCycles_isSome order)

theorem acc_of_detectCycles {g order}
    (h : detectCycles g order = false) (v : K) : Acc (Neighbour g) v := by
  refine @acc_of_searchCycles K _ g order ?_ v
  rw [← h]
  exact (Option.some_get _).symm

theorem detectCycles_iff {g : GoMap K (List K)} {order : RangeOrder} :
    detectCycles g order = true ↔ Cyclic g := by
  constructor
  · intro h
    refine @cyclic_of_searchCycles K _ g order ?_
    rw [← h]
    exact (Option.some_get _).symm
  intro h
  by_contra hfalse
  exact not_cyclic_of_acc (acc_of_detectCycles (Bool.not_eq_true _ ▸ hfalse)) h

end DMS
