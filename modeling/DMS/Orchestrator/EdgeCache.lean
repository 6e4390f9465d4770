import DMS.Orchestrator.BidRound

/-! # The cache of measured edges

`verifyEdgeConstraints` for one candidate after another with one cache. The key of the cache
names the two peers and not what was measured between them, so the measurements are kept beside
the cache.
-/

namespace DMS.Orchestrator

open Jobs List Option

/-- What `verifyEdgeConstraint` asks for. -/
structure EdgeRequest where
  s : GoString
  t : GoString
  rtt : Nat
  bw : Nat
deriving DecidableEq

def EdgeRequest.key (r : EdgeRequest) : GoString := r.s ++ ascii ":" ++ r.t

def edgeRequest (candidate : Candidate) (cst : EdgeConstraint) : Option EdgeRequest :=
  match candidate.lookup cst.s, candidate.lookup cst.t with
  | some bidS, some bidT => some ⟨bidS.peer, bidT.peer, cst.rtt, cst.bw⟩
  | _, _ => none

def unmeasured (candidate : Candidate) (cache : GoMap GoString Bool)
    (edges : List EdgeConstraint) : List EdgeRequest :=
  edges.filterMap fun cst =>
    (edgeRequest candidate cst).filter fun r => (cache.lookup r.key).isNone

/-- The measurements of one call, which are none when a cached one failed. -/
def measurements (check : Check) (cfg : EnsembleConfig) (candidate : Candidate)
    (cache : GoMap GoString Bool) : List (EdgeRequest × Bool) :=
  match toVerify candidate cache cfg.edges with
  | some (some _) =>
    (unmeasured candidate cache cfg.edges).zipIdx.map fun r => (r.1, check.measure r.2)
  | _ => []

structure Measured where
  cache : GoMap GoString Bool
  made : List (EdgeRequest × Bool)

def Measured.verify (cfg : EnsembleConfig) (m : Measured) (turn : Check × Candidate) : Measured :=
  match verifyEdgeConstraints turn.1 cfg turn.2 m.cache with
  | none => m
  | some (_, cache) => ⟨cache, m.made ++ measurements turn.1 cfg turn.2 m.cache⟩

def measured (cfg : EnsembleConfig) (turns : List (Check × Candidate)) : Measured :=
  turns.foldl (Measured.verify cfg) ⟨∅, []⟩

variable {candidate : Candidate} {cache : GoMap GoString Bool} {cfg : EnsembleConfig}

theorem edgeKey_eq (candidate : Candidate) (cst : EdgeConstraint) :
    edgeKey candidate cst = (edgeRequest candidate cst).map EdgeRequest.key := by
  unfold edgeKey edgeRequest
  cases candidate.lookup cst.s <;> cases candidate.lookup cst.t <;> rfl

theorem toVerify_eq_some {edges keys} (h : toVerify candidate cache edges = some (some keys)) :
    keys = (unmeasured candidate cache edges).map EdgeRequest.key ∧
      ∀ cst ∈ edges, ∃ r, edgeRequest candidate cst = some r ∧
        (cache.lookup r.key = some true ∨ r ∈ unmeasured candidate cache edges) := by
  induction edges generalizing keys with
  | nil => simpa [toVerify, unmeasured] using h.symm
  | cons cst rest ih =>
    rw [toVerify, edgeKey_eq] at h
    cases hr : edgeRequest candidate cst with
    | none => simp [hr] at h
    | some r =>
      rw [hr, map_some] at h
      dsimp only at h
      -- A constraint is known to hold, known to fail, or left to be measured.
      cases hcached : cache.lookup r.key with
      | none =>
        rw [hcached] at h
        obtain ⟨_, hrest, hkeys⟩ := map_eq_some_iff.mp h
        obtain ⟨ks, rfl, rfl⟩ := map_eq_some_iff.mp hkeys
        obtain ⟨rfl, hall⟩ := ih hrest
        have hun : unmeasured candidate cache (cst :: rest) =
            r :: unmeasured candidate cache rest := by
          simp [unmeasured, hr, Option.filter, hcached]
        rw [hun]
        refine ⟨rfl, forall_mem_cons.mpr ⟨⟨r, hr, .inr (.head _)⟩, ?_⟩⟩
        intro cst' hcst
        obtain ⟨r', hr', hor⟩ := hall cst' hcst
        exact ⟨r', hr', hor.imp_right (mem_cons_of_mem r)⟩
      | some ok =>
        rw [hcached] at h
        cases ok with
        | false => simp at h
        | true =>
          have hun : unmeasured candidate cache (cst :: rest) =
              unmeasured candidate cache rest := by
            simp [unmeasured, hr, Option.filter, hcached]
          obtain ⟨hkeys, hall⟩ := ih h
          rw [hun]
          exact ⟨hkeys, forall_mem_cons.mpr ⟨⟨r, hr, .inl hcached⟩, hall⟩⟩

theorem verifyEdgeConstraints_cases {check ok cache'}
    (h : verifyEdgeConstraints check cfg candidate cache = some (ok, cache')) :
    (ok = false ∧ cache' = cache) ∨ ∃ keys, toVerify candidate cache cfg.edges = some (some keys) ∧
      ok = (measurements check cfg candidate cache).all (fun m => m.2) ∧
      cache' = (check.order.visit ((measurements check cfg candidate cache).map
        fun m => (m.1.key, m.2))).foldl (fun cache r => cache.insert r.1 r.2) cache := by
  unfold verifyEdgeConstraints at h
  split at h
  · simp at h
  · simp only [some.injEq, Prod.mk.injEq] at h
    exact .inl ⟨h.1.symm, h.2.symm⟩
  rename_i keys hkeys
  obtain ⟨rfl, rfl⟩ := h
  refine .inr ⟨keys, hkeys, ?_⟩
  rw [measurements, hkeys, (toVerify_eq_some hkeys).1]
  simp [zipIdx_map, Function.comp_def]

theorem measured_of_cached (turns : List (Check × Candidate)) {key}
    (h : (measured cfg turns).cache.lookup key = some true) :
    ∃ r, r.key = key ∧ (r, true) ∈ (measured cfg turns).made := by
  let Known (m : Measured) : Prop := ∀ key, m.cache.lookup key = some true →
    ∃ r, r.key = key ∧ (r, true) ∈ m.made
  refine List.foldlRecOn (motive := Known) turns _ (by simp [Known]) (fun m hm turn _ => ?_) key h
  intro key hkey
  unfold Measured.verify at hkey ⊢
  split at hkey
  · exact hm key hkey
  rename_i ok cache' hverify
  rcases verifyEdgeConstraints_cases hverify with ⟨_, rfl⟩ | ⟨_, _, _, rfl⟩
  · obtain ⟨r, hr, hmade⟩ := hm key hkey
    exact ⟨r, hr, mem_append_left _ hmade⟩
  rcases GoMap.lookup_insertAll_cases hkey with hmem | hold
  · obtain ⟨⟨r, _⟩, hmade, heq⟩ := mem_map.mp (turn.1.order.mem_visit.mp hmem)
    obtain ⟨rfl, rfl⟩ := Prod.mk.inj heq
    exact ⟨r, rfl, mem_append_right _ hmade⟩
  · obtain ⟨r, hr, hmade⟩ := hm key hold
    exact ⟨r, hr, mem_append_left _ hmade⟩

/-- An accepted candidate was measured for each constraint, if what was measured before between
two of its peers is what the constraint asks for. -/
theorem accepted_edges_measured (cfg : EnsembleConfig) (turns : List (Check × Candidate))
    (check : Check) (candidate : Candidate) (cache : GoMap GoString Bool)
    (hsame : ∀ cst ∈ cfg.edges, ∀ r, edgeRequest candidate cst = some r →
      ∀ m ∈ (measured cfg turns).made, m.1.key = r.key → m.1 = r)
    (haccept : verifyEdgeConstraints check cfg candidate (measured cfg turns).cache =
      some (true, cache)) : ∀ cst ∈ cfg.edges, ∃ r, edgeRequest candidate cst = some r ∧
      (r, true) ∈ (measured cfg turns).made ++
        measurements check cfg candidate (measured cfg turns).cache := by
  rcases verifyEdgeConstraints_cases haccept with ⟨hfalse, _⟩ | ⟨keys, hkeys, hall, _⟩
  · simp at hfalse
  intro cst hcst
  obtain ⟨r, hr, hcached | hun⟩ := (toVerify_eq_some hkeys).2 cst hcst
  · obtain ⟨r', hkey, hmade⟩ := measured_of_cached turns hcached
    obtain rfl := hsame cst hcst r hr _ hmade hkey
    exact ⟨r', hr, mem_append_left _ hmade⟩
  refine ⟨r, hr, mem_append_right _ ?_⟩
  have hmade : ∃ ok, (r, ok) ∈ measurements check cfg candidate (measured cfg turns).cache := by
    rw [← zipIdx_map_fst 0 (unmeasured _ _ _)] at hun
    obtain ⟨⟨r, i⟩, hi, rfl⟩ := mem_map.mp hun
    rw [measurements, hkeys]
    exact ⟨_, mem_map_of_mem hi⟩
  obtain ⟨ok, hok⟩ := hmade
  obtain rfl : ok = true := all_eq_true.mp hall.symm _ hok
  exact hok

def sampleEdges (rtts : List Nat) : EnsembleConfig :=
  { sampleEnsemble [("a", "", 0), ("b", "", 0)] [] with
    edges := rtts.map fun rtt => ⟨ascii "a", ascii "b", rtt, 0⟩ }

def samplePair : Candidate :=
  ((∅ : Candidate).insert (ascii "a") (sampleBid "a" "p")).insert (ascii "b") (sampleBid "b" "q")

theorem accepted_edges_one :
    ∃ cache, verifyEdgeConstraints ⟨0, fun _ => false, .stored⟩ (sampleEdges [10]) samplePair
        (measured (sampleEdges [10]) [(⟨0, fun _ => true, .stored⟩, samplePair)]).cache =
          some (true, cache) ∧
      ∀ cst ∈ (sampleEdges [10]).edges, ∃ r, edgeRequest samplePair cst = some r ∧
        (r, true) ∈
          (measured (sampleEdges [10]) [(⟨0, fun _ => true, .stored⟩, samplePair)]).made ++
          measurements ⟨0, fun _ => false, .stored⟩ (sampleEdges [10]) samplePair
            (measured (sampleEdges [10]) [(⟨0, fun _ => true, .stored⟩, samplePair)]).cache :=
  ⟨_, rfl, accepted_edges_measured _ _ _ _ _ (by decide) rfl⟩

/-- Of two constraints on one pair of nodes the first fails and the second is written last. The
same candidate is accepted when it is drawn again. -/
theorem accepted_edge_failed :
    ∃ m, m = measured (sampleEdges [10, 20]) [(⟨0, fun i => i = 1, .stored⟩, samplePair)] ∧
      (verifyEdgeConstraints ⟨0, fun _ => true, .stored⟩ (sampleEdges [10, 20]) samplePair
        m.cache).map Prod.fst = some true ∧
      m.made ++ measurements ⟨0, fun _ => true, .stored⟩ (sampleEdges [10, 20]) samplePair m.cache =
        [(⟨ascii "p", ascii "q", 10, 0⟩, false), (⟨ascii "p", ascii "q", 20, 0⟩, true)] :=
  ⟨_, rfl, by decide, by decide⟩

end DMS.Orchestrator
