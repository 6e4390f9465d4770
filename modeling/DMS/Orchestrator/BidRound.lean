import DMS.Orchestrator.Bid

/-! # What a successful round yields

The invariant of the collected bids, and from it what a candidate looks like. A peer that no node
asks for has at most one bid in all the lists, and is excluded as long as it has one; a peer that a
node asks for has bids for this node only.
-/

namespace DMS.Orchestrator

open Jobs GoMap List AList

/-! ## The collected bids -/

structure Collected.Sound (cfg : EnsembleConfig) (targets : GoMap GoString GoString)
    (candidates : Candidate) (s : Collected) : Prop where
  offered : ∀ n, ∀ b ∈ s.bidMap.list n,
    (b ∈ s.received ∧ b.nodeID = n) ∨ candidates.lookup n = some b
  targeted : ∀ n, ∀ b ∈ s.bidMap.list n, ∀ m, targets.lookup b.peer = some m → m = n
  excluded : ∀ n, ∀ b ∈ s.bidMap.list n, targets.lookup b.peer = none → b.peer ∈ s.peerExclusion
  named : ∀ n, ∀ b ∈ s.bidMap.list n, targets.lookup b.peer = none → b.nodeID = n
  across : ∀ n m, ∀ b ∈ s.bidMap.list n, ∀ b' ∈ s.bidMap.list m, b.peer = b'.peer →
    targets.lookup b.peer = none → n = m
  once : ∀ n peer, targets.lookup peer = none →
    (s.bidMap.list n).countP (fun b => b.peer = peer) ≤ 1
  keys : ∀ n ∈ s.bidMap, n ∈ cfg.nodes ∨ ∃ b ∈ s.added, b.nodeID = n
  kept : ∀ b ∈ s.added, b.nodeID ∈ s.bidMap

/-- Bids were dropped or shuffled: no list got a new bid, and no key got lost. -/
structure Collected.Shrinks (s s' : Collected) : Prop where
  subperm : ∀ n, (s'.bidMap.list n).Subperm (s.bidMap.list n)
  mem : ∀ n, n ∈ s'.bidMap ↔ n ∈ s.bidMap
  received : s'.received = s.received
  added : s'.added = s.added

namespace Collected

variable {cfg : EnsembleConfig} {ts : GoMap GoString GoString} {cs : Candidate}
  {s s' : Collected}

theorem Shrinks.refl (s : Collected) : s.Shrinks s :=
  ⟨fun _ => List.Subperm.refl _, fun _ => .rfl, rfl, rfl⟩

theorem Shrinks.trans {s''} (h : s.Shrinks s') (h' : s'.Shrinks s'') : s.Shrinks s'' :=
  ⟨fun n => (h'.subperm n).trans (h.subperm n), fun n => (h'.mem n).trans (h.mem n),
    h'.received.trans h.received, h'.added.trans h.added⟩

theorem Sound.shrink (h : s.Sound cfg ts cs) (hs : s.Shrinks s')
    (hexcluded : ∀ n, ∀ b ∈ s'.bidMap.list n, ts.lookup b.peer = none →
      b.peer ∈ s'.peerExclusion) : s'.Sound cfg ts cs where
  offered n b hb := by
    rw [hs.received]
    exact h.offered n b ((hs.subperm n).subset hb)
  targeted n b hb := h.targeted n b ((hs.subperm n).subset hb)
  excluded := hexcluded
  named n b hb := h.named n b ((hs.subperm n).subset hb)
  across n m b hb b' hb' := h.across n m b ((hs.subperm n).subset hb) b' ((hs.subperm m).subset hb')
  once n peer hpeer := le_trans ((hs.subperm n).countP_le _) (h.once n peer hpeer)
  keys n hn := by
    rw [hs.added]
    exact h.keys n ((hs.mem n).mp hn)
  kept b hb := (hs.mem b.nodeID).mpr (h.kept b (hs.added ▸ hb))

end Collected

section Collecting

variable {c : Coordinator} {cfg : EnsembleConfig} {ts : GoMap GoString GoString}
  {cs : Candidate} {s : Collected}

variable {bid : Bid} {n : GoString}

theorem admissible_peer (h : admissible c cfg ts bid s = true) :
    bid.peer ∉ s.peerExclusion ∧ ∀ m, ts.lookup bid.peer = some m → m = bid.nodeID := by
  unfold admissible at h
  simp only [Bool.and_eq_true, decide_eq_true_eq] at h
  refine ⟨h.1.1.1.1.2, ?_⟩
  intro m hm
  have htarget := h.1.1.1.1.1
  rw [hm] at htarget
  simpa using htarget

theorem Collected.Sound.fresh (h : s.Sound cfg ts cs)
    (hadmissible : admissible c cfg ts bid s = true) (hnone : ts.lookup bid.peer = none)
    (n : GoString) : ∀ b ∈ s.bidMap.list n, b.peer ≠ bid.peer := by
  intro b hb hpeer
  apply (admissible_peer hadmissible).1
  rw [← hpeer]
  exact h.excluded n b hb (hpeer ▸ hnone)

theorem Collected.Sound.addBid (h : s.Sound cfg ts cs) (hreceived : bid ∈ s.received) :
    (addBid c cfg ts bid s).1.Sound cfg ts cs := by
  unfold Orchestrator.addBid
  split
  · next hadmissible =>
    obtain ⟨_, htarget⟩ := admissible_peer hadmissible
    have hfresh := fun hnone => h.fresh hadmissible hnone
    refine ⟨?_, ?_, ?_, ?_, ?_, ?_, ?_, ?_⟩
    · exact forall_list_push h.offered (.inl ⟨hreceived, rfl⟩)
    · exact forall_list_push h.targeted htarget
    · exact forall_list_push
        (fun n b hb hnone => Finset.mem_insert_of_mem (h.excluded n b hb hnone))
        fun _ => Finset.mem_insert_self ..
    · exact forall_list_push h.named fun _ => rfl
    · intro n m b hb b' hb' hpeer hnone
      rcases mem_list_push.mp hb with hold | ⟨hnew, hn⟩
      · rcases mem_list_push.mp hb' with hold' | ⟨hnew', _⟩
        · exact h.across n m b hold b' hold' hpeer hnone
        · rw [hnew'] at hpeer
          exact absurd hpeer (hfresh (hpeer ▸ hnone) n b hold)
      rcases mem_list_push.mp hb' with hold' | ⟨_, hm⟩
      · rw [hnew] at hpeer hnone
        exact absurd hpeer.symm (hfresh hnone m b' hold')
      · rw [hn, hm]
    · intro n peer hnone
      simp only [list_push]
      split
      · by_cases hpeer : bid.peer = peer
        · subst hpeer
          have hzero : (s.bidMap.list bid.nodeID).countP (fun b => b.peer = bid.peer) = 0 := by
            simpa using hfresh hnone bid.nodeID
          simp [hzero]
        · simpa [hpeer] using h.once bid.nodeID peer hnone
      · exact h.once n peer hnone
    · intro n hn
      rcases mem_push.mp hn with rfl | hn
      · exact .inr ⟨bid, .head _, rfl⟩
      rcases h.keys n hn with hnode | ⟨b, hb, heq⟩
      · exact .inl hnode
      · exact .inr ⟨b, .tail _ hb, heq⟩
    intro b hb
    rcases mem_cons.mp hb with rfl | hb
    · exact mem_push.mpr (.inl rfl)
    · exact mem_push.mpr (.inr (h.kept b hb))
  · exact h

theorem Collected.Sound.hear (h : s.Sound cfg ts cs) (bid : Bid) :
    Collected.Sound cfg ts cs { s with received := bid :: s.received } where
  offered n b hb := (h.offered n b hb).imp (fun hb => ⟨.tail _ hb.1, hb.2⟩) id
  targeted := h.targeted
  excluded := h.excluded
  named := h.named
  across := h.across
  once := h.once
  keys := h.keys
  kept := h.kept

/-- One turn of the loop of `collectBids`. -/
def receive (c : Coordinator) (cfg : EnsembleConfig) (targets : GoMap GoString GoString)
    (bid : Bid) (s : Collected) : Collected :=
  let s := { s with received := bid :: s.received }
  if !c.validate bid || bid.ensembleID ≠ c.eid then s else (addBid c cfg targets bid s).1

theorem Collected.Sound.receive (h : s.Sound cfg ts cs) (bid : Bid) :
    (receive c cfg ts bid s).Sound cfg ts cs := by
  unfold Orchestrator.receive
  split
  · exact h.hear bid
  · exact (h.hear bid).addBid (.head _)

theorem collectBids_invariant {P : Collected → Prop}
    (hreceive : ∀ bid s, P s → P (receive c cfg ts bid s)) (maxBids : Int) (bids : List Bid)
    (bidCount : Int) (h : P s) : P (collectBids c cfg ts maxBids bids bidCount s) := by
  induction bids generalizing bidCount s with
  | nil => exact h
  | cons bid rest ih =>
    have hturn := hreceive bid s h
    unfold receive at hturn
    unfold collectBids
    dsimp only at hturn ⊢
    split
    · next hbad =>
      rw [if_pos hbad] at hturn
      exact ih bidCount hturn
    rename_i hgood
    rw [if_neg hgood] at hturn
    split
    · next s' heq =>
      rw [heq] at hturn
      exact ih bidCount hturn
    rename_i s' heq
    rw [heq] at hturn
    split
    · exact hturn
    · exact ih (bidCount + 1) hturn

/-! ## Dropping -/

theorem rmBid_shrinks (bid : Bid) (s : Collected) : s.Shrinks (rmBid bid s) := by
  unfold rmBid
  dsimp only
  split
  · exact ⟨fun _ => List.Subperm.refl _, fun _ => .rfl, rfl, rfl⟩
  rename_i i hi
  refine ⟨?_, ?_, rfl, rfl⟩
  · intro n
    simp only [list_insert]
    split
    · next hn =>
      subst hn
      exact (eraseIdx_sublist ..).subperm
    · exact List.Subperm.refl _
  intro n
  rw [mem_insert]
  refine or_iff_right_of_imp ?_
  intro hn
  obtain ⟨hlt, _⟩ := findIdx?_eq_some_iff_getElem.mp hi
  exact hn ▸ mem_keys_of_mem_list (getElem_mem hlt)

theorem rmBid_peerExclusion (bid : Bid) (s : Collected) :
    (rmBid bid s).peerExclusion = s.peerExclusion.erase bid.peer := by
  unfold rmBid
  dsimp only
  split <;> rfl

theorem rmBid_gone (honce : (s.bidMap.list bid.nodeID).countP (fun b => b.peer = bid.peer) ≤ 1) :
    ∀ b ∈ (rmBid bid s).bidMap.list bid.nodeID, b.peer ≠ bid.peer := by
  unfold rmBid
  dsimp only
  split
  · next hnone =>
    intro b hb
    simpa using findIdx?_eq_none_iff.mp hnone b hb
  rename_i i hi
  obtain ⟨hlt, hpeer, _⟩ := findIdx?_eq_some_iff_getElem.mp hi
  rw [list_insert, if_pos rfl]
  have hcount : ((s.bidMap.list bid.nodeID).eraseIdx i).countP (fun b => b.peer = bid.peer) =
      0 := by
    rw [← take_append_drop i (s.bidMap.list bid.nodeID), drop_eq_getElem_cons hlt,
      countP_append, countP_cons, if_pos hpeer] at honce
    rw [eraseIdx_eq_take_drop_succ, countP_append]
    omega
  intro b hb
  simpa using countP_eq_zero.mp hcount b hb

def Collected.Known (targets : GoMap GoString GoString) (n : GoString) (s : Collected)
    (bid : Bid) : Prop :=
  targets.lookup bid.peer = none →
    bid.nodeID = n ∧ ∀ m, ∀ b ∈ s.bidMap.list m, b.peer = bid.peer → m = n

theorem Collected.Sound.known (h : s.Sound cfg ts cs)
    (hbid : bid ∈ s.bidMap.list n) : s.Known ts n bid := by
  intro hnone
  refine ⟨h.named n bid hbid hnone, ?_⟩
  intro m b hb hpeer
  exact h.across m n b hb bid hbid hpeer (hpeer ▸ hnone)

theorem Collected.Known.shrink {s'}
    (h : s.Known ts n bid) (hs : s.Shrinks s') : s'.Known ts n bid := by
  intro hnone
  obtain ⟨hnode, honly⟩ := h hnone
  exact ⟨hnode, fun m b hb => honly m b ((hs.subperm m).subset hb)⟩

theorem Collected.Sound.rmBid (h : s.Sound cfg ts cs)
    (hknown : s.Known ts n bid) : (rmBid bid s).Sound cfg ts cs := by
  have hs := rmBid_shrinks bid s
  refine h.shrink hs ?_
  intro m b hb hnone
  rw [rmBid_peerExclusion]
  by_cases hpeer : b.peer = bid.peer
  · have hnone' : ts.lookup bid.peer = none := hpeer ▸ hnone
    obtain ⟨hnode, honly⟩ := hknown hnone'
    have hm : m = bid.nodeID := (honly m b ((hs.subperm m).subset hb) hpeer).trans hnode.symm
    subst hm
    exact absurd hpeer (rmBid_gone (h.once _ _ hnone') b hb)
  · exact Finset.mem_erase.mpr ⟨hpeer, h.excluded m b ((hs.subperm m).subset hb) hnone⟩

theorem dropLoop_sound (n : GoString) (size fuel i : Nat) (backing : List Bid)
    (h : s.Sound cfg ts cs) (hbacking : ∀ bid ∈ backing, s.Known ts n bid) :
    (dropLoop n size fuel i backing s).Sound cfg ts cs := by
  induction fuel generalizing i backing s with
  | zero => exact h
  | succ fuel ih =>
    unfold dropLoop
    split
    · exact h
    rename_i bid hbid
    split
    · have hsound := h.rmBid (hbacking bid (mem_of_getElem? hbid))
      have hrest : ∀ b ∈ overwrite ((Orchestrator.rmBid bid s).bidMap.list n) backing,
          (Orchestrator.rmBid bid s).Known ts n b := by
        intro b hb
        rcases mem_append.mp hb with hb | hb
        · exact hsound.known hb
        · exact (hbacking b (mem_of_mem_drop hb)).shrink (rmBid_shrinks bid s)
      exact ih (i + 1) _ hsound hrest
    · exact ih (i + 1) backing h hbacking

theorem shuffle_shrinks {bids : List Bid} (hperm : bids.Perm (s.bidMap.list n))
    (hne : s.bidMap.list n ≠ []) : s.Shrinks { s with bidMap := s.bidMap.insert n bids } := by
  refine ⟨?_, ?_, rfl, rfl⟩
  · intro m
    simp only [list_insert]
    split
    · next hm => exact hm ▸ hperm.subperm
    · exact List.Subperm.refl _
  intro m
  rw [mem_insert]
  refine or_iff_right_of_imp ?_
  intro hm
  obtain ⟨b, hb⟩ := exists_mem_of_ne_nil _ hne
  exact hm ▸ mem_keys_of_mem_list hb

theorem dropBids_sound (r : Residual) (keys : List GoString) {s'}
    (h : s.Sound cfg ts cs) (heq : dropBids r keys s = some s') : s'.Sound cfg ts cs := by
  induction keys generalizing s with
  | nil =>
    rw [dropBids, Option.some.injEq] at heq
    exact heq ▸ h
  | cons n rest ih =>
    unfold dropBids at heq
    dsimp only at heq
    split at heq
    · simp at heq
    rename_i hne
    have hshuffled := shuffle_shrinks ((r.shuffle n).perm (s.bidMap.list n)) hne
    have hsound := h.shrink hshuffled fun m b hb hnone =>
      h.excluded m b ((hshuffled.subperm m).subset hb) hnone
    refine ih (dropLoop_sound n _ _ _ _ hsound ?_) heq
    intro bid hbid
    exact hsound.known (by simpa [list_insert] using hbid)

theorem Collected.Sound.pushTarget (h : s.Sound cfg ts cs)
    (hbid : cs.lookup n = some bid) (htarget : ts.lookup bid.peer = some n)
    (hnode : n ∈ cfg.nodes) :
    Collected.Sound cfg ts cs { s with bidMap := s.bidMap.push n bid } := by
  have hother : ∀ peer, ts.lookup peer = none → bid.peer ≠ peer := by
    intro peer hnone heq
    rw [← heq, htarget] at hnone
    exact absurd hnone (by simp)
  refine ⟨?_, ?_, ?_, ?_, ?_, ?_, ?_, ?_⟩
  · exact forall_list_push h.offered (.inr hbid)
  · refine forall_list_push h.targeted fun m hm => ?_
    exact Option.some.inj (hm.symm.trans htarget)
  · exact forall_list_push h.excluded fun hnone => absurd rfl (hother _ hnone)
  · exact forall_list_push h.named fun hnone => absurd rfl (hother _ hnone)
  · intro m m' b hb b' hb' hpeer hnone
    rcases mem_list_push.mp hb with hold | ⟨rfl, _⟩
    · rcases mem_list_push.mp hb' with hold' | ⟨rfl, _⟩
      · exact h.across m m' b hold b' hold' hpeer hnone
      · exact absurd hpeer.symm (hother _ hnone)
    · exact absurd rfl (hother _ hnone)
  · intro m peer hnone
    simp only [list_push]
    split
    · simpa [hother peer hnone] using h.once n peer hnone
    · exact h.once m peer hnone
  · intro m hm
    rcases mem_push.mp hm with rfl | hm
    · exact .inl hnode
    · exact h.keys m hm
  · intro b hb
    exact mem_push.mpr (.inr (h.kept b hb))

def Trusted (targets : GoMap GoString GoString) (candidates : Candidate)
    (excludePeers : List GoString) : Prop :=
  ∀ peerID ∈ excludePeers, ∀ n, targets.lookup peerID = some n →
    ∀ b, candidates.lookup n = some b → b.peer = peerID

theorem exclude_sound (hnodes : ∀ peerID n, ts.lookup peerID = some n → n ∈ cfg.nodes)
    (peers : List GoString) (htrusted : Trusted ts cs peers) (h : s.Sound cfg ts cs) :
    (exclude ts cs peers s).Sound cfg ts cs := by
  induction peers generalizing s with
  | nil => exact h
  | cons peerID rest ih =>
    have hrest : Trusted ts cs rest := fun p hp =>
      htrusted p (.tail _ hp)
    have hinsert : Collected.Sound cfg ts cs
        { s with peerExclusion := insert peerID s.peerExclusion } :=
      { h with
        excluded := fun n b hb hnone => Finset.mem_insert_of_mem (h.excluded n b hb hnone) }
    unfold exclude
    split
    · exact ih hrest hinsert
    rename_i n hn
    split
    · exact ih hrest hinsert
    rename_i bid hbid
    have hpeer : bid.peer = peerID := htrusted peerID (.head _) n hn bid hbid
    exact ih hrest (hinsert.pushTarget hbid (hpeer ▸ hn) (hnodes peerID n hn))

end Collecting

/-! ## Pinned nodes -/

def PinnedTo (cfg : EnsembleConfig) (peerID n : GoString) : Prop :=
  peerID ≠ [] ∧ ∃ node, cfg.nodes.lookup n = some node ∧ node.peer = peerID

section Pinned

variable {cfg : EnsembleConfig} {peerID n : GoString}

theorem PinnedTo.node (h : PinnedTo cfg peerID n) :
    ∃ node, cfg.node n = some node ∧ node.peer = peerID := by
  obtain ⟨hne, node, hlookup, hpeer⟩ := h
  refine ⟨node, EnsembleConfig.node_of_lookup ?_, hpeer⟩
  refine (lookup_insertAll_cases hlookup).resolve_left ?_
  intro hmem
  obtain ⟨e, _, he⟩ := mem_flatMap.mp hmem
  obtain ⟨i, _, hi⟩ := mem_filterMap.mp he
  obtain ⟨sid, _, heq⟩ := Option.map_eq_some_iff.mp hi
  exact hne (hpeer ▸ (congrArg (fun x => x.2.peer) heq).symm)

theorem PinnedTo.mem (h : PinnedTo cfg peerID n) : n ∈ cfg.nodes := by
  obtain ⟨_, node, hlookup, _⟩ := h
  rw [← lookup_isSome, hlookup]
  rfl

theorem PinnedTo.unique {peerID'} (h : PinnedTo cfg peerID n)
    (h' : PinnedTo cfg peerID' n) : peerID = peerID' := by
  obtain ⟨_, node, hlookup, rfl⟩ := h
  obtain ⟨_, node', hlookup', rfl⟩ := h'
  rw [Option.some.inj (hlookup.symm.trans hlookup')]

theorem PinnedTo.acceptPeerLocation_iff (h : PinnedTo cfg peerID n) (peer : GoString)
    (loc : Location) : acceptPeerLocation cfg n peer loc = true ↔ peer = peerID := by
  obtain ⟨node, hnode, rfl⟩ := h.node
  rw [acceptPeerLocation, hnode]
  dsimp only
  rw [if_pos h.1, decide_eq_true_iff]
  exact eq_comm

theorem pinnedTo_of_target {order}
    (h : (nodeForTargetPeer order cfg).lookup peerID = some n) : PinnedTo cfg peerID n := by
  let Pins := fun ts : GoMap GoString GoString =>
    ∀ p m, ts.lookup p = some m → PinnedTo cfg p m
  refine List.foldlRecOn (motive := Pins) (order.visit cfg.nodes.entries) _ (by simp [Pins])
    (fun ts htargets e he p m hm => ?_) peerID n h
  split at hm
  · next hne =>
    rcases lookup_insert_cases hm with ⟨rfl, rfl⟩ | ⟨_, hm⟩
    · exact ⟨hne, e.2, mem_lookup_iff.mpr (order.mem_visit.mp he), rfl⟩
    · exact htargets p m hm
  · exact htargets p m hm

end Pinned

/-! ## Candidates -/

variable {order : RangeOrder} {cfg : EnsembleConfig} {cand : Candidate}
  {sh : GoString → RangeOrder} {g : Generator} {c : Coordinator} {expiry : Int}

theorem permutators_lists (big : Bool) (lists : List (GoString × List Bid)) (modulus : Int) :
    (permutators big lists modulus).1.map (fun p => (p.node, p.bids)) = lists := by
  induction lists generalizing modulus with
  | nil => rfl
  | cons e rest ih => simp [permutators, ih]

/-- The shuffled lists of bids in the order in which a generator lays them out. -/
def layout (order : RangeOrder) (shuffle : GoString → RangeOrder)
    (bids : GoMap GoString (List Bid)) : List (GoString × List Bid) :=
  (order.visit bids.entries).map fun e => (e.1, (shuffle e.1).visit e.2)

variable {bids : GoMap GoString (List Bid)}

theorem mem_layout {e} (he : e ∈ layout order sh bids) : e.1 ∈ bids ∧ e.2.Perm (bids.list e.1) := by
  obtain ⟨e, hmem, rfl⟩ := mem_map.mp he
  have hentry := order.mem_visit.mp hmem
  rw [list_of_lookup (mem_lookup_iff.mpr hentry)]
  exact ⟨mem_keys.mpr (mem_map_of_mem hentry), (sh e.1).perm e.2⟩

theorem mem_nodes_layout {n} : n ∈ (layout order sh bids).map Prod.fst ↔ n ∈ bids := by
  rw [layout, map_map, mem_map]
  constructor
  · rintro ⟨e, he, rfl⟩
    exact mem_keys.mpr (mem_map_of_mem (order.mem_visit.mp he))
  intro hn
  obtain ⟨e, he, rfl⟩ := mem_map.mp (mem_keys.mp hn)
  exact ⟨e, order.mem_visit.mpr he, rfl⟩

theorem generator_lists (hg : makeCandidateDeployments order sh cfg bids = some g) :
    g.permutators.map (fun p => (p.node, p.bids)) = layout order sh bids := by
  unfold makeCandidateDeployments at hg
  split at hg
  · simp at hg
  · obtain rfl := Option.some.inj hg
    exact permutators_lists ..

theorem getPermutation_eq_some {index ps} (h : getPermutation index ps = some cand) :
    (∀ n, n ∈ cand ↔ n ∈ ps.map Permutator.node) ∧
      ∀ n b, cand.lookup n = some b → ∃ p ∈ ps, p.node = n ∧ b ∈ p.bids := by
  induction ps generalizing cand with
  | nil =>
    rw [getPermutation, Option.some.injEq] at h
    subst h
    simp
  | cons p ps ih =>
    unfold getPermutation at h
    dsimp only at h
    split at h
    · next bid r hbid hresult =>
      obtain rfl := Option.some.inj h
      obtain ⟨hmem, hlookup⟩ := ih hresult
      constructor
      · intro n
        rw [mem_insert, hmem, map_cons, mem_cons]
      intro n b hb
      rcases lookup_insert_cases hb with ⟨rfl, rfl⟩ | ⟨_, hb⟩
      · exact ⟨p, .head _, rfl, mem_of_getElem? hbid⟩
      · obtain ⟨q, hq, hnode, hmem⟩ := hlookup n b hb
        exact ⟨q, .tail _ hq, hnode, hmem⟩
    · simp at h

theorem candidate_of_generator (hg : makeCandidateDeployments order sh cfg bids = some g)
    {index} (h : getPermutation index g.permutators = some cand) :
    (∀ n, n ∈ cand ↔ n ∈ bids) ∧ ∀ n b, cand.lookup n = some b → b ∈ bids.list n := by
  obtain ⟨hmem, hlookup⟩ := getPermutation_eq_some h
  constructor
  · intro n
    have hnode : n ∈ (layout order sh bids).map Prod.fst ↔ n ∈ bids := mem_nodes_layout
    rw [hmem, ← hnode, ← generator_lists hg, map_map]
    rfl
  intro n b hb
  obtain ⟨p, hp, rfl, hmem⟩ := hlookup n b hb
  have hlist : (p.node, p.bids) ∈ layout order sh bids := by
    rw [← generator_lists hg]
    exact mem_map_of_mem hp
  exact (mem_layout hlist).2.mem_iff.mp hmem

theorem makeCandidateDeployments_length
    (hg : makeCandidateDeployments order sh cfg bids = some g) :
    cfg.nodes.keys.length = bids.keys.length := by
  unfold makeCandidateDeployments at hg
  split at hg
  · simp at hg
  · next h => exact not_not.mp h

variable {draws : Nat → Option Nat}

theorem nextCandidate_permutation {left left'}
    (h : nextCandidate c cfg draws g left = some (some (cand, left'))) :
    (∃ index, getPermutation index g.permutators = some cand) ∧
      checkPermutationEdgeConstraints c cfg cand = true := by
  induction left with
  | zero => simp [nextCandidate] at h
  | succ left ih =>
    unfold nextCandidate at h
    split at h
    · simp at h
    split at h
    · simp at h
    rename_i perm hperm
    split at h
    · next hcheck =>
      obtain ⟨rfl, _⟩ := h
      exact ⟨⟨_, hperm⟩, hcheck⟩
    · exact ih h

/-! ## The round -/

theorem ending_eq_some {α : Type} {β : Type 1} {rest : List β} {outcome r : α}
    (h : ending rest outcome = some r) : rest = [] ∧ outcome = r := by
  unfold ending at h
  split at h
  · next hrest => exact ⟨isEmpty_iff.mp hrest, Option.some.inj h⟩
  · simp at h

theorem gather_invariant {P : Collected → Prop} {ts}
    (hreceive : ∀ bid s, P s → P (receive c cfg ts bid s))
    (hdrop : ∀ (r : Residual) s s', P s → dropBids r (r.order.visit s.bidMap.keys) s = some s' →
      P s') (residuals : List Residual) {s s'}
    {result : Except (GoError BidCause) Generator} (h : P s)
    (heq : gather c cfg ts expiry order sh residuals s = some (s', result)) :
    P s' ∧ ∀ g, result = .ok g → makeCandidateDeployments order sh cfg s'.bidMap = some g := by
  induction residuals generalizing s with
  | nil => simp [gather] at heq
  | cons r rest ih =>
    unfold gather at heq
    split at heq
    · obtain ⟨rfl, rfl⟩ := Prod.mk.inj (ending_eq_some heq).2
      exact ⟨h, nofun⟩
    split at heq
    · next g' hg' =>
      obtain ⟨rfl, rfl⟩ := Prod.mk.inj (ending_eq_some heq).2
      exact ⟨h, fun g hg => Except.ok.inj hg ▸ hg'⟩
    split at heq
    · simp at heq
    rename_i dropped hdropped
    have hrest := hdrop r s dropped h hdropped
    split at heq
    · obtain ⟨rfl, rfl⟩ := Prod.mk.inj (ending_eq_some heq).2
      exact ⟨hrest, nofun⟩
    split at heq
    · obtain ⟨rfl, rfl⟩ := Prod.mk.inj (ending_eq_some heq).2
      exact ⟨hrest, nofun⟩
    · exact ih (collectBids_invariant hreceive _ _ _ hrest) heq

variable {round : Round}

theorem search_collected {s : Collected} (checks : List Check)
    {left cache} {verdicts : List (Candidate × Bool)}
    (h : search c cfg expiry draws g s checks left cand cache verdicts = some round) :
    round.collected = s := by
  induction checks generalizing left cand cache verdicts with
  | nil => simp [search] at h
  | cons check rest ih =>
    unfold search at h
    split at h
    · rw [← (ending_eq_some h).2]
    split at h
    · simp at h
    · rw [← (ending_eq_some h).2]
    split at h
    · simp at h
    · rw [← (ending_eq_some h).2]
    · exact ih h

/-- The search ends with a candidate that passed, all clocks being early enough, or at a
clock that is not, when no candidate has passed. -/
theorem search_cases {s : Collected} (checks : List Check) {left cache}
    {verdicts : List (Candidate × Bool)}
    (hverdicts : ∀ v ∈ verdicts, v.2 = false)
    (heq : search c cfg expiry draws g s checks left cand cache verdicts = some round)
    (hok : round.result = .ok ()) :
    (∀ check ∈ checks, check.now < expiry) ∧ (round.candidate, true) ∈ round.verdicts ∧
        (∃ index, getPermutation index g.permutators = some round.candidate) ∨
      (∃ check ∈ checks, expiry ≤ check.now) ∧ ∀ v ∈ round.verdicts, v.2 = false := by
  induction checks generalizing left cand cache verdicts with
  | nil => simp [search] at heq
  | cons check rest ih =>
    unfold search at heq
    split at heq
    · next hexpired =>
      obtain ⟨_, rfl⟩ := ending_eq_some heq
      exact .inr ⟨⟨check, .head _, hexpired⟩, hverdicts⟩
    split at heq
    · simp at heq
    · obtain ⟨_, rfl⟩ := ending_eq_some heq
      simp at hok
    rename_i candidate' left' hnext
    split at heq
    · simp at heq
    · obtain ⟨rfl, rfl⟩ := ending_eq_some heq
      refine .inl ⟨?_, by simp, (nextCandidate_permutation hnext).1⟩
      intro check' hcheck'
      rw [mem_singleton.mp hcheck']
      omega
    have hrejected : ∀ v ∈ verdicts ++ [(candidate', false)], v.2 = false := by
      intro v hv
      rcases mem_append.mp hv with hv | hv
      · exact hverdicts v hv
      · rw [mem_singleton.mp hv]
    rcases ih hrejected heq with hpassed | ⟨⟨check', hcheck', hlate⟩, hfalse⟩
    · refine .inl ⟨?_, hpassed.2⟩
      intro check' hcheck'
      rcases mem_cons.mp hcheck' with rfl | hcheck'
      · omega
      · exact hpassed.1 check' hcheck'
    · exact .inr ⟨⟨check', .tail _ hcheck', hlate⟩, hfalse⟩

/-- What a successful round should yield: a bid for every node and no other, each received for the
node or passed in, from different peers, and checked as a whole. -/
structure Round.Complete (cfg : EnsembleConfig) (candidates : Candidate) (round : Round) :
    Prop where
  nodes : ∀ n, n ∈ round.candidate ↔ n ∈ cfg.nodes
  offered : ∀ n b, round.candidate.lookup n = some b →
    (b ∈ round.collected.received ∧ b.nodeID = n) ∨ candidates.lookup n = some b
  peers : ∀ n m b b', round.candidate.lookup n = some b → round.candidate.lookup m = some b' →
    b.peer = b'.peer → n = m
  checked : (round.candidate, true) ∈ round.verdicts

/-- A round without an error collected sound bids, made a generator for them, and ended
as a search ends. -/
theorem bid_cases {cs : Candidate} {inp : BidInputs}
    (htrusted : Trusted (nodeForTargetPeer inp.order cfg) cs cfg.excludePeers)
    (heq : bid c cfg cs expiry inp = some round) (hok : round.result = .ok ()) :
    round.collected.Sound cfg (nodeForTargetPeer inp.order cfg) cs ∧
      ∃ g, makeCandidateDeployments inp.order inp.shuffle cfg round.collected.bidMap = some g ∧
        ((∀ check ∈ inp.checks, check.now < expiry) ∧ (round.candidate, true) ∈ round.verdicts ∧
            (∃ index, getPermutation index g.permutators = some round.candidate) ∨
          (∃ check ∈ inp.checks, expiry ≤ check.now) ∧ ∀ v ∈ round.verdicts, v.2 = false) := by
  have hempty : Collected.Sound cfg (nodeForTargetPeer inp.order cfg) cs
      ⟨∅, ∅, [], []⟩ := by
    refine ⟨?_, ?_, ?_, ?_, ?_, ?_, ?_, ?_⟩ <;> simp
  have hstart := exclude_sound (fun _ _ h => (pinnedTo_of_target h).mem) cfg.excludePeers htrusted
    hempty
  unfold bid at heq
  dsimp only at heq
  split at heq
  · obtain rfl := Option.some.inj heq
    simp at hok
  split at heq
  · obtain rfl := Option.some.inj heq
    simp at hok
  split at heq
  · simp at heq
  · obtain rfl := Option.some.inj heq
    simp at hok
  rename_i s g hgather
  obtain ⟨hsound, hg⟩ := gather_invariant
    (fun bid _ h => h.receive bid) (fun r _ _ h => dropBids_sound r _ h) _
    (collectBids_invariant (fun bid _ h => h.receive bid) _ _ _ hstart) hgather
  rw [search_collected _ heq]
  exact ⟨hsound, g, hg g rfl, search_cases _ (by simp) heq hok⟩

/-- A round that returns no error yields a complete and checked candidate exactly when the clock
was before the expiry at every turn and no bid was added for a name that is not one of a node. -/
theorem bid_complete_iff (c : Coordinator) (cfg : EnsembleConfig) (candidates : Candidate)
    (expiry : Int) (inputs : BidInputs) (round : Round)
    (htrusted : Trusted (nodeForTargetPeer inputs.order cfg) candidates cfg.excludePeers)
    (heq : bid c cfg candidates expiry inputs = some round) (hok : round.result = .ok ()) :
    round.Complete cfg candidates ↔ (∀ check ∈ inputs.checks, check.now < expiry) ∧
        ∀ b ∈ round.collected.added, b.nodeID ∈ cfg.nodes := by
  obtain ⟨hsound, g, hg, ⟨hearly, hchecked, index, hperm⟩ | ⟨⟨check, hcheck, hlate⟩, hfalse⟩⟩ :=
    bid_cases htrusted heq hok
  · obtain ⟨hmem, hlookup⟩ := candidate_of_generator hg hperm
    constructor
    · intro h
      refine ⟨hearly, ?_⟩
      intro b hb
      rw [← h.nodes, hmem]
      exact hsound.kept b hb
    rintro ⟨_, hadded⟩
    have hkeys : ∀ n ∈ round.collected.bidMap, n ∈ cfg.nodes := by
      intro n hn
      rcases hsound.keys n hn with hnode | ⟨b, hb, rfl⟩
      · exact hnode
      · exact hadded b hb
    refine ⟨?_, ?_, ?_, hchecked⟩
    · intro n
      rw [hmem]
      have hsubperm := subperm_of_subset round.collected.bidMap.keys_nodup hkeys
      exact (hsubperm.perm_of_length_le (makeCandidateDeployments_length hg).le).mem_iff
    · intro n b hb
      exact hsound.offered n b (hlookup n b hb)
    intro n m b b' hb hb' hpeer
    have hn := hlookup n b hb
    have hm := hlookup m b' hb'
    cases htarget : (nodeForTargetPeer inputs.order cfg).lookup b.peer with
    | none => exact hsound.across n m b hn b' hm hpeer htarget
    | some k =>
      rw [← hsound.targeted n b hn k htarget, ← hsound.targeted m b' hm k (hpeer ▸ htarget)]
  constructor
  · intro h
    exact absurd (hfalse _ h.checked) (by simp)
  · rintro ⟨hearly, _⟩
    exact absurd (hearly check hcheck) (by omega)

def sampleCoordinator : Coordinator := ⟨ascii "e", fun _ => true, fun _ _ _ => false⟩

/-- An ensemble without edges of nodes that all have the same allocation. -/
def sampleEnsemble (nodes : List (String × String × Int)) (excludePeers : List String) :
    EnsembleConfig :=
  ⟨(∅ : GoMap GoString AllocationConfig).insert (ascii "web") ⟨[], []⟩,
    nodes.foldl (fun m n => m.insert (ascii n.1)
      ⟨[ascii "web"], [], ⟨[], []⟩, ascii n.2.1, n.2.2⟩) (∅ : GoMap GoString NodeConfig),
    [], ⟨[], []⟩, excludePeers.map ascii⟩

def sampleBid (node peer : String) : Bid :=
  ⟨ascii "e", ascii node, ascii peer, ⟨[], [], [], 0, []⟩, ⟨[], ascii peer, ascii peer, []⟩, []⟩

def sampleRequest (arriving : List Bid) : BidRequest := ⟨.ok (), 0, .ok (), arriving⟩

def sampleInputs (arriving : List Bid) (times : List Int) : BidInputs :=
  ⟨.stored, sampleRequest arriving, [⟨1, .stored, fun _ => .stored, fun _ => 0, sampleRequest []⟩],
    fun _ => .stored, fun _ => some 0, times.map fun now => ⟨now, fun _ => true, .stored⟩⟩

def sampleRound (nodes : List (String × String × Int)) (excludePeers : List String)
    (candidates : Candidate) (arriving : List Bid) (times : List Int) : Option Round :=
  bid sampleCoordinator (sampleEnsemble nodes excludePeers) candidates (2 * bidRequestTimeout)
    (sampleInputs arriving times)

theorem bid_complete_two :
    ∃ round, sampleRound [("a", "", 0), ("b", "", 0)] [] ∅ [sampleBid "b" "q", sampleBid "a" "p"]
        [2] = some round ∧ round.result = .ok () ∧
      round.Complete (sampleEnsemble [("a", "", 0), ("b", "", 0)] []) ∅ := by
  refine ⟨_, rfl, rfl, ?_⟩
  refine (bid_complete_iff sampleCoordinator _ _ (2 * bidRequestTimeout)
    (sampleInputs [sampleBid "b" "q", sampleBid "a" "p"] [2]) _ ?_ rfl rfl).mpr
    ⟨by decide, by decide⟩
  intro peerID hpeer
  simp [sampleEnsemble] at hpeer

/-- Three rounds without an error: the clock reaches the expiry first and the result is empty; a
bid for a standby node in another spelling takes its place; a passed-in bid has the peer of
another node. -/
theorem bid_incomplete :
    (∃ round, sampleRound [("a", "", 0)] [] ∅ [sampleBid "a" "p"] [2 * bidRequestTimeout] =
        some round ∧ round.result = .ok () ∧
        ¬ round.Complete (sampleEnsemble [("a", "", 0)] []) ∅) ∧
    (∃ round, sampleRound [("a", "", 1)] [] ∅ [sampleBid "a" "p", sampleBid "a-standby-01" "q"]
        [2] = some round ∧ round.result = .ok () ∧
      ¬ round.Complete (sampleEnsemble [("a", "", 1)] []) ∅) ∧
    ∃ round, sampleRound [("a", "p", 0), ("b", "", 0)] ["p"]
        ((∅ : Candidate).insert (ascii "a") (sampleBid "a" "q")) [sampleBid "b" "q"] [2] =
        some round ∧ round.result = .ok () ∧
      ¬ round.Complete (sampleEnsemble [("a", "p", 0), ("b", "", 0)] ["p"])
        ((∅ : Candidate).insert (ascii "a") (sampleBid "a" "q")) := by
  refine ⟨⟨_, rfl, rfl, ?_⟩, ⟨_, rfl, rfl, ?_⟩, _, rfl, rfl, ?_⟩
  · intro h
    exact absurd ((h.nodes (ascii "a")).mpr (by decide)) (by decide)
  · intro h
    exact absurd ((h.nodes (ascii "a-standby-01")).mp (by decide)) (by decide)
  · intro h
    exact absurd (h.peers (ascii "a") (ascii "b") _ _ rfl rfl rfl) (by decide)

end DMS.Orchestrator
