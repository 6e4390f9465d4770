import DMS.Core.Reach
import DMS.Orchestrator.BidRound

/-! # The book of bids

The bids of one call of `BidCoordinator.bid`: `bidMap` begins with the passed-in bids of excluded
peers, then bids are received and residual rounds drop some of them. Passed-in bids are listed
unseen; apart from these the book is in order after every step.
-/

namespace DMS.Orchestrator

open Jobs GoMap List

/-- All bids are from different peers, each of them for a node that may take it, at most eight
for a node, and none was added from an excluded peer. -/
structure Collected.Booked (cfg : EnsembleConfig) (s : Collected) : Prop where
  once : ∀ n, ((s.bidMap.list n).map Bid.peer).Nodup
  across : ∀ n m, ∀ b ∈ s.bidMap.list n, ∀ b' ∈ s.bidMap.list m, b.peer = b'.peer → n = m
  keys : ∀ n ∈ s.bidMap, n ∈ cfg.nodes
  bounded : ∀ n, (s.bidMap.list n).length ≤ maxBidMultiplier
  pinned : ∀ n, ∀ b ∈ s.bidMap.list n, ∀ m, PinnedTo cfg b.peer m → m = n
  located : ∀ n, ∀ b ∈ s.bidMap.list n, acceptPeerLocation cfg n b.peer b.location = true
  barred : ∀ b ∈ s.added, b.peer ∉ cfg.excludePeers

/-! ## The steps -/

/-- `bidMap` and `peerExclusion` before the first request. -/
def opening (targets : GoMap GoString GoString) (cfg : EnsembleConfig) (candidates : Candidate) :
    Collected :=
  exclude targets candidates cfg.excludePeers ⟨∅, ∅, [], []⟩

inductive BookStep
  | receive (bid : Bid)
  | residual (r : Residual)

/-- A round that panics ends the call; no round of a book in order does. -/
def bookStep (c : Coordinator) (cfg : EnsembleConfig) (targets : GoMap GoString GoString)
    (s : Collected) : BookStep → Collected
  | .receive bid => receive c cfg targets bid s
  | .residual r => (dropBids r (r.order.visit s.bidMap.keys) s).getD s

def Preloadable (targets : GoMap GoString GoString) (cfg : EnsembleConfig)
    (candidates : Candidate) : Prop :=
  ∀ peerID ∈ cfg.excludePeers, ∀ n, targets.lookup peerID = some n →
    ∀ b, candidates.lookup n = some b →
      b.peer = peerID ∧ cfg.excludePeers.count peerID = 1 ∧ ∀ m, PinnedTo cfg peerID m → m = n

def Placed (c : Coordinator) (cfg : EnsembleConfig) (targets : GoMap GoString GoString)
    (s : Collected) : BookStep → Prop
  | .receive bid =>
    bid.ensembleID = c.eid → admissible c cfg targets bid s = true →
      bid.nodeID ∈ cfg.nodes ∧ ∀ m, PinnedTo cfg bid.peer m → m = bid.nodeID
  | .residual _ => True

/-! ## Before the first request -/

section Opening

variable {ts : GoMap GoString GoString} {cs : Candidate}

theorem exclude_list (peers : List GoString) (s : Collected) (n : GoString) :
    (exclude ts cs peers s).bidMap.list n = s.bidMap.list n ++
      (cs.lookup n).toList.flatMap fun b =>
        List.replicate (peers.countP fun p => ts.lookup p = some n) b := by
  induction peers generalizing s with
  | nil => cases cs.lookup n <;> simp [exclude]
  | cons p rest ih =>
    unfold exclude
    split
    · next hp => simp [ih, hp]
    rename_i m hm
    split
    · next hnone =>
      by_cases hmn : m = n
      · subst hmn
        simp [ih, hnone]
      · simp [ih, hm, hmn]
    rename_i b hb
    rw [ih, list_push]
    by_cases hmn : n = m
    · subst hmn
      simp [hm, hb, replicate_succ]
    · simp [hm, hmn, Ne.symm hmn]

theorem exclude_listed (peers : List GoString) {s : Collected}
    (h : ∀ n ∈ s.bidMap, s.bidMap.list n ≠ []) : ∀ n ∈ (exclude ts cs peers s).bidMap,
      (exclude ts cs peers s).bidMap.list n ≠ [] := by
  induction peers generalizing s with
  | nil => exact h
  | cons p rest ih =>
    unfold exclude
    split
    · exact ih h
    split
    · exact ih h
    · exact ih (list_push_ne_nil h _ _)

theorem exclude_frame (ts : GoMap GoString GoString) (cs : Candidate)
    (peers : List GoString) (s : Collected) : (exclude ts cs peers s).added = s.added ∧
      ∀ p, p ∈ (exclude ts cs peers s).peerExclusion ↔ p ∈ s.peerExclusion ∨ p ∈ peers := by
  induction peers generalizing s with
  | nil => simp [exclude]
  | cons p rest ih =>
    unfold exclude
    split
    · simp [ih, or_assoc, or_left_comm]
    · split <;> simp [ih, or_assoc, or_left_comm]

/-- What holds between the steps: a listed peer is excluded and so is every peer of the
configuration, every list has a bid, and a list is one of added bids or a passed-in bid alone. -/
structure Collected.Kept (cfg : EnsembleConfig) (s : Collected) : Prop where
  booked : s.Booked cfg
  held : ∀ n, ∀ b ∈ s.bidMap.list n, b.peer ∈ s.peerExclusion
  excluded : ∀ p ∈ cfg.excludePeers, p ∈ s.peerExclusion
  listed : ∀ n ∈ s.bidMap, s.bidMap.list n ≠ []
  origin : ∀ n, ∀ b ∈ s.bidMap.list n,
    b.nodeID = n ∧ b.peer ∉ cfg.excludePeers ∨ s.bidMap.list n = [b] ∧ PinnedTo cfg b.peer n

variable {cfg : EnsembleConfig}

variable (htargets : ∀ p n, ts.lookup p = some n → PinnedTo cfg p n)

include htargets in
theorem opening_list {peerID n b} (hn : ts.lookup peerID = some n)
    (hb : cs.lookup n = some b) : (opening ts cfg cs).bidMap.list n =
      List.replicate (cfg.excludePeers.count peerID) b := by
  have hcount : (cfg.excludePeers.countP fun p => ts.lookup p = some n) =
      cfg.excludePeers.count peerID := by
    refine countP_congr ?_
    intro p _
    rw [decide_eq_true_iff, beq_iff_eq]
    constructor
    · exact fun hp => (htargets p n hp).unique (htargets peerID n hn)
    · exact fun hp => hp ▸ hn
  unfold opening
  simp [exclude_list, hb, hcount]

theorem mem_opening_list {n b} (h : b ∈ (opening ts cfg cs).bidMap.list n) :
    cs.lookup n = some b ∧ ∃ p ∈ cfg.excludePeers, ts.lookup p = some n := by
  unfold opening at h
  rw [exclude_list] at h
  obtain ⟨b', hb', hb⟩ := mem_flatMap.mp h
  obtain ⟨hpos, rfl⟩ := mem_replicate.mp hb
  obtain ⟨p, hp, hn⟩ := countP_pos_iff.mp (Nat.pos_of_ne_zero hpos)
  exact ⟨Option.mem_toList.mp hb', p, hp, of_decide_eq_true hn⟩

include htargets in
theorem preloadable_of_booked (h : (opening ts cfg cs).Booked cfg) : Preloadable ts cfg cs := by
  intro peerID hpeerID n hn b hb
  have hlist := opening_list htargets hn hb
  have hpos : 0 < cfg.excludePeers.count peerID := count_pos_iff.mpr hpeerID
  have hmem : b ∈ (opening ts cfg cs).bidMap.list n := by
    rw [hlist, mem_replicate]
    exact ⟨hpos.ne', rfl⟩
  have hpeer : b.peer = peerID :=
    ((htargets peerID n hn).acceptPeerLocation_iff b.peer b.location).mp (h.located n b hmem)
  refine ⟨hpeer, ?_, fun m hm => h.pinned n b hmem m (hpeer.symm ▸ hm)⟩
  have honce := h.once n
  rw [hlist, map_replicate, nodup_replicate] at honce
  omega

include htargets in
theorem opening_kept (h : Preloadable ts cfg cs) : (opening ts cfg cs).Kept cfg := by
  -- A listed bid stands alone, and it is the one that was passed in for its pinned node.
  have halone : ∀ n, ∀ b ∈ (opening ts cfg cs).bidMap.list n,
      ts.lookup b.peer = some n ∧ b.peer ∈ cfg.excludePeers ∧
        (opening ts cfg cs).bidMap.list n = [b] ∧
        ∀ m, PinnedTo cfg b.peer m → m = n := by
    intro n b hb
    obtain ⟨hcandidate, p, hp, hn⟩ := mem_opening_list hb
    obtain ⟨rfl, hcount, hpinned⟩ := h p hp n hn b hcandidate
    refine ⟨hn, hp, ?_, hpinned⟩
    rw [opening_list htargets hn hcandidate, hcount, replicate_one]
  have hone (n : GoString) : (opening ts cfg cs).bidMap.list n = [] ∨
      ∃ b, (opening ts cfg cs).bidMap.list n = [b] := by
    refine or_iff_not_imp_left.mpr fun hne => ?_
    obtain ⟨b, hb⟩ := exists_mem_of_ne_nil _ hne
    exact ⟨b, (halone n b hb).2.2.1⟩
  have hframe := exclude_frame ts cs cfg.excludePeers ⟨∅, ∅, [], []⟩
  have hlisted : ∀ n ∈ (opening ts cfg cs).bidMap,
      (opening ts cfg cs).bidMap.list n ≠ [] := exclude_listed _ (by simp)
  refine ⟨⟨?_, ?_, ?_, ?_, ?_, ?_, ?_⟩, ?_, ?_, ?_, ?_⟩
  · intro n
    rcases hone n with hlist | ⟨b, hlist⟩ <;> simp [hlist]
  · intro n m b hb b' hb' hpeer
    have hn := (halone n b hb).1
    rw [hpeer, (halone m b' hb').1] at hn
    exact (Option.some.inj hn).symm
  · intro n hn
    obtain ⟨b, hb⟩ := exists_mem_of_ne_nil _ (hlisted n hn)
    exact (htargets b.peer n (halone n b hb).1).mem
  · intro n
    rcases hone n with hlist | ⟨b, hlist⟩ <;> simp [hlist, maxBidMultiplier]
  · exact fun n b hb => (halone n b hb).2.2.2
  · intro n b hb
    exact ((htargets b.peer n (halone n b hb).1).acceptPeerLocation_iff _ _).mpr rfl
  · intro b hb
    rw [opening, hframe.1] at hb
    cases hb
  · exact fun n b hb => (hframe.2 b.peer).mpr (.inr (halone n b hb).2.1)
  · exact fun p hp => (hframe.2 p).mpr (.inr hp)
  · exact hlisted
  · intro n b hb
    exact .inr ⟨(halone n b hb).2.2.1, htargets b.peer n (halone n b hb).1⟩

end Opening

/-! ## A bid arrives -/

section Receiving

variable {c : Coordinator} {cfg : EnsembleConfig} {ts : GoMap GoString GoString}
  {s : Collected} {bid : Bid}

theorem admissible_cases (h : admissible c cfg ts bid s = true) :
    bid.peer ∉ s.peerExclusion ∧ acceptPeerLocation cfg bid.nodeID bid.peer bid.location = true ∧
      (s.bidMap.list bid.nodeID).length < maxBidMultiplier := by
  refine ⟨(admissible_peer h).1, ?_⟩
  unfold admissible at h
  simp only [Bool.and_eq_true, decide_eq_true_eq] at h
  exact ⟨h.1.2, h.2⟩

theorem receive_cases (c : Coordinator) (cfg : EnsembleConfig)
    (ts : GoMap GoString GoString) (bid : Bid) (s : Collected) :
    (bid.ensembleID = c.eid ∧ admissible c cfg ts bid s = true ∧ receive c cfg ts bid s =
        ⟨s.bidMap.push bid.nodeID bid, insert bid.peer s.peerExclusion, bid :: s.received,
          bid :: s.added⟩) ∨ ¬ (bid.ensembleID = c.eid ∧ admissible c cfg ts bid s = true) ∧
      receive c cfg ts bid s = { s with received := bid :: s.received } := by
  have hsame : admissible c cfg ts bid { s with received := bid :: s.received } =
      admissible c cfg ts bid s := rfl
  unfold receive addBid
  dsimp only
  rw [hsame]
  by_cases hadmissible : admissible c cfg ts bid s = true
  · have hvalid : c.validate bid = true := by
      unfold admissible at hadmissible
      simp only [Bool.and_eq_true] at hadmissible
      exact hadmissible.1.1.1.2
    by_cases heid : bid.ensembleID = c.eid
    · simp [hadmissible, hvalid, heid]
    · simp [heid]
  · simp [hadmissible]

theorem Collected.Kept.add (h : s.Kept cfg) (hadmissible : admissible c cfg ts bid s = true)
    (hnode : bid.nodeID ∈ cfg.nodes) (hpinned : ∀ m, PinnedTo cfg bid.peer m → m = bid.nodeID)
    (received : List Bid) :
    Collected.Kept cfg ⟨s.bidMap.push bid.nodeID bid, insert bid.peer s.peerExclusion, received,
      bid :: s.added⟩ := by
  obtain ⟨hfresh, hlocated, hroom⟩ := admissible_cases hadmissible
  have hbooked := h.booked
  have hother : ∀ n, ∀ b ∈ s.bidMap.list n, b.peer ≠ bid.peer := by
    intro n b hb hpeer
    exact hfresh (hpeer ▸ h.held n b hb)
  have hbarred : bid.peer ∉ cfg.excludePeers := fun hp => hfresh (h.excluded _ hp)
  refine ⟨⟨?_, ?_, ?_, ?_, ?_, ?_, ?_⟩, ?_, ?_, ?_, ?_⟩
  · intro n
    rw [list_push]
    split
    · rw [map_append, nodup_append]
      refine ⟨hbooked.once _, nodup_singleton _, ?_⟩
      intro p hp p' hp' heq
      obtain ⟨b, hb, rfl⟩ := mem_map.mp hp
      exact hother _ b hb (heq.trans (mem_singleton.mp hp'))
    · exact hbooked.once n
  · intro n m b hb b' hb' hpeer
    rcases mem_list_push.mp hb with hold | ⟨hnew, hn⟩
    · rcases mem_list_push.mp hb' with hold' | ⟨hnew', _⟩
      · exact hbooked.across n m b hold b' hold' hpeer
      · exact absurd (hnew' ▸ hpeer) (hother n b hold)
    rcases mem_list_push.mp hb' with hold' | ⟨_, hm⟩
    · exact absurd (hnew ▸ hpeer.symm) (hother m b' hold')
    · rw [hn, hm]
  · intro n hn
    rcases mem_push.mp hn with rfl | hn
    · exact hnode
    · exact hbooked.keys n hn
  · intro n
    rw [list_push]
    split
    · rw [length_append]
      exact hroom
    · exact hbooked.bounded n
  · exact forall_list_push hbooked.pinned hpinned
  · exact forall_list_push hbooked.located hlocated
  · intro b hb
    rcases mem_cons.mp hb with rfl | hb
    · exact hbarred
    · exact hbooked.barred b hb
  · exact forall_list_push (fun n b hb => Finset.mem_insert_of_mem (h.held n b hb))
      (Finset.mem_insert_self ..)
  · exact fun p hp => Finset.mem_insert_of_mem (h.excluded p hp)
  · exact list_push_ne_nil h.listed _ _
  intro n b hb
  rcases mem_list_push.mp hb with hold | ⟨rfl, rfl⟩
  · refine (h.origin n b hold).imp_right ?_
    rintro ⟨hlist, hpin⟩
    refine ⟨?_, hpin⟩
    rw [list_push, if_neg, hlist]
    -- A node that is pinned takes no bid from a peer other than its own.
    rintro rfl
    exact hother _ b hold ((hpin.acceptPeerLocation_iff _ _).mp hlocated).symm
  · exact .inl ⟨rfl, hbarred⟩

theorem Collected.Kept.receive (h : s.Kept cfg) (received : List Bid) :
    Collected.Kept cfg { s with received := received } :=
  ⟨⟨h.booked.once, h.booked.across, h.booked.keys, h.booked.bounded, h.booked.pinned,
    h.booked.located, h.booked.barred⟩, h.held, h.excluded, h.listed, h.origin⟩

theorem placed_of_booked (h : (receive c cfg ts bid s).Booked cfg) :
    Placed c cfg ts s (.receive bid) := by
  intro heid hadmissible
  obtain ⟨_, _, heq⟩ | ⟨hnot, _⟩ := receive_cases c cfg ts bid s
  · rw [heq] at h
    refine ⟨h.keys _ (mem_push.mpr (.inl rfl)), ?_⟩
    exact h.pinned bid.nodeID bid (mem_list_push.mpr (.inr ⟨rfl, rfl⟩))
  · exact absurd ⟨heid, hadmissible⟩ hnot

end Receiving

/-! ## A residual round -/

section Residual

variable {cfg : EnsembleConfig} {s s' : Collected} {bid head : Bid} {n : GoString}

theorem Collected.Booked.shrink (h : s.Booked cfg) (hs : s.Shrinks s') : s'.Booked cfg where
  once n := by
    obtain ⟨l, hperm, hsub⟩ := hs.subperm n
    exact (hperm.map Bid.peer).nodup_iff.mp ((hsub.map Bid.peer).nodup (h.once n))
  across n m b hb b' hb' := h.across n m b ((hs.subperm n).subset hb) b' ((hs.subperm m).subset hb')
  keys n hn := h.keys n ((hs.mem n).mp hn)
  bounded n := le_trans (hs.subperm n).length_le (h.bounded n)
  pinned n b hb := h.pinned n b ((hs.subperm n).subset hb)
  located n b hb := h.located n b ((hs.subperm n).subset hb)
  barred b hb := h.barred b (hs.added ▸ hb)

theorem rmBid_list {tail} (hlist : s.bidMap.list bid.nodeID = head :: tail)
    (hpeer : head.peer ≠ bid.peer) :
    ∃ tail', tail'.Sublist tail ∧ ∀ m, (rmBid bid s).bidMap.list m =
      if m = bid.nodeID then head :: tail' else s.bidMap.list m := by
  unfold rmBid
  dsimp only
  rw [hlist, findIdx?_cons, if_neg (by simpa using hpeer)]
  cases hfind : tail.findIdx? fun b => b.peer = bid.peer with
  | none =>
    refine ⟨tail, List.Sublist.refl _, ?_⟩
    intro m
    dsimp only [Option.map_none]
    split
    · next hm => rw [hm, hlist]
    · rfl
  | some i =>
    refine ⟨tail.eraseIdx i, eraseIdx_sublist .., ?_⟩
    intro m
    exact list_insert ..

/-- A bid that was added for the node, and that a list of it held at some time. -/
structure Collected.Own (cfg : EnsembleConfig) (n : GoString) (s : Collected) (bid : Bid) :
    Prop where
  named : bid.nodeID = n
  barred : bid.peer ∉ cfg.excludePeers
  only : ∀ m, ∀ b ∈ s.bidMap.list m, b.peer = bid.peer → m = n

theorem Collected.Own.shrink (h : s.Own cfg n bid) (hs : s.Shrinks s') : s'.Own cfg n bid :=
  ⟨h.named, h.barred, fun m b hb => h.only m b ((hs.subperm m).subset hb)⟩

theorem Collected.Kept.shrink (h : s.Kept cfg) (hs : s.Shrinks s')
    (hheld : ∀ n, ∀ b ∈ s'.bidMap.list n, b.peer ∈ s'.peerExclusion)
    (hexcluded : ∀ p ∈ cfg.excludePeers, p ∈ s'.peerExclusion)
    (hlisted : ∀ n ∈ s'.bidMap, s'.bidMap.list n ≠ []) : s'.Kept cfg where
  booked := h.booked.shrink hs
  held := hheld
  excluded := hexcluded
  listed := hlisted
  origin n b hb := by
    refine (h.origin n b ((hs.subperm n).subset hb)).imp_right ?_
    rintro ⟨halone, hpin⟩
    have hsubperm := hs.subperm n
    rw [halone] at hsubperm
    exact ⟨perm_singleton.mp (hsubperm.antisymm (singleton_subperm_iff.mpr hb)), hpin⟩

theorem Collected.Kept.rmBid (h : s.Kept cfg) (hown : s.Own cfg n bid) {tail}
    (hlist : s.bidMap.list n = head :: tail) (hpeer : head.peer ≠ bid.peer) :
    (rmBid bid s).Kept cfg ∧ ∃ tail', tail'.Sublist tail ∧
      (rmBid bid s).bidMap.list n = head :: tail' := by
  obtain rfl := hown.named
  obtain ⟨tail', hsub, hlists⟩ := rmBid_list hlist hpeer
  have hs := rmBid_shrinks bid s
  refine ⟨h.shrink hs ?_ ?_ ?_, tail', hsub, by rw [hlists, if_pos rfl]⟩
  · intro m b hb
    rw [rmBid_peerExclusion]
    refine Finset.mem_erase.mpr ⟨?_, h.held m b ((hs.subperm m).subset hb)⟩
    intro heq
    obtain rfl := hown.only m b ((hs.subperm m).subset hb) heq
    refine rmBid_gone ?_ b hb heq
    have hcount := nodup_iff_count_le_one.mp (h.booked.once bid.nodeID) bid.peer
    rw [count, countP_map] at hcount
    refine le_trans (le_of_eq (countP_congr ?_)) hcount
    simp
  · intro p hp
    rw [rmBid_peerExclusion]
    refine Finset.mem_erase.mpr ⟨?_, h.excluded p hp⟩
    rintro rfl
    exact hown.barred hp
  intro m hm
  rw [hlists]
  split
  · exact cons_ne_nil _ _
  · exact h.listed m ((hs.mem m).mp hm)

/-- The loop over the bids of a node. Its first bid is never removed, and never met again in
what is left of the array. -/
theorem dropLoop_kept (size fuel i : Nat) {tail rest} (h : s.Kept cfg)
    (hlist : s.bidMap.list n = head :: tail) (htail : ∀ b ∈ tail, b ∈ rest)
    (hrest : ∀ b ∈ rest, s.Own cfg n b ∧ head.peer ≠ b.peer) :
    (dropLoop n size fuel i (head :: rest) s).Kept cfg ∧
      s.Shrinks (dropLoop n size fuel i (head :: rest) s) := by
  induction fuel generalizing i tail rest s with
  | zero => exact ⟨h, .refl s⟩
  | succ fuel ih =>
    unfold dropLoop
    split
    · exact ⟨h, .refl s⟩
    rename_i bid hbid
    split
    · next hi =>
      have hmem : bid ∈ rest := by
        rw [getElem?_cons, if_neg (by omega)] at hbid
        exact mem_of_getElem? hbid
      obtain ⟨hown, hpeer⟩ := hrest bid hmem
      obtain ⟨hkept, tail', hsub, hlist'⟩ := h.rmBid hown hlist hpeer
      have hs := rmBid_shrinks bid s
      have hrest' : ∀ b ∈ tail' ++ rest.drop tail'.length,
          (rmBid bid s).Own cfg n b ∧ head.peer ≠ b.peer := by
        intro b hb
        have hold : b ∈ rest := by
          rcases mem_append.mp hb with hb | hb
          · exact htail b (hsub.subset hb)
          · exact mem_of_mem_drop hb
        exact ⟨(hrest b hold).1.shrink hs, (hrest b hold).2⟩
      rw [hlist', overwrite, cons_append]
      obtain ⟨hfinal, hshrinks⟩ := ih (i + 1) hkept hlist' (fun b hb => mem_append_left _ hb) hrest'
      exact ⟨hfinal, hs.trans hshrinks⟩
    · exact ih (i + 1) h hlist htail hrest

theorem Collected.Kept.shuffle (h : s.Kept cfg) {bids : List Bid}
    (hperm : bids.Perm (s.bidMap.list n)) (hne : s.bidMap.list n ≠ []) :
    Collected.Kept cfg { s with bidMap := s.bidMap.insert n bids } := by
  have hs := shuffle_shrinks hperm hne
  refine h.shrink hs (fun m b hb => h.held m b ((hs.subperm m).subset hb)) h.excluded ?_
  intro m hm
  rw [list_insert]
  split
  · exact fun hnil => hne (nil_perm.mp (hnil ▸ hperm))
  · exact h.listed m ((hs.mem m).mp hm)

theorem dropBids_kept (r : Residual) (keys : List GoString) (h : s.Kept cfg)
    (hkeys : ∀ n ∈ keys, n ∈ s.bidMap) : ∃ s', dropBids r keys s = some s' ∧ s'.Kept cfg := by
  induction keys generalizing s with
  | nil => exact ⟨s, rfl, h⟩
  | cons n keys ih =>
    have hne := h.listed n (hkeys n (.head _))
    have hperm := (r.shuffle n).perm (s.bidMap.list n)
    have hs := shuffle_shrinks hperm hne
    have hkept := h.shuffle hperm hne
    rw [dropBids, if_neg hne]
    cases hbacking : (r.shuffle n).visit (s.bidMap.list n) with
    | nil => exact absurd (nil_perm.mp (hbacking ▸ hperm)) hne
    | cons head rest =>
      rw [hbacking] at hs hkept
      have hlist : list (s.bidMap.insert n (head :: rest)) n = head :: rest := by
        rw [list_insert, if_pos rfl]
      have hrest : ∀ b ∈ rest, Collected.Own cfg n
          { s with bidMap := s.bidMap.insert n (head :: rest) } b ∧ head.peer ≠ b.peer := by
        intro b hb
        have hmem : b ∈ list (s.bidMap.insert n (head :: rest)) n := by
          rw [hlist]
          exact .tail _ hb
        constructor
        · rcases hkept.origin n b hmem with ⟨hnamed, hbarred⟩ | ⟨halone, _⟩
          · exact ⟨hnamed, hbarred, fun m b' hb' => hkept.booked.across m n b' hb' b hmem⟩
          rw [hlist] at halone
          rw [(cons.inj halone).2] at hb
          cases hb
        have honce := hkept.booked.once n
        rw [hlist, map_cons, nodup_cons] at honce
        exact fun heq => honce.1 (heq ▸ mem_map_of_mem hb)
      obtain ⟨hnext, hshrinks⟩ := dropLoop_kept
        ((r.intn n % (s.bidMap.list n).length) / 2) (s.bidMap.list n).length 0 hkept hlist
        (fun b hb => hb) hrest
      refine ih hnext ?_
      intro m hm
      exact (hshrinks.mem m).mpr ((hs.mem m).mpr (hkeys m (.tail _ hm)))

end Residual

/-! ## Whole calls -/

section Runs

variable {c : Coordinator} {cfg : EnsembleConfig} {ts : GoMap GoString GoString}

theorem bookStep_kept {s : Collected} (step : BookStep) (h : s.Kept cfg)
    (hplaced : Placed c cfg ts s step) : (bookStep c cfg ts s step).Kept cfg := by
  cases step with
  | receive bid =>
    obtain ⟨heid, hadmissible, heq⟩ | ⟨_, heq⟩ := receive_cases c cfg ts bid s
    · obtain ⟨hnode, hpinned⟩ := hplaced heid hadmissible
      rw [bookStep, heq]
      exact h.add hadmissible hnode hpinned _
    · rw [bookStep, heq]
      exact h.receive _
  | residual r =>
    obtain ⟨s', heq, hkept⟩ := dropBids_kept r (r.order.visit s.bidMap.keys) h
      (fun n hn => r.order.mem_visit.mp hn)
    rw [bookStep, heq]
    exact hkept

theorem placed_iff_booked {s : Collected} (step : BookStep) (h : s.Kept cfg) :
    Placed c cfg ts s step ↔ (bookStep c cfg ts s step).Booked cfg := by
  constructor
  · exact fun hplaced => (bookStep_kept step h hplaced).booked
  intro hbooked
  cases step with
  | receive bid => exact placed_of_booked hbooked
  | residual r => trivial

/-- The book is in order after every step of a call exactly when the passed-in bids that it
begins with are and every bid that passes the checks is for a node. -/
theorem booked_iff_placed (c : Coordinator) (cfg : EnsembleConfig) (candidates : Candidate)
    (order : RangeOrder) (steps : List BookStep) :
    (∀ past, past <+: steps → (past.foldl (bookStep c cfg (nodeForTargetPeer order cfg))
        (opening (nodeForTargetPeer order cfg) cfg candidates)).Booked cfg) ↔
    Preloadable (nodeForTargetPeer order cfg) cfg candidates ∧
      Reach.Passes (Placed c cfg (nodeForTargetPeer order cfg))
        (bookStep c cfg (nodeForTargetPeer order cfg))
        (opening (nodeForTargetPeer order cfg) cfg candidates) steps := by
  have htargets : ∀ p n, (nodeForTargetPeer order cfg).lookup p = some n → PinnedTo cfg p n :=
    fun _ _ => pinnedTo_of_target
  refine (and_iff_right_of_imp fun h => preloadable_of_booked htargets
    (h [] nil_prefix)).symm.trans (and_congr_right fun hpre => Iff.symm ?_)
  have hkept := opening_kept htargets hpre
  exact Reach.passes_iff_forall (Collected.Kept cfg) (Collected.Booked cfg) steps hkept hkept.booked
    (fun _ step => placed_iff_booked step) (fun _ step => bookStep_kept step)

end Runs

/-! ## The steps of a call -/

theorem bid_run {c cfg cs exp} {inp : BidInputs} {round} (hmake : inp.initial.make = .ok ())
    (h : bid c cfg cs exp inp = some round) : ∃ steps : List BookStep, round.collected =
      steps.foldl (bookStep c cfg (nodeForTargetPeer inp.order cfg))
        (opening (nodeForTargetPeer inp.order cfg) cfg cs) := by
  let Run (s : Collected) : Prop := ∃ steps : List BookStep, s =
    steps.foldl (bookStep c cfg (nodeForTargetPeer inp.order cfg))
      (opening (nodeForTargetPeer inp.order cfg) cfg cs)
  have hreceive : ∀ bid s, Run s → Run (receive c cfg (nodeForTargetPeer inp.order cfg) bid s) :=
    fun bid _ ⟨steps, heq⟩ => ⟨steps ++ [.receive bid], by rw [foldl_concat, ← heq]; rfl⟩
  have hdrop : ∀ (r : Residual) s s', Run s →
      dropBids r (r.order.visit s.bidMap.keys) s = some s' → Run s' := by
    rintro r s s' ⟨steps, heq⟩ hdropped
    refine ⟨steps ++ [.residual r], ?_⟩
    rw [foldl_concat, ← heq, bookStep, hdropped, Option.getD_some]
  unfold bid at h
  rw [hmake] at h
  dsimp only at h
  split at h
  · obtain rfl := Option.some.inj h
    exact ⟨[], rfl⟩
  have hstart := collectBids_invariant hreceive
    (maxBidMultiplier * cfg.nodes.keys.length) inp.initial.arriving 0 ⟨[], rfl⟩
  split at h
  · simp at h
  · next s e hgather =>
    obtain rfl := Option.some.inj h
    exact (gather_invariant hreceive hdrop _ hstart hgather).1
  rename_i s g hgather
  rw [search_collected _ h]
  exact (gather_invariant hreceive hdrop _ hstart hgather).1

def sampleResidual : Residual := ⟨1, .stored, fun _ => .stored, fun _ => 0, sampleRequest []⟩

def sampleBook (nodes : List (String × String × Int)) (excludePeers : List String)
    (candidates : Candidate) (steps : List BookStep) : Collected :=
  let cfg := sampleEnsemble nodes excludePeers
  let targets := nodeForTargetPeer .stored cfg
  steps.foldl (bookStep sampleCoordinator cfg targets) (opening targets cfg candidates)

/-- A bid is listed for a node in another spelling. A peer that is excluded twice has its
passed-in bid listed twice; dropping one of them ends the exclusion. -/
theorem book_out_of_order :
    ¬ (sampleBook [("a", "", 1)] [] ∅ [.receive (sampleBid "a-standby-01" "q")]).Booked
      (sampleEnsemble [("a", "", 1)] []) ∧ ¬ (sampleBook [("a", "p", 0), ("b", "", 0)] ["p", "p"]
        ((∅ : Candidate).insert (ascii "a") (sampleBid "a" "p"))
        [.residual sampleResidual, .receive (sampleBid "a" "p")]).Booked
      (sampleEnsemble [("a", "p", 0), ("b", "", 0)] ["p", "p"]) := by
  constructor
  · intro h
    exact absurd (h.keys (ascii "a-standby-01") (by decide)) (by decide)
  · intro h
    exact absurd (h.barred (sampleBid "a" "p") (by decide)) (by decide)

end DMS.Orchestrator
