import DMS.Network.ProxiedConns

/-! # The routing table of a subnet

`network/libp2p/rtable.go`. The addresses of a peer are in one index, and the peer of an address
in the other one.
-/

namespace DMS.Network

open GoMap AList

namespace RoutingTable

def new : RoutingTable := ⟨∅, ∅⟩

/-- A peer that is not known gets a list, which the address then goes into. -/
def add (peerID : PeerID) (addr : GoString) (rt : RoutingTable) : RoutingTable :=
  if addr ∈ rt.idx.list peerID then rt
  else ⟨rt.idx.push peerID addr, rt.revIdx.insert addr peerID⟩

def remove (peerID : PeerID) (ip : GoString) (rt : RoutingTable) : RoutingTable :=
  match rt.idx.lookup peerID with
  | none => rt
  | some addrs =>
    let addrs := addrs.filter (· ≠ ip)
    { idx := if addrs = [] then rt.idx.erase peerID else rt.idx.insert peerID addrs
      revIdx := rt.revIdx.erase ip }

def removeByIP (addr : GoString) (rt : RoutingTable) : RoutingTable :=
  match rt.revIdx.lookup addr with
  | none => rt
  | some peerID => ⟨rt.idx.erase peerID, rt.revIdx.erase addr⟩

inductive Op
  | add (peerID : PeerID) (addr : GoString)
  | remove (peerID : PeerID) (ip : GoString)
  | removeByIP (addr : GoString)
  | clear

def step (rt : RoutingTable) : Op → RoutingTable
  | .add peerID addr => rt.add peerID addr
  | .remove peerID ip => rt.remove peerID ip
  | .removeByIP addr => rt.removeByIP addr
  | .clear => new

structure Agrees (rt : RoutingTable) : Prop where
  index : ∀ peerID addr, addr ∈ rt.idx.list peerID ↔ rt.getByIP addr = some peerID
  full : ∀ peerID, rt.idx.lookup peerID ≠ some []

/-- An address is not given to a second peer and not taken from a peer that does not hold it,
and `RemoveByIP` meets a peer without other addresses. -/
def Rightful (rt : RoutingTable) : Op → Prop
  | .add peerID addr => ∀ p, rt.getByIP addr = some p → p = peerID
  | .remove peerID ip => peerID ∈ rt.idx → ∀ p, rt.getByIP ip = some p → p = peerID
  | .removeByIP addr => ∀ p a, rt.getByIP addr = some p → rt.getByIP a = some p → a = addr
  | .clear => True

variable {rt : RoutingTable}

theorem Agrees.full_insert (h : rt.Agrees) {p} {l : List GoString} (hl : l ≠ []) (q : GoString) :
    (rt.idx.insert p l).lookup q ≠ some [] := by
  intro hq
  rcases lookup_insert_cases hq with ⟨-, hnil⟩ | ⟨-, hold⟩
  · exact hl hnil.symm
  · exact h.full q hold

theorem rightful_add (h : rt.Agrees) (p a : GoString) :
    rt.Rightful (.add p a) ↔ (rt.add p a).Agrees := by
  unfold add
  split
  · next hin =>
    refine iff_of_true (fun q hq => ?_) h
    exact Option.some.inj (hq.symm.trans ((h.index p a).mp hin))
  constructor
  · refine fun hrightful => ⟨fun q b => ?_, h.full_insert (by simp)⟩
    rw [mem_list_push, h.index]
    by_cases hb : b = a
    · subst hb
      simp only [getByIP, lookup_insert, Option.some.injEq, true_and, eq_comm]
      exact or_iff_right_of_imp fun hq => (hrightful q hq.symm).symm
    · simp [getByIP, lookup_insert_ne hb, hb]
  intro hagrees q hq
  have hnow := (hagrees.index q a).mp (mem_list_push.mpr (.inl ((h.index q a).mpr hq)))
  exact Option.some.inj (hnow.symm.trans (lookup_insert _))

/-- When the lists lose the addresses that are `gone` and the other index loses `a`, they agree
again exactly when `a` is what is gone. -/
theorem agrees_erase_iff (h : rt.Agrees) {idx a} (gone : GoString → GoString → Prop)
    (hlist : ∀ q b, b ∈ list idx q ↔ b ∈ rt.idx.list q ∧ ¬ gone q b)
    (hfull : ∀ q, idx.lookup q ≠ some []) :
    Agrees ⟨idx, rt.revIdx.erase a⟩ ↔ ∀ q b, rt.getByIP b = some q → (gone q b ↔ b = a) := by
  have herase (q b : GoString) : (rt.revIdx.erase a).lookup b = some q ↔
      rt.getByIP b = some q ∧ b ≠ a := by
    refine ⟨fun hb => (lookup_of_erase hb).symm, fun hb => ?_⟩
    rw [lookup_erase_ne hb.2]
    exact hb.1
  refine ⟨fun hagrees q b hb => ?_, fun hgone => ⟨fun q b => ?_, hfull⟩⟩
  · have hindex := hagrees.index q b
    rw [getByIP, hlist, herase, h.index, and_congr_right_iff] at hindex
    exact not_iff_not.mp (hindex hb)
  · rw [getByIP, hlist, herase, h.index, and_congr_right_iff]
    exact fun hb => not_congr (hgone q b hb)

theorem rightful_remove (h : rt.Agrees) (p a : GoString) :
    rt.Rightful (.remove p a) ↔ (rt.remove p a).Agrees := by
  unfold remove
  split
  · next hnone => exact iff_of_true (fun hin => absurd hin (lookup_eq_none.mp hnone)) h
  rename_i addrs haddrs
  rw [agrees_erase_iff h fun q b => q = p ∧ b = a]
  · have hin := mem_of_lookup haddrs
    refine ⟨fun hrightful q b hq => and_iff_right_of_imp fun hb => hrightful hin q (hb ▸ hq), ?_⟩
    exact fun hgone _ q hq => ((hgone q a hq).mpr rfl).1
  · intro q b
    have hlist : list (if addrs.filter (· ≠ a) = [] then rt.idx.erase p
        else rt.idx.insert p (addrs.filter (· ≠ a))) q =
          if q = p then addrs.filter (· ≠ a) else rt.idx.list q := by
      split
      · next hempty => rw [list_erase, hempty]
      · rw [list_insert]
    rw [hlist]
    split <;> next heq => simp [heq, list_of_lookup haddrs]
  split
  · exact fun q hq => h.full q (lookup_of_erase hq).2
  · next hsome => exact h.full_insert hsome

theorem rightful_removeByIP (h : rt.Agrees) (a : GoString) :
    rt.Rightful (.removeByIP a) ↔ (rt.removeByIP a).Agrees := by
  unfold removeByIP
  split
  · next hnone => exact iff_of_true (fun _ _ hp => nomatch hnone.symm.trans hp) h
  rename_i p hp
  rw [agrees_erase_iff h fun q _ => q = p]
  · constructor
    · refine fun hrightful q b hq => ⟨fun heq => hrightful p b hp (heq ▸ hq), ?_⟩
      rintro rfl
      exact Option.some.inj (hq.symm.trans hp)
    intro hgone q b hq hb
    cases hp.symm.trans hq
    exact (hgone p b hb).mp rfl
  · intro q b
    rw [list_erase]
    split <;> next heq => simp [heq]
  · exact fun q hq => h.full q (lookup_of_erase hq).2

theorem new_agrees : new.Agrees := ⟨fun p a => by simp [new, getByIP], fun p => by simp [new]⟩

/-- The indices agree along a run exactly when every operation is rightful. `RemoveByIP` changes
no other answer of `GetByIP` in any case. -/
theorem indices_agree_iff (ops : List Op) :
    ((∀ past, past <+: ops → (past.foldl step new).Agrees) ↔ Reach.Passes Rightful step new ops) ∧
      ∀ (rt : RoutingTable) (addr a : GoString), a ≠ addr →
        (rt.removeByIP addr).getByIP a = rt.getByIP a := by
  have hstep (rt : RoutingTable) op (h : rt.Agrees) : rt.Rightful op ↔ (rt.step op).Agrees := by
    cases op with
    | add p a => exact rightful_add h p a
    | remove p a => exact rightful_remove h p a
    | removeByIP a => exact rightful_removeByIP h a
    | clear => exact iff_of_true trivial new_agrees
  refine ⟨(Reach.passes_iff_forall Agrees Agrees ops new_agrees new_agrees hstep
    fun rt op h => (hstep rt op h).mp).symm, fun rt addr a hne => ?_⟩
  unfold removeByIP
  split
  · rfl
  · exact lookup_erase_ne hne

/-- An address that is given to a second peer stays with the first, and a peer loses all its
addresses with one. -/
theorem indices_drift : let taken := (new.add [1] (ascii "10.0.0.2")).add [2] (ascii "10.0.0.2")
    let dropped := ((new.add [1] (ascii "10.0.0.2")).add [1] (ascii "10.0.0.3")).removeByIP
      (ascii "10.0.0.2")
    (taken.idx.list [1] = [ascii "10.0.0.2"] ∧ taken.getByIP (ascii "10.0.0.2") = some [2]) ∧
      dropped.getByIP (ascii "10.0.0.3") = some [1] ∧ dropped.idx.list [1] = [] := by
  decide

end RoutingTable

end DMS.Network
