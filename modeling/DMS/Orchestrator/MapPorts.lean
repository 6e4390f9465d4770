import DMS.Core.Reach
import DMS.Core.GoMap
import DMS.Jobs.Manifest
import Mathlib.Data.List.Perm.Basic

/-! # The goroutines of `mapPorts`

The last stage of provisioning a subnet in `dms/orchestrator/subnet.go`: one goroutine for each
port of each request. Each one sends at most one error to a channel with a place for every
request, and the channel is read when all goroutines are done.
-/

namespace DMS.Orchestrator

open Jobs List Option

structure SubnetRequest where
  handle : Handle
  ip : GoString
  ports : GoMap Int Int

structure SubnetMapPortRequest where
  subnetID : GoString
  protocol : String
  sourceIP : String
  sourcePort : String
  destIP : GoString
  destPort : String

/-- What becomes of an invocation. The `select` waits for two minutes at most. -/
inductive MapPortReply
  | noMessage (err : String)
  | notInvoked (err : String)
  | garbled (err : String)
  | answered (ok : Bool) (err : String)
  | timeout

def MapPortReply.error : MapPortReply → Option String
  | .noMessage err => some ("error creating subnet MapPort message: " ++ err)
  | .notInvoked err => some ("error invoking subnet MapPort message: " ++ err)
  | .garbled err => some ("error unmarshalling subnet add-peer response: " ++ err)
  | .answered false err =>
    some ("error adding peer to subnet: " ++ err ++ ": failed to create deployment")
  | .answered true _ => none
  | .timeout => some "timeout mapping port for subnet: failed to create deployment"

/-- A goroutine before its invocation, with the reply it is going to get. -/
structure MapPortCall where
  dest : Handle
  request : SubnetMapPortRequest
  reply : MapPortReply

def mapPortCalls (manifestID : GoString) (subReqs : List SubnetRequest) (order : RangeOrder)
    (replies : Nat → MapPortReply) : List MapPortCall :=
  let requests := subReqs.flatMap fun req => (order.visit req.ports.entries).map fun e =>
    (req.handle, (⟨manifestID, "TCP", "0.0.0.0", toString e.2, req.ip, toString e.1⟩ :
      SubnetMapPortRequest))
  requests.zipIdx.map fun r => ⟨r.1.1, r.1.2, replies r.2⟩

def failures (calls : List MapPortCall) : List String := calls.filterMap (·.reply.error)

def aggregateErrors (errCh : List String) : Option String :=
  errCh.foldl (fun aggErr err => match aggErr with
    | none => some err
    | some text => some (text ++ "\n" ++ err)) none

/-- A run of `mapPorts`: the goroutines without a reply, also those yet to be started, the errors
of those that are about to send, the channel, and what it returned. -/
structure MapPorts where
  invoking : List MapPortCall
  sending : List String
  errCh : List String
  returned : Option (Option String)

inductive MapPortsMove
  | reply (i : Nat)
  | send (i : Nat)
  | finish

namespace MapPorts

/-- A send waits for a place in the channel, `wg.Wait` for all goroutines. -/
def move (capacity : Nat) (s : MapPorts) : MapPortsMove → Option MapPorts
  | .reply i => s.invoking[i]?.map fun call =>
      { s with invoking := s.invoking.eraseIdx i, sending := s.sending ++ call.reply.error.toList }
  | .send i => s.sending[i]?.bind fun err =>
      if s.errCh.length < capacity then
        some { s with sending := s.sending.eraseIdx i, errCh := s.errCh ++ [err] }
      else none
  | .finish =>
      if s.invoking = [] ∧ s.sending = [] ∧ s.returned = none then
        some { s with returned := some (aggregateErrors s.errCh) }
      else none

def Moves (capacity : Nat) (s t : MapPorts) : Prop := ∃ m, s.move capacity m = some t

/-- No goroutine is left, and there is an error if and only if an invocation failed. -/
def Finished (calls : List MapPortCall) (s : MapPorts) : Prop := s.invoking = [] ∧ s.sending = [] ∧
    ∃ err, s.returned = some err ∧ (err ≠ none ↔ ∃ call ∈ calls, call.reply.error ≠ none)

theorem aggregateErrors_eq_none {errCh} : aggregateErrors errCh = none ↔ errCh = [] := by
  cases errCh with
  | nil => exact iff_of_true rfl rfl
  | cons err errs =>
    refine iff_of_false ?_ (cons_ne_nil err errs)
    refine List.foldlRecOn (motive := (· ≠ none)) errs _ (some_ne_none err) fun aggErr _ e _ => ?_
    cases aggErr <;> exact some_ne_none _

theorem failures_eraseIdx {calls i call}
    (h : calls[i]? = some call) : call.reply.error.toList.length +
      (failures (calls.eraseIdx i)).length = (failures calls).length := by
  obtain ⟨hi, rfl⟩ := List.getElem?_eq_some_iff.mp h
  have hperm := (getElem_cons_eraseIdx_perm hi).filterMap (·.reply.error)
  rw [failures, failures, ← hperm.length_eq, filterMap_cons]
  cases calls[i].reply.error with
  | none => simp
  | some err => simp [Nat.add_comm]

/-- Every failed invocation is on its way to the channel or in it. -/
structure Counted (capacity : Nat) (calls : List MapPortCall) (s : MapPorts) : Prop where
  errors : (failures s.invoking).length + s.sending.length + s.errCh.length =
    (failures calls).length
  fits : s.errCh.length ≤ capacity
  returned : ∀ err, s.returned = some err →
    s.invoking = [] ∧ s.sending = [] ∧ err = aggregateErrors s.errCh

def left (s : MapPorts) : Nat :=
  2 * s.invoking.length + s.sending.length + if s.returned = none then 1 else 0

section

variable {capacity : Nat} {calls : List MapPortCall} {s t : MapPorts}

theorem Counted.running (h : Counted capacity calls s)
    (hbusy : s.invoking ≠ [] ∨ s.sending ≠ []) : s.returned = none := by
  rw [eq_none_iff_forall_ne_some]
  intro err hreturned
  obtain ⟨hinvoking, hsending, -⟩ := h.returned err hreturned
  exact hbusy.elim (· hinvoking) (· hsending)

theorem Counted.move (h : Counted capacity calls s) (hmove : s.Moves capacity t) :
    Counted capacity calls t ∧ t.left < s.left := by
  obtain ⟨m, hmove⟩ := hmove
  have herrors := h.errors
  cases m with
  | reply i =>
    obtain ⟨call, hcall, rfl⟩ := map_eq_some_iff.mp hmove
    have hlength := length_eraseIdx_add_one (List.getElem?_eq_some_iff.mp hcall).1
    have hrun := h.running (.inl (ne_nil_of_length_pos (by omega)))
    have hone := length_toList_le (o := call.reply.error)
    refine ⟨⟨?_, h.fits, by simp [hrun]⟩, by simp [left]; omega⟩
    have hcount := failures_eraseIdx hcall
    simp only [length_append]
    omega
  | send i =>
    obtain ⟨err, herr, hsend⟩ := bind_eq_some_iff.mp hmove
    have hlength := length_eraseIdx_add_one (List.getElem?_eq_some_iff.mp herr).1
    have hrun := h.running (.inr (ne_nil_of_length_pos (by omega)))
    obtain ⟨hplace, hsend⟩ := ite_none_right_eq_some.mp hsend
    cases hsend
    refine ⟨⟨?_, ?_, by simp [hrun]⟩, by simp [left]; omega⟩
    · simp only [length_append, length_singleton]
      omega
    · simpa [Nat.succ_le_iff] using hplace
  | finish =>
    obtain ⟨⟨hinvoking, hsending, hrun⟩, hmove⟩ := ite_none_right_eq_some.mp hmove
    cases hmove
    refine ⟨⟨herrors, h.fits, fun err herr => ?_⟩, by simp [left, hrun]⟩
    exact ⟨hinvoking, hsending, (some.inj herr).symm⟩

theorem Counted.finished (h : Counted capacity calls s) {err}
    (hreturned : s.returned = some err) : s.Finished calls := by
  obtain ⟨hinvoking, hsending, rfl⟩ := h.returned err hreturned
  refine ⟨hinvoking, hsending, _, hreturned, ?_⟩
  have herrors := h.errors
  rw [hinvoking, hsending] at herrors
  have hnil : s.errCh = [] ↔ failures calls = [] := by
    rw [← length_eq_zero_iff, ← length_eq_zero_iff, ← herrors]
    simp [failures]
  simpa [failures] using (aggregateErrors_eq_none.trans hnil).not

theorem Counted.goes (h : Counted capacity calls s) (hcap : (failures calls).length ≤ capacity) :
    (∃ t, s.Moves capacity t) ∨ s.Finished calls := by
  have herrors := h.errors
  cases hinvoking : s.invoking with
  | cons call rest => exact .inl ⟨_, .reply 0, by rw [MapPorts.move, hinvoking]; rfl⟩
  | nil =>
    cases hsending : s.sending with
    | cons err rest =>
      have hplace : s.errCh.length < capacity := by
        rw [hsending, length_cons] at herrors
        omega
      exact .inl ⟨_, .send 0, by rw [MapPorts.move, hsending]; exact if_pos hplace⟩
    | nil =>
      cases hreturned : s.returned with
      | some err => exact .inr (h.finished hreturned)
      | none => exact .inl ⟨_, .finish, if_pos ⟨hinvoking, hsending, hreturned⟩⟩

theorem Counted.start (capacity : Nat) (calls : List MapPortCall) :
    Counted capacity calls ⟨calls, [], [], none⟩ :=
  ⟨rfl, Nat.zero_le _, nofun⟩

theorem failures_le_of_completes
    (h : Completes (Moves capacity) (Finished calls) ⟨calls, [], [], none⟩) :
    (failures calls).length ≤ capacity := by
  obtain ⟨t, hcounted, hinvoking, hsending, -⟩ :=
    h.exists_good (Counted capacity calls) (fun _ _ hc hm => (hc.move hm).1) (.start capacity calls)
  rw [← hcounted.errors, hinvoking, hsending]
  simpa [failures] using hcounted.fits

end

end MapPorts

/-- `mapPorts` and its goroutines come to an end, with an error if and only if an invocation
failed, exactly when no more invocations fail than there are requests. -/
theorem mapPorts_completes_iff (manifestID : GoString) (subReqs : List SubnetRequest)
    (order : RangeOrder) (replies : Nat → MapPortReply) :
    let calls := mapPortCalls manifestID subReqs order replies
    Completes (MapPorts.Moves subReqs.length) (MapPorts.Finished calls)
        ⟨calls, [], [], none⟩ ↔
      (failures calls).length ≤ subReqs.length := by
  intro calls
  refine ⟨MapPorts.failures_le_of_completes, fun hcap => ?_⟩
  exact Completes.of_measure (MapPorts.Counted subReqs.length calls) MapPorts.left
    (fun _ _ h hmove => h.move hmove) (fun _ h => h.goes hcap) (.start _ calls)

/-- One request with two ports, and no reply to either. -/
theorem mapPorts_hangs : let subReqs : List SubnetRequest :=
      [⟨.zero, ascii "10.0.0.2", ((∅ : GoMap Int Int).insert 80 80).insert 443 443⟩]
    let calls := mapPortCalls (ascii "e") subReqs .stored fun _ => .timeout
    ¬ Completes (MapPorts.Moves subReqs.length) (MapPorts.Finished calls)
      ⟨calls, [], [], none⟩ := by
  intro subReqs calls h
  exact absurd (MapPorts.failures_le_of_completes h) (by decide)

end DMS.Orchestrator
