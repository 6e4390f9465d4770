import DMS.Core.Bookings
import DMS.Tokenomics.OverlappingBilling
import DMS.Tokenomics.PeriodicTiling

/-! # Usage on two invoices

The stored time of a contract is a mark: what lies before it has been billed. Runs that overlap
bill nothing twice as long as each of them finds the mark where it read it, moves it as far as its
invoice goes, and no invoice has been forwarded meanwhile without the mark being moved.
-/

namespace DMS.Tokenomics

open Bookings BillingHost Billing List

def UsageData.spans (usage : UsageData) (since upTo : GoTime) : List (GoTime × GoTime) :=
  match usage with
  | .payPerAllocation _ => []
  | .payPerDeployment _ => []
  | .payPerTimeUtilization _ => [(since, upTo)]
  | .payPerResourceUtilization _ => [(since, upTo)]
  | .fixedRental rental => [(rental.periodStart, rental.periodEnd)]
  | .periodic billed => billed.deployments.map fun d => (d.effectiveStart, d.effectiveEnd)

namespace Billing

def spans (bill : Billing) : List (GoTime × GoTime) := bill.usage.spans bill.since bill.upTo

def Covers (bill : Billing) (x : Int) : Prop := ∃ w ∈ bill.spans, w.1 ≤ x ∧ x < w.2

/-- An instant of usage or a start event is on both. -/
def Shares (b b' : Billing) : Prop :=
  (∃ x, b.Covers x ∧ b'.Covers x) ∨ ∃ u ∈ b.counted, u ∈ b'.counted

structure Begins (bill : Billing) (mark : Int) : Prop where
  spans : ∀ w ∈ bill.spans, mark ≤ w.1
  counted : ∀ u ∈ bill.counted, mark ≤ u.timestamp

structure Ends (bill : Billing) (mark : Int) : Prop where
  spans : ∀ w ∈ bill.spans, w.2 ≤ mark
  counted : ∀ u ∈ bill.counted, u.timestamp < mark

instance (bill : Billing) (mark : Int) : Decidable (bill.Ends mark) :=
  decidable_of_iff ((∀ w ∈ bill.spans, w.2 ≤ mark) ∧ ∀ u ∈ bill.counted, u.timestamp < mark)
    ⟨fun h => ⟨h.1, h.2⟩, fun h => ⟨h.spans, h.counted⟩⟩

def extent : Extent Billing where
  begins := Begins
  ends := Ends
  shares := Shares
  symm h := by
    rcases h with ⟨x, hb, hb'⟩ | ⟨u, hu, hu'⟩
    · exact .inl ⟨x, hb', hb⟩
    · exact .inr ⟨u, hu', hu⟩
  mono h hle := ⟨fun w hw => Int.le_trans (h.spans w hw) hle,
      fun u hu => Int.lt_of_lt_of_le (h.counted u hu) hle⟩
  apart hends hbegins hshares := by
    rcases hshares with ⟨x, ⟨w, hw, hlo, hhi⟩, ⟨w', hw', hlo', hhi'⟩⟩ | ⟨u, hu, hu'⟩
    · have hend := hends.spans w hw
      have hbegin := hbegins.spans w' hw'
      unfold GoTime at *
      omega
    have hend := hends.counted u hu
    have hbegin := hbegins.counted u hu'
    unfold GoTime at *
    omega

/-- The usage goes in one request. -/
def undivided (bill : Billing) : Bool :=
  match bill.usage with
  | .periodic _ => false
  | _ => true

theorem part_eq_some {bill part : Billing} {periodic sent}
    (husage : bill.usage = .periodic periodic) (hsent : ∀ d ∈ sent, d ∈ periodic.deployments)
    (h : bill.part periodic sent = some part) :
    part.counted = bill.counted ∧ ∀ w ∈ part.spans, w ∈ bill.spans := by
  obtain ⟨-, ⟨⟩⟩ := Option.ite_none_left_eq_some.mp h
  refine ⟨rfl, fun w hw => ?_⟩
  unfold spans UsageData.spans at hw ⊢
  rw [husage]
  obtain ⟨d, hd, rfl⟩ := mem_map.mp hw
  exact mem_map_of_mem (hsent d hd)

end Billing

theorem PeriodicProcessor.queryStart_le {order : RangeOrder}
    {windows : GoMap GoString DeploymentWindow} {lo hi now : Int} {d : DeploymentTime}
    (h : d ∈ calculateDeploymentTimeUtilization order windows lo hi now) :
    lo ≤ d.effectiveStart := by
  obtain ⟨e, -, hd⟩ := mem_filterMap.mp h
  unfold deploymentTime at hd
  dsimp only at hd
  rw [calculateEffectiveTime_eq] at hd
  split at hd
  · cases hd
  rename_i effectiveStart effectiveEnd heffective
  obtain ⟨-, ⟨⟩⟩ := Option.ite_none_right_eq_some.mp heffective
  obtain ⟨-, ⟨⟩⟩ := Option.ite_none_left_eq_some.mp hd
  exact Int.le_max_right _ _

variable {P : Platform} {s : UsageStore} {q : QueryInputs} {c : Contract} {last now : GoTime}

theorem Source.model_of_periodic {billed} (h : Source P s q c last now (.periodic billed)) :
    c.paymentDetails.paymentModel = .periodic := by
  cases h with
  | checked h =>
    unfold processorCheck at h
    cases hmodel : c.paymentDetails.paymentModel with
    | periodic => rfl
    | other name =>
      rw [hmodel] at h
      cases h
    | _ =>
      rw [hmodel] at h
      obtain ⟨_, _, ⟨⟩⟩ := Outcome.map_eq_ok.mp h
  | proRatedPeriodic hmodel _ _ => exact hmodel

theorem le_billedInterval {p}
    (hp : parsePaymentPeriod c.paymentDetails.paymentPeriod = .ok p) (last now : Int) :
    last ≤ (c.billedInterval p last now).1 := by
  unfold Contract.billedInterval
  dsimp only
  split
  · exact le_nextBoundary (parsePaymentPeriod_pos hp)
  · exact Int.le_refl _

variable {usage : UsageData}

theorem Source.since_le (h : Source P s q c last now usage) :
    ∀ w ∈ usage.spans last now, last ≤ w.1 := by
  intro w hw
  cases usage with
  | payPerAllocation n | payPerDeployment n => cases hw
  | payPerTimeUtilization deployments | payPerResourceUtilization deployments =>
    exact Int.le_of_eq (congrArg Prod.fst (mem_singleton.mp hw)).symm
  | fixedRental rental =>
    obtain ⟨p, hdue⟩ := h.due
    have hstart := le_billedInterval hdue.parses last now
    rw [mem_singleton.mp hw]
    rwa [← hdue.covers] at hstart
  | periodic billed =>
    obtain ⟨p, billed', hp, ⟨⟩, hdeployments⟩ := deployments_of_source h h.model_of_periodic
    obtain ⟨d, hd, rfl⟩ := mem_map.mp hw
    rw [hdeployments] at hd
    exact Int.le_trans (le_billedInterval hp last now) (PeriodicProcessor.queryStart_le hd)

theorem since_le_of_collectUsages (h : collectUsages P s q c last now = .ok usage) :
    ∀ w ∈ usage.spans last now, last ≤ w.1 := by
  have hspans : ∀ w ∈ usage.spans last now, w = (last, now) := by
    obtain ⟨-, h⟩ := Outcome.ite_error_eq_ok.mp h
    cases hmodel : c.paymentDetails.paymentModel with
    | payPerAllocation | payPerDeployment =>
      rw [hmodel] at h
      obtain ⟨n, -, rfl⟩ := Outcome.map_eq_ok.mp h
      exact fun w hw => absurd hw not_mem_nil
    | payPerTimeUtilization | payPerResourceUtilization =>
      rw [hmodel] at h
      obtain ⟨deployments, -, rfl⟩ := Outcome.map_eq_ok.mp h
      exact fun w hw => mem_singleton.mp hw
    | fixedRental | periodic | other name =>
      rw [hmodel] at h
      cases h
  exact fun w hw => Int.le_of_eq (congrArg Prod.fst (hspans w hw)).symm

namespace BillingTask

/-- What the run has forwarded, as long as it has not saved the time, and the second it will
save. -/
def pending : BillingTask → Option (Billing × Int)
  | .dividing bill periodic sent _ =>
    (bill.part periodic sent).map fun part => (part, GoTime.wholeSeconds bill.upTo)
  | .marking bill t => bill.map fun bill => (bill, GoTime.wholeSeconds t)
  | _ => none

def owed : BillingTask → Option Billing
  | .owing bill => some bill
  | _ => none

theorem pending_sent (task : BillingTask) : task.pending.map Prod.fst = task.sent := by
  cases task with
  | dividing bill periodic sent rest => simp [pending, BillingTask.sent, Function.comp_def]
  | marking bill t => simp [pending, BillingTask.sent, Function.comp_def]
  | _ => rfl

/-- The usage that the run has found is for no time before the one it has read. -/
def Drawn : BillingTask → Prop
  | .sending bill => ∀ w ∈ bill.spans, bill.since ≤ w.1
  | .dividing bill periodic sent rest => (∀ w ∈ bill.spans, bill.since ≤ w.1) ∧
    bill.usage = .periodic periodic ∧ ∀ d ∈ sent ++ rest, d ∈ periodic.deployments
  | .reserving (some bill) _ => ∀ w ∈ bill.spans, bill.since ≤ w.1
  | _ => True

end BillingTask

namespace BillingHost

def BilledOnce (s : BillingHost) : Prop := s.forwarded.Pairwise fun b b' => ¬ b.Shares b'

/-- The run at a position may bill: the stored time is the one it has read, no other run has
forwarded an invoice and not yet saved a time, and the invoice is within the stored time and the
second that will be saved. -/
structure MayBill (s : BillingHost) (k : Nat) (bill : Billing) (t : GoTime) : Prop where
  read : bill.since = s.mark
  settled : ∀ task ∈ s.tasks.eraseIdx k, task.pending = none
  stamped : ∀ u ∈ bill.counted, bill.since ≤ u.timestamp
  ends : bill.Ends (GoTime.wholeSeconds t)

/-- What a run does next keeps to the mark: a check that forwards, and a collection that saves,
may bill; no save moves the mark back; and one after an invoice succeeds. -/
def KeepsMark (k : Nat) (i : CheckInputs) (s : BillingHost) : BillingTask → Prop
  | .sending bill =>
    bill.undivided = true → i.forwards [] = true → s.MayBill k bill bill.upTo
  | .dividing bill _ _ rest => ∀ deployment ∈ rest.head?,
    i.forwards deployment.deploymentID = true → s.MayBill k bill bill.upTo
  | .marking bill t =>
    (bill.isSome = true → i.saves = true) ∧ (i.saves = true → s.mark ≤ GoTime.wholeSeconds t)
  | .reserving bill t =>
    i.saves = true → s.mark ≤ GoTime.wholeSeconds t ∧ ∀ b ∈ bill, s.MayBill k b t
  | _ => True

def Orderly (s : BillingHost) : BillingStep → Prop
  | .act k i => ∀ task ∈ s.tasks[k]?, s.KeepsMark k i task
  | _ => True

instance decidableMayBill (s : BillingHost) (k : Nat) (bill : Billing) (t : GoTime) :
    Decidable (s.MayBill k bill t) :=
  decidable_of_iff (bill.since = s.mark ∧ (∀ task ∈ s.tasks.eraseIdx k, task.pending = none) ∧
      (∀ u ∈ bill.counted, bill.since ≤ u.timestamp) ∧ bill.Ends (GoTime.wholeSeconds t))
    ⟨fun h => ⟨h.1, h.2.1, h.2.2.1, h.2.2.2⟩, fun h => ⟨h.read, h.settled, h.stamped, h.ends⟩⟩

instance decidableKeepsMark (k : Nat) (i : CheckInputs) (s : BillingHost) :
    ∀ task : BillingTask, Decidable (s.KeepsMark k i task)
  | .sending bill => inferInstanceAs (Decidable (_ → _ → s.MayBill k bill bill.upTo))
  | .dividing bill _ _ rest =>
    inferInstanceAs (Decidable (∀ _ ∈ rest.head?, _ → s.MayBill k bill bill.upTo))
  | .marking _ _ => inferInstanceAs (Decidable ((_ → _) ∧ (_ → _)))
  | .reserving _ t =>
    inferInstanceAs (Decidable (_ → _ ∧ ∀ b ∈ _, s.MayBill k b t))
  | .checking _ | .checkingSince _ _ | .collecting _ _ | .collectingSince _ _ _ | .owing _ =>
    .isTrue trivial

instance decidableOrderly (s : BillingHost) : ∀ turn : BillingStep, Decidable (s.Orderly turn)
  | .act k i => inferInstanceAs (Decidable (∀ task ∈ s.tasks[k]?, s.KeepsMark k i task))
  | .check | .collect _ | .change _ | .record _ => .isTrue trivial

/-- The host as a book, for its runs in any order. -/
def bookOf (s : BillingHost) (tasks : List BillingTask) : Book Billing :=
  ⟨s.mark, s.done ++ tasks.filterMap BillingTask.owed, tasks.filterMap BillingTask.pending⟩

theorem forwarded_sublist_booked (s : BillingHost) : s.forwarded <+ (s.bookOf s.tasks).booked := by
  have hsent : (s.tasks.filterMap BillingTask.pending).map Prod.fst =
      s.tasks.filterMap BillingTask.sent := by
    rw [map_filterMap]
    exact congrArg (filterMap · s.tasks) (funext BillingTask.pending_sent)
  unfold forwarded Book.booked bookOf
  rw [hsent]
  exact (sublist_append_left _ _).append_right _

theorem bookOf_perm {s : BillingHost} {tasks tasks' : List BillingTask} (hperm : tasks.Perm tasks')
    (h : Kept Billing.extent (s.bookOf tasks)) : Kept Billing.extent (s.bookOf tasks') :=
  h.of_subperm rfl ((hperm.symm.filterMap _).append_left _).subperm
    (hperm.symm.filterMap _).subperm

/-- What holds between the steps of an orderly run. -/
structure Accounted (s : BillingHost) : Prop where
  book : Kept Billing.extent (s.bookOf s.tasks)
  drawn : ∀ task ∈ s.tasks, task.Drawn

section Act

variable {s s' : BillingHost} {k : Nat} {task next : BillingTask}

theorem mark_save (t : GoTime) (s : BillingHost) : (s.save t).mark = GoTime.wholeSeconds t :=
  UsageStore.getLastProcessedAt_save ..

theorem Accounted.book_cons (h : s.Accounted) (hk : s.tasks[k]? = some task) :
    Kept Billing.extent (s.bookOf (task :: s.tasks.eraseIdx k)) := by
  obtain ⟨hlt, rfl⟩ := List.getElem?_eq_some_iff.mp hk
  exact bookOf_perm (getElem_cons_eraseIdx_perm hlt).symm h.book

theorem accounted_finish (h : s.Accounted) (htasks : s'.tasks = s.tasks)
    (hbook : Kept Billing.extent (s'.bookOf (s.tasks.eraseIdx k))) : (s'.finish k).Accounted := by
  refine ⟨?_, fun task htask => h.drawn task ?_⟩
  · show Kept extent (s'.bookOf (s'.tasks.eraseIdx k))
    rwa [htasks]
  · rw [← htasks]
    exact mem_of_mem_eraseIdx htask

theorem accounted_proceed (h : s.Accounted) (htasks : s'.tasks = s.tasks)
    (hk : s.tasks[k]? = some task) (hdrawn : next.Drawn)
    (hbook : Kept Billing.extent (s'.bookOf (next :: s.tasks.eraseIdx k))) :
    (s'.proceed k next).Accounted := by
  obtain ⟨hlt, -⟩ := List.getElem?_eq_some_iff.mp hk
  refine ⟨?_, fun task htask => ?_⟩
  · show Kept extent (s'.bookOf (s'.tasks.set k next))
    rw [htasks]
    exact bookOf_perm (set_perm_cons_eraseIdx hlt next).symm hbook
  have hmem : task ∈ s.tasks.set k next := htasks ▸ htask
  rcases mem_or_eq_of_mem_set hmem with hmem | rfl
  · exact h.drawn task hmem
  · exact hdrawn

theorem bookOf_cons (howed : task.owed = none) (hpending : task.pending = none)
    (rest : List BillingTask) : s.bookOf (task :: rest) = s.bookOf rest := by
  unfold bookOf
  rw [filterMap_cons_none howed, filterMap_cons_none hpending]

/-- A part of a bill may be booked, whatever the run has booked of it before. -/
theorem book_of_mayBill (h : s.Accounted) (hk : s.tasks[k]? = some task) {bill part t}
    (hmay : s.MayBill k bill t) (hdrawn : ∀ w ∈ bill.spans, bill.since ≤ w.1)
    (hcounted : part.counted = bill.counted) (hspans : ∀ w ∈ part.spans, w ∈ bill.spans) :
    Kept Billing.extent ⟨s.mark, (s.bookOf (s.tasks.eraseIdx k)).settled,
      [(part, GoTime.wholeSeconds t)]⟩ ∧
      (s.tasks.eraseIdx k).filterMap BillingTask.pending = [] := by
  have hothers : Kept Billing.extent ⟨s.mark, (s.bookOf (s.tasks.eraseIdx k)).settled, []⟩ := by
    refine (h.book_cons hk).of_subperm rfl ?_ (nil_subperm)
    exact (((sublist_cons_self task _).filterMap _).append_left _).subperm
  have hbegins : part.Begins s.mark := by
    rw [← hmay.read]
    exact ⟨fun w hw => hdrawn w (hspans w hw), fun u hu => hmay.stamped u (hcounted ▸ hu)⟩
  have hends : part.Ends (GoTime.wholeSeconds t) :=
    ⟨fun w hw => hmay.ends.spans w (hspans w hw), fun u hu => hmay.ends.counted u (hcounted ▸ hu)⟩
  exact ⟨hothers.book hbegins hends, filterMap_eq_nil_iff.mpr hmay.settled⟩

theorem accounted_book (h : s.Accounted) (hk : s.tasks[k]? = some task) {bill part}
    (hmay : s.MayBill k bill bill.upTo) (hdrawn : ∀ w ∈ bill.spans, bill.since ≤ w.1)
    (hcounted : part.counted = bill.counted) (hspans : ∀ w ∈ part.spans, w ∈ bill.spans)
    (hnext : next.Drawn) (howed : next.owed = none)
    (hpending : next.pending = some (part, GoTime.wholeSeconds bill.upTo)) :
    (s.proceed k next).Accounted := by
  obtain ⟨hbook, hnone⟩ := book_of_mayBill h hk hmay hdrawn hcounted hspans
  refine accounted_proceed h rfl hk hnext ?_
  unfold bookOf at hbook ⊢
  rw [filterMap_cons_none howed, filterMap_cons_some hpending, hnone]
  exact hbook

theorem accounted_reserve (h : s.Accounted) {bill t}
    (hk : s.tasks[k]? = some (.reserving (some bill) t)) (hle : s.mark ≤ GoTime.wholeSeconds t)
    (hmay : s.MayBill k bill t) : ((s.save t).proceed k (.owing bill)).Accounted := by
  have hdrawn : ∀ w ∈ bill.spans, bill.since ≤ w.1 := h.drawn _ (mem_of_getElem? hk)
  obtain ⟨hbook, hnone⟩ := book_of_mayBill h hk hmay hdrawn rfl fun _ hw => hw
  refine accounted_proceed h rfl hk trivial ((hbook.settle hle).of_subperm (mark_save t s) ?_ ?_)
  · exact perm_middle.subperm
  · exact (Perm.of_eq hnone).subperm

theorem accounted_mark (h : s.Accounted) {bill t} (hk : s.tasks[k]? = some (.marking bill t))
    (hle : s.mark ≤ GoTime.wholeSeconds t) : (((s.save t).keep bill).finish k).Accounted := by
  have hbook := h.book_cons hk
  refine accounted_finish h rfl ?_
  cases bill with
  | none =>
    refine (hbook.move hle).of_subperm (mark_save t s) ?_ (.refl _)
    show (s.done ++ [] ++ _).Subperm _
    rw [append_nil]
    exact .refl _
  | some bill =>
    refine (hbook.settle hle).of_subperm (mark_save t s) ?_ (.refl _)
    show (s.done ++ [bill] ++ _).Subperm (bill :: (s.done ++ _))
    rw [append_assoc]
    exact perm_middle.subperm

theorem accounted_owing (h : s.Accounted) {bill} (hk : s.tasks[k]? = some (.owing bill))
    (passed : Bool) : ((s.keep (if passed then some bill else none)).finish k).Accounted := by
  refine accounted_finish h rfl ((h.book_cons hk).of_subperm rfl ?_ (.refl _))
  show (s.done ++ Option.toList _ ++ _).Subperm (s.done ++ bill :: _)
  rw [append_assoc]
  refine (Sublist.append_left ?_ _).subperm
  cases passed with
  | true => exact .refl _
  | false => exact sublist_cons_self _ _

theorem accounted_quiet (h : s.Accounted) (hk : s.tasks[k]? = some task)
    (howed : task.owed = none) (hpending : task.pending = none) : (s.finish k).Accounted := by
  have hbook := h.book_cons hk
  rw [bookOf_cons howed hpending] at hbook
  exact accounted_finish h rfl hbook

theorem accounted_same (h : s.Accounted) (hk : s.tasks[k]? = some task) (hnext : next.Drawn)
    (howed : next.owed = task.owed) (hpending : next.pending = task.pending) :
    (s.proceed k next).Accounted := by
  refine accounted_proceed h rfl hk hnext ?_
  have hbook := h.book_cons hk
  unfold bookOf at hbook ⊢
  rwa [filterMap_cons, filterMap_cons, howed, hpending, ← filterMap_cons, ← filterMap_cons]

variable {P : Platform} {i : CheckInputs}

theorem Accounted.act (h : s.Accounted) (hk : s.tasks[k]? = some task)
    (hkeeps : s.KeepsMark k i task) : (s.act P k i task).Accounted := by
  cases task with
  | checking contract =>
    rw [act]
    split
    · exact accounted_same h hk trivial rfl rfl
    · exact accounted_quiet h hk rfl rfl
  | checkingSince contract lastProcessedAt =>
    rw [act]
    split
    · exact accounted_quiet h hk rfl rfl
    · exact accounted_same h hk trivial rfl rfl
    · next hsend =>
      exact accounted_same h hk (ContractActor.source_of_send hsend).2.2.since_le rfl rfl
  | sending bill =>
    have hdrawn : ∀ w ∈ bill.spans, bill.since ≤ w.1 := h.drawn _ (mem_of_getElem? hk)
    rw [act]
    split
    · next periodic husage =>
      dsimp only
      split
      · refine accounted_same h hk ⟨hdrawn, husage, fun d hd => ?_⟩ rfl rfl
        rw [nil_append] at hd
        split at hd
        · exact hd
        · cases hd
      · exact accounted_quiet h hk rfl rfl
    rename_i hwhole
    split
    · next hforwards =>
      have hundivided : bill.undivided = true := by
        unfold undivided
        split
        · next periodic husage => exact absurd husage (hwhole periodic)
        · rfl
      exact accounted_book h hk (hkeeps hundivided hforwards) hdrawn rfl (fun _ hw => hw) trivial
        rfl rfl
    · exact accounted_quiet h hk rfl rfl
  | dividing bill periodic sent rest =>
    obtain ⟨hdrawn, husage, hall⟩ : BillingTask.Drawn (.dividing bill periodic sent rest) :=
      h.drawn _ (mem_of_getElem? hk)
    cases rest with
    | nil => exact accounted_same h hk trivial rfl rfl
    | cons deployment rest =>
      rw [append_cons] at hall
      rw [act]
      split
      · next hforwards =>
        have hsent : ∀ d ∈ sent ++ [deployment], d ∈ periodic.deployments :=
          fun d hd => hall d (mem_append_left _ hd)
        have hpart : bill.part periodic (sent ++ [deployment]) = some _ := if_neg (by simp)
        obtain ⟨hcounted, hspans⟩ := part_eq_some husage hsent hpart
        refine accounted_book h hk (hkeeps deployment rfl hforwards) hdrawn hcounted hspans
          ⟨hdrawn, husage, hall⟩ rfl ?_
        rw [BillingTask.pending, hpart]
        rfl
      · refine accounted_same h hk ⟨hdrawn, husage, fun d hd => hall d ?_⟩ rfl rfl
        exact ((sublist_append_left _ _).append_right _).subset hd
  | marking bill t =>
    rw [act]
    split
    · next hsaves => exact accounted_mark h hk (hkeeps.2 hsaves)
    rename_i hfails
    cases bill with
    | none =>
      have hquiet := accounted_quiet h hk rfl rfl
      rwa [keep, Option.toList_none, append_nil]
    | some bill => exact absurd (hkeeps.1 rfl) hfails
  | collecting contract now => exact accounted_same h hk trivial rfl rfl
  | collectingSince contract now last =>
    rw [act]
    split
    · exact accounted_quiet h hk rfl rfl
    rename_i usage husage
    refine accounted_same h hk ?_ rfl rfl
    split
    · exact since_le_of_collectUsages husage
    · trivial
  | reserving bill t =>
    have hquiet := accounted_quiet h hk rfl rfl
    cases bill with
    | none =>
      rw [act]
      split
      · next hsaves =>
        have hbook := h.book_cons hk
        rw [bookOf_cons rfl rfl] at hbook
        refine accounted_finish h rfl ?_
        exact (hbook.move (hkeeps hsaves).1).of_subperm (mark_save t s) (.refl _) (.refl _)
      · exact hquiet
    | some bill =>
      rw [act]
      split
      · next hsaves =>
        obtain ⟨hle, hmay⟩ := hkeeps hsaves
        exact accounted_reserve h hk hle (hmay bill rfl)
      · exact hquiet
  | owing bill => exact accounted_owing h hk (i.forwards [])

theorem Accounted.step (h : s.Accounted) (turn : BillingStep) (horderly : s.Orderly turn) :
    (s.step P turn).Accounted := by
  have hbegin (task : BillingTask) (hdrawn : task.Drawn) (howed : task.owed = none)
      (hpending : task.pending = none) :
      { s with tasks := s.tasks ++ [task] }.Accounted := by
    refine ⟨?_, forall_mem_append.mpr ⟨h.drawn, forall_mem_singleton.mpr hdrawn⟩⟩
    have hbook := h.book
    rw [← bookOf_cons howed hpending] at hbook
    exact bookOf_perm (perm_append_singleton task s.tasks).symm hbook
  cases turn with
  | check | collect now => exact hbegin _ trivial rfl rfl
  | act k i =>
    rw [BillingHost.step]
    split
    · exact h
    · next task hk => exact h.act hk (horderly task hk)
  | change contract | record events => exact ⟨h.book, h.drawn⟩

end Act

/-- In every orderly run of checks and collections that overlap in any way, no instant of usage
and no start event is on two invoices that were forwarded. -/
theorem billed_once_of_orderly (P : Platform) (contract : Contract) (store : UsageStore)
    (turns : List BillingStep) (h : Reach.Passes Orderly (step P) (start contract store) turns) :
    ∀ past, past <+: turns → (past.foldl (step P) (start contract store)).BilledOnce := by
  intro past hpast
  have hstart : (start contract store).Accounted :=
    ⟨⟨.nil, fun _ hb => absurd hb not_mem_nil, fun _ hp => absurd hp not_mem_nil⟩,
      fun _ htask => absurd htask not_mem_nil⟩
  have haccounted := h.invariant Accounted hstart (fun _ turn h horderly => h.step turn horderly)
    past hpast
  exact haccounted.book.apart.sublist (forwarded_sublist_booked _)

/-- A contract that pays for each allocation by the minute, with starts half a minute and one and
a half minutes after its start date. -/
def sampleHost : BillingHost :=
  let a := ContractActor.registered (ascii "contract")
    (sampleRequest ⟨.payPerAllocation, [], [], [], ascii "minute", 1, []⟩ 0)
    [sampleEvent .startAllocation 30000000000, sampleEvent .startAllocation 90500000000]
  start (a.contract.accept (GoTime.unixTime 1704067230 0)) a.store

def actAt (k : Nat) (sec : Int) : BillingStep := .act k (.regular .stored (GoTime.unixTime sec 0))

def firstCheck : List BillingStep :=
  [.check, actAt 0 1704067231, actAt 0 1704067231, actAt 0 1704067231]

/-- A collection begins while a check is about to forward its invoice, and reads the stored time
after the check has saved it. -/
def orderlyRuns : List BillingStep :=
  firstCheck ++ [.check, actAt 0 1704067320, actAt 0 1704067320,
    .collect (GoTime.unixTime 1704067321 0), actAt 0 1704067322, actAt 0 1704067322,
    actAt 0 1704067323, actAt 0 1704067323, actAt 0 1704067323, actAt 0 1704067323]

theorem billed_once_sample :
    (orderlyRuns.foldl (step samplePlatform) sampleHost).forwarded.length = 2 ∧
      (orderlyRuns.foldl (step samplePlatform) sampleHost).BilledOnce := by
  refine ⟨by decide +kernel, ?_⟩
  exact billed_once_of_orderly samplePlatform _ _ orderlyRuns (by decide +kernel) orderlyRuns
    prefix_rfl

/-- Two checks read the stored time before either of them saves it. -/
def overlappingChecks : List BillingStep :=
  firstCheck ++ [.check, actAt 0 1704067320, .check, actAt 1 1704067320, actAt 0 1704067320,
    actAt 1 1704067320, actAt 0 1704067322, actAt 0 1704067322, actAt 0 1704067322]

/-- Both invoices count the same start. -/
theorem start_on_two_invoices : let s := overlappingChecks.foldl (step samplePlatform) sampleHost
    s.forwarded.map Billing.counted = [[sampleEvent .startAllocation 30000000000],
        [sampleEvent .startAllocation 30000000000]] ∧ ¬ s.BilledOnce := by
  intro s
  have hcounted : s.forwarded.map counted = [[sampleEvent .startAllocation 30000000000],
      [sampleEvent .startAllocation 30000000000]] := by decide +kernel
  refine ⟨hcounted, fun honce => ?_⟩
  have hapart : (s.forwarded.map counted).Pairwise fun l l' => ∀ u ∈ l, u ∉ l' :=
    pairwise_map.mpr (honce.imp fun hnot u hu hu' => hnot (.inr ⟨u, hu, hu'⟩))
  revert hapart
  decide

end BillingHost

end DMS.Tokenomics
