import DMS.Core.MapTotal
import DMS.Tokenomics.Invoices
import Mathlib.Algebra.BigOperators.Group.List.Basic

/-! # The running time of an allocation

An allocation that is started and stopped over and over runs in sessions. The processors keep one
window for an allocation: the last start event and the last end event that the store returns.
-/

namespace DMS.Tokenomics

open Usage AllocationWindow List

def Usage.isStart (u : Usage) : Prop := u.eventType = .startAllocation

def Usage.isEnd (u : Usage) : Prop :=
  u.eventType = .completeAllocation ∨ u.eventType = .stopAllocation

instance (u : Usage) : Decidable u.isStart :=
  inferInstanceAs (Decidable (_ = _))

instance (u : Usage) : Decidable u.isEnd :=
  inferInstanceAs (Decidable (_ ∨ _))

def Alternates : List Usage → Prop
  | [] => True
  | [start] => start.isStart
  | start :: stop :: rest => start.isStart ∧ stop.isEnd ∧ Alternates rest

instance decidableAlternates : ∀ log : List Usage, Decidable (Alternates log)
  | [] => inferInstanceAs (Decidable True)
  | [start] => inferInstanceAs (Decidable start.isStart)
  | _ :: _ :: rest =>
    have := decidableAlternates rest
    inferInstanceAs (Decidable (_ ∧ _ ∧ Alternates rest))

def runningTime (last now : Int) : List Usage → Int
  | [] => 0
  | [start] => max 0 (now - max start.timestamp last)
  | start :: stop :: rest =>
    max 0 (min stop.timestamp now - max start.timestamp last) + runningTime last now rest

/-- An event of one allocation that the queries for a contract are about. -/
def Usage.concerns (contractDID headContractDID allocationID : GoString) (u : Usage) : Bool :=
  (eventFilters contractDID headContractDID
    [.startAllocation, .completeAllocation, .stopAllocation] 0 0).admits u &&
    u.data.map EventData.allocationID = some allocationID

/-- The events of an allocation in the order of time. -/
structure AllocationLog (contractDID headContractDID allocationID : GoString)
    (log : List Usage) : Prop where
  concerns : ∀ u ∈ log, u.concerns contractDID headContractDID allocationID = true
  alternates : Alternates log
  ordered : log.Pairwise fun u v => u.timestamp < v.timestamp

/-- A store that has the log, in whatever order and among other events. -/
def UsageStore.Holds (s : UsageStore) (contractDID headContractDID allocationID : GoString)
    (log : List Usage) : Prop :=
  (s.events.filter (Usage.concerns contractDID headContractDID allocationID)).Perm log

def reported {A : Type} (key : A → GoString) (duration : A → Int) (allocationID : GoString)
    (deployments : List (DeploymentUtilization A)) : Int :=
  (((deployments.flatMap DeploymentUtilization.allocations).filter
    (key · = allocationID)).map duration).sum

def ReportsRunningTime (P : Platform) (s : UsageStore) (order : RangeOrder)
    (contractDID headContractDID allocationID : GoString) (log : List Usage) (last now : GoTime) :
    Prop :=
  (∃ usage, PayPerTimeUtilizationProcessor.collectUsage P s ⟨true, order⟩ contractDID last now
      headContractDID = .ok usage ∧
    reported AllocationTimeUtilization.allocationID AllocationTimeUtilization.duration
      allocationID usage = runningTime last now log) ∧
  ∃ usage, PayPerResourceUtilizationProcessor.collectUsage P s ⟨true, order⟩ contractDID last now
      headContractDID = .ok usage ∧
    reported AllocationResourceUtilization.allocationID AllocationResourceUtilization.duration
      allocationID usage = runningTime last now log

/-! ## The window that is left -/

def openedFor (allocationID : GoString) (u : Usage) : Option AllocationWindow :=
  if u.timestamp.isZero then none
  else
    match u.data with
    | none => none
    | some data =>
      if data.allocationID = allocationID then some (AllocationWindow.opened u data) else none

/-- When an end event closes the window of an allocation. -/
def closedFor (allocationID : GoString) (u : Usage) : Option GoTime :=
  if processAllocationEndEvent u = some allocationID then some u.timestamp else none

def windowOf (allocationID : GoString) (startEvents endEvents : List Usage) :
    Option AllocationWindow :=
  (startEvents.filterMap (openedFor allocationID)).getLast?.map fun w =>
    (endEvents.filterMap (closedFor allocationID)).getLast?.elim w w.closed

def AllocationWindow.billed (w : AllocationWindow) (queryStart queryEnd : Int) : Int :=
  min (2 ^ 63 - 1) (max 0 ((if w.isComplete then w.endTime else queryEnd) -
    max w.startTime queryStart))

theorem getLast?_filterMap_cons {α β : Type} (f : α → Option β) (x : α) (l : List α) :
    ((x :: l).filterMap f).getLast? = ((l.filterMap f).getLast?).or (f x) := by
  cases h : f x with
  | none => simp [filterMap_cons_none h]
  | some y =>
    rw [filterMap_cons_some h, getLast?_cons]
    cases (l.filterMap f).getLast? <;> rfl

section Windows

variable {W A : Type} {opened : Usage → EventData → W} {closed : W → GoTime → W}
  {win : W → AllocationWindow} {report : W → Int → A} {key : A → GoString}
  {duration : A → Int} {id : GoString}
  (hopened : ∀ u data, win (opened u data) = .opened u data)
  (hclosed : ∀ w t, win (closed w t) = (win w).closed t)

include hopened in
theorem lookup_openWindows (l : List Usage) (m : GoMap GoString W) :
    ((l.foldl (openWindow opened) m).lookup id).map win =
      (l.filterMap (openedFor id)).getLast?.or ((m.lookup id).map win) := by
  induction l generalizing m with
  | nil => rfl
  | cons u l ih =>
    have hstep : ((openWindow opened m u).lookup id).map win =
        (openedFor id u).or ((m.lookup id).map win) := by
      unfold openWindow openedFor
      split
      · rfl
      cases u.data with
      | none => rfl
      | some data =>
        by_cases h : data.allocationID = id
        · subst h
          simp [hopened]
        · simp [h, AList.lookup_insert_ne (Ne.symm h)]
    rw [foldl_cons, ih, hstep, getLast?_filterMap_cons, Option.or_assoc]

include hclosed in
theorem lookup_closeWindows (l : List Usage) (m : GoMap GoString W) :
    ((l.foldl (closeWindow closed) m).lookup id).map win = ((m.lookup id).map win).map fun w =>
        (l.filterMap (closedFor id)).getLast?.elim w w.closed := by
  induction l generalizing m with
  | nil => simp [Function.comp_def]
  | cons u l ih =>
    have hstep : ((closeWindow closed m u).lookup id).map win =
        ((m.lookup id).map win).map fun w =>
          (closedFor id u).elim w w.closed := by
      unfold closeWindow closedFor
      split
      · next h => simp [h, Function.comp_def]
      rename_i ended h
      by_cases hsame : ended = id
      · subst hsame
        cases hlookup : m.lookup ended with
        | none => simp [hlookup]
        | some w => simp [h, hclosed]
      have hne : processAllocationEndEvent u ≠ some id := by
        rw [h]
        simpa using hsame
      rw [if_neg hne]
      cases m.lookup ended with
      | none => simp [Function.comp_def]
      | some w => simp [Function.comp_def, AList.lookup_insert_ne (Ne.symm hsame)]
    rw [foldl_cons, ih, hstep, Option.map_map]
    congr 1
    funext w
    rw [getLast?_filterMap_cons]
    cases (l.filterMap (closedFor id)).getLast? <;>
      cases closedFor id u <;> rfl

theorem windowOf_allocationID {startEvents endEvents w}
    (h : windowOf id startEvents endEvents = some w) : w.allocationID = id := by
  obtain ⟨start, hstart, rfl⟩ := Option.map_eq_some_iff.mp h
  obtain ⟨u, -, hu⟩ := mem_filterMap.mp (mem_of_getLast? hstart)
  have hopened : start.allocationID = id := by
    unfold openedFor at hu
    split at hu
    · cases hu
    split at hu
    · cases hu
    split at hu
    · next hid => cases hu; exact hid
    · cases hu
  cases (endEvents.filterMap (closedFor id)).getLast? with
  | none | some t => exact hopened

def reportOf (window : W → AllocationWindow) (report : W → Int → A) (queryStart queryEnd : GoTime)
    (w : W) : Option A :=
  (calculateEffectiveTime (window w).startTime (window w).endTime (window w).isComplete
    queryStart queryEnd).map fun e => report w (e.2.sub e.1)

theorem elements_addUtilization (win : W → AllocationWindow) (report : W → Int → A)
    (lo hi : GoTime) (l : List W) (m : GoMap GoString (DeploymentUtilization A)) :
    (GoMap.elements DeploymentUtilization.allocations
      (l.foldl (addUtilization win report lo hi) m)).Perm
      (GoMap.elements DeploymentUtilization.allocations m ++
        l.filterMap (reportOf win report lo hi)) := by
  induction l generalizing m with
  | nil => simp
  | cons w l ih =>
    refine (ih _).trans ?_
    unfold addUtilization
    cases htime : calculateEffectiveTime (win w).startTime (win w).endTime
        (win w).isComplete lo hi with
    | none => rw [filterMap_cons_none (by simp [reportOf, htime])]
    | some e =>
      rw [filterMap_cons_some (by simp [reportOf, htime]; rfl)]
      refine ((GoMap.elements_insert_append ⟨(win w).deploymentID, [], 0⟩ rfl m _
        rfl).append_right _).trans ?_
      rw [append_assoc]
      exact .refl _

theorem duration_reportOf (hduration : ∀ w d, duration (report w d) = d) (w : W) (lo hi : Int) :
    (((reportOf win report lo hi w).toList).map duration).sum = (win w).billed lo hi := by
  rw [reportOf, billed, calculateEffectiveTime_eq]
  dsimp only
  generalize (if (win w).isComplete then (win w).endTime else hi) = stop
  split
  · next hlt =>
    simp only [Option.map_some, Option.toList_some, map_cons, map_nil, sum_cons,
      sum_nil, hduration, GoTime.sub]
    omega
  simp only [Option.map_none, Option.toList_none, map_nil, sum_nil]
  omega

theorem allocations_calculateUtilization (win : W → AllocationWindow)
    (report : W → Int → A) (order : RangeOrder) (m : GoMap GoString W) (lo hi : GoTime) :
    ((calculateUtilization win report order m lo hi).flatMap
      DeploymentUtilization.allocations).Perm
      (m.entries.filterMap fun e => reportOf win report lo hi e.2) := by
  rw [calculateUtilization, flatMap_map]
  refine (GoMap.elements_visit order DeploymentUtilization.allocations _).trans ?_
  have hloop := elements_addUtilization win report lo hi
    ((order.visit m.entries).map fun e => e.2) ∅
  rw [foldl_map, filterMap_map] at hloop
  exact hloop.trans ((order.perm m.entries).filterMap _)

include hopened hclosed in
theorem reported_eq_billed (hkey : ∀ w d, key (report w d) = (win w).allocationID)
    (hduration : ∀ w d, duration (report w d) = d) (order : RangeOrder)
    (startEvents endEvents : List Usage) (lo hi : Int) :
    reported key duration id (calculateUtilization win report order
      (buildWindows opened closed startEvents endEvents) lo hi) =
      (windowOf id startEvents endEvents).elim 0 (·.billed lo hi) := by
  have hlookup : ∀ k, ((buildWindows opened closed startEvents endEvents).lookup k).map win =
      windowOf k startEvents endEvents := by
    intro k
    rw [buildWindows, windowOf, lookup_closeWindows hclosed, lookup_openWindows hopened]
    simp
  generalize buildWindows opened closed startEvents endEvents = m at hlookup
  have hnames : ∀ k w x, m.lookup k = some w →
      reportOf win report lo hi w = some x → key x = k := by
    intro k w x hw hx
    obtain ⟨time, -, rfl⟩ := Option.map_eq_some_iff.mp hx
    have hwindow := hlookup k
    rw [hw, Option.map_some] at hwindow
    rw [hkey, windowOf_allocationID hwindow.symm]
  have hperm := ((allocations_calculateUtilization win report order m lo
    hi).filter _).trans (GoMap.filter_filterMap_entries hnames id)
  rw [reported, (hperm.map duration).sum_eq, ← hlookup id]
  cases m.lookup id with
  | none => rfl
  | some w => exact duration_reportOf hduration w lo hi

end Windows

/-! ## What is measured of a list of events -/

/-- The last event of a kind between two instants, in the order of the list. -/
def lastSeen (kind : Usage → Prop) [DecidablePred kind] (lo hi : Int) (l : List Usage) :
    Option Usage :=
  (l.filter fun u => kind u ∧ lo ≤ u.timestamp ∧ u.timestamp ≤ hi).getLast?

def measured (lo last now : Int) (l : List Usage) : Int :=
  (lastSeen Usage.isStart lo now l).elim 0 fun start =>
    min (2 ^ 63 - 1) (max 0 ((lastSeen Usage.isEnd lo now l).elim now Usage.timestamp -
      max start.timestamp last))

theorem getLast?_filterMap {α β : Type} {f : α → Option β} {l : List α}
    (h : ∀ x ∈ l, (f x).isSome) : (l.filterMap f).getLast? = l.getLast?.bind f := by
  induction l with
  | nil => rfl
  | cons x l ih =>
    rw [getLast?_filterMap_cons, getLast?_cons, ih fun y hy => h y (.tail _ hy)]
    cases hlast : l.getLast? with
    | none => rfl
    | some y =>
      obtain ⟨z, hz⟩ := Option.isSome_iff_exists.mp (h y (.tail _ (mem_of_getLast? hlast)))
      simp [hz]

section Measured

variable {did head id : GoString} {lo hi : Int} {u : Usage}

theorem concerns_iff : u.concerns did head id = true ↔
    (eventFilters did head [] 0 0).admits u = true ∧ (u.isStart ∨ u.isEnd) ∧
      u.data.map EventData.allocationID = some id := by
  rw [concerns, Bool.and_eq_true, admits_types (by simp), and_assoc]
  simp [isStart, isEnd]

theorem filterMap_query {β : Type} {f : Usage → Option β} (kind : Usage → Prop)
    [DecidablePred kind] {types : List EventType} (htypes : types ≠ [])
    (hkind : ∀ u, u.eventType ∈ types ↔ kind u) (hkinds : ∀ u, kind u → u.isStart ∨ u.isEnd)
    (hf : ∀ u, f u ≠ none → u.data.map EventData.allocationID = some id)
    (hlo : GoTime.HasUnixNano lo) (hhi : GoTime.HasUnixNano hi) (s : UsageStore) :
    (s.queryEvents (eventFilters did head types lo hi)).filterMap f =
      ((s.events.filter (Usage.concerns did head id)).filter
        fun u => kind u ∧ lo ≤ u.timestamp ∧ u.timestamp ≤ hi).filterMap f := by
  rw [UsageStore.queryEvents, filter_filter, filterMap_filter, filterMap_filter]
  congr 1
  funext u
  by_cases hu : f u = none
  · simp [hu]
  congr 1
  have hdata := hf u hu
  rw [admits_between hlo hhi, Bool.and_eq_true, Bool.and_eq_true, admits_types htypes, hkind,
    decide_eq_true_eq, decide_eq_true_eq, concerns_iff]
  have hkinds := hkinds u
  simp only [hdata, eq_iff_iff]
  tauto

theorem openedFor_eq (h : u.data.map EventData.allocationID = some id) :
    ∃ data, openedFor id u = some (.opened u data) := by
  obtain ⟨data, hdata, rfl⟩ := Option.map_eq_some_iff.mp h
  exact ⟨data, by simp [openedFor, timestamp_isZero, hdata]⟩

theorem closedFor_eq (hend : u.isEnd) (h : u.data.map EventData.allocationID = some id) :
    closedFor id u = some u.timestamp := by
  rcases hend with htype | htype <;>
    simp [closedFor, processAllocationEndEvent, timestamp_isZero, htype, h]

theorem allocationID_of_openedFor (h : openedFor id u ≠ none) :
    u.data.map EventData.allocationID = some id := by
  unfold openedFor at h
  split at h
  · exact absurd rfl h
  split at h
  · exact absurd rfl h
  split at h
  · next hdata hid => rw [hdata, Option.map_some, hid]
  · exact absurd rfl h

theorem allocationID_of_closedFor (h : closedFor id u ≠ none) :
    u.data.map EventData.allocationID = some id := by
  unfold closedFor at h
  split at h
  · next hended =>
    unfold processAllocationEndEvent at hended
    split at hended
    · cases hended
    split at hended
    · exact hended
    · exact hended
    · cases hended
  · exact absurd rfl h

theorem billed_windowOf (hlo : GoTime.HasUnixNano lo) (hhi : GoTime.HasUnixNano hi)
    (s : UsageStore) (last : Int) : (windowOf id
      (s.queryEvents (eventFilters did head [.startAllocation] lo hi))
      (s.queryEvents (eventFilters did head
        [.completeAllocation, .stopAllocation] lo hi))).elim 0 (·.billed last hi) =
      measured lo last hi
        (s.events.filter (Usage.concerns did head id)) := by
  have hconcerns : ∀ u ∈ s.events.filter (concerns did head id),
      u.data.map EventData.allocationID = some id := by
    intro u hu
    exact (concerns_iff.mp (mem_filter.mp hu).2).2.2
  unfold windowOf measured lastSeen
  rw [filterMap_query isStart (by simp) (by simp [isStart]) (fun _ => .inl)
      (fun _ => allocationID_of_openedFor) hlo hhi,
    filterMap_query isEnd (by simp) (by simp [isEnd]) (fun _ => .inr)
      (fun _ => allocationID_of_closedFor) hlo hhi]
  generalize s.events.filter _ = l at hconcerns
  have hstart : ∀ u ∈ l.filter fun u => u.isStart ∧ lo ≤ u.timestamp ∧ u.timestamp ≤ hi,
      ∃ data, openedFor id u = some (.opened u data) := fun u hu =>
    openedFor_eq (hconcerns u (mem_of_mem_filter hu))
  have hend : ∀ u ∈ l.filter fun u => u.isEnd ∧ lo ≤ u.timestamp ∧ u.timestamp ≤ hi,
      closedFor id u = some u.timestamp := fun u hu =>
    closedFor_eq (of_decide_eq_true (mem_filter.mp hu).2).1
      (hconcerns u (mem_of_mem_filter hu))
  rw [getLast?_filterMap fun u hu => by simp [hend u hu],
    getLast?_filterMap fun u hu => by obtain ⟨data, h⟩ := hstart u hu; simp [h]]
  cases hfirst : (l.filter fun u => u.isStart ∧ lo ≤ u.timestamp ∧ u.timestamp ≤ hi).getLast? with
  | none => rfl
  | some u =>
    obtain ⟨data, hu⟩ := hstart u (mem_of_getLast? hfirst)
    cases hlast : (l.filter fun u => u.isEnd ∧ lo ≤ u.timestamp ∧ u.timestamp ≤ hi).getLast? with
    | none => simp [hu, billed, opened]
    | some v =>
      simp [hu, hend v (mem_of_getLast? hlast), billed, opened, closed]

theorem reportsRunningTime_iff {P : Platform} {s : UsageStore} {order : RangeOrder}
    {log : List Usage} {last now : Int} (hlast : GoTime.HasUnixNano (P.yearBefore last))
    (hnow : GoTime.HasUnixNano now) : ReportsRunningTime P s order did head id log last now ↔
      measured (P.yearBefore last) last now
        (s.events.filter (Usage.concerns did head id)) = runningTime last now log := by
  rw [← billed_windowOf hlast hnow]
  constructor
  · rintro ⟨⟨usage, ⟨⟩, hreported⟩, -⟩
    refine Eq.trans (Eq.symm ?_) hreported
    apply reported_eq_billed
    all_goals exact fun _ _ => rfl
  intro h
  refine ⟨⟨_, rfl, Eq.trans ?_ h⟩, ⟨_, rfl, Eq.trans ?_ h⟩⟩
  all_goals
    apply reported_eq_billed
    all_goals exact fun _ _ => rfl

end Measured

/-! ## Sessions -/

section Sessions

variable {lo last now : Int} {u start stop : Usage} {l rest log : List Usage}
  (halternates : Alternates log)
  (hordered : log.Pairwise fun u v => u.timestamp < v.timestamp)

theorem Usage.isStart.not_isEnd (h : u.isStart) : ¬ u.isEnd := by
  unfold isStart at h
  simp [isEnd, h]

theorem runningTime_nonneg (last now : Int) (log : List Usage) : 0 ≤ runningTime last now log := by
  fun_induction runningTime last now log with
  | case1 => exact Int.le_refl _
  | case2 start => exact Int.le_max_left _ _
  | case3 start stop rest ih => omega

theorem runningTime_of_late (h : ∀ u ∈ log, now < u.timestamp) : runningTime last now log = 0 := by
  fun_induction runningTime last now log with
  | case1 => rfl
  | case2 start =>
    have hstart : now < start.timestamp := h start (by simp)
    omega
  | case3 start stop rest ih =>
    have hstart : now < start.timestamp := h start (by simp)
    rw [ih fun u hu => h u (by simp [hu])]
    omega

include halternates hordered in
theorem end_le_of_runningTime_zero (h : runningTime last now log = 0) {v} (hv : v ∈ log)
    (hend : v.isEnd) (hnow : v.timestamp ≤ now) : v.timestamp ≤ last := by
  fun_induction runningTime last now log with
  | case1 => cases hv
  | case2 start =>
    obtain rfl := mem_singleton.mp hv
    exact absurd hend halternates.not_isEnd
  | case3 start stop rest ih =>
    have hrest := runningTime_nonneg last now rest
    obtain ⟨hfirst, hordered⟩ := pairwise_cons.mp hordered
    rcases mem_cons.mp hv with rfl | hv
    · exact absurd hend halternates.1.not_isEnd
    rcases mem_cons.mp hv with rfl | hv
    · have hlt := hfirst v (.head _)
      unfold GoTime at *
      omega
    · exact ih halternates.2.2 (pairwise_cons.mp hordered).2 (by omega) hv

theorem le_start_of_runningTime_zero (halternates : Alternates log)
    (h : runningTime last now log = 0) (hu : u ∈ log) (hstart : u.isStart)
    (hends : ∀ v ∈ log, v.isEnd → now < v.timestamp) : now ≤ max u.timestamp last := by
  fun_induction runningTime last now log with
  | case1 => cases hu
  | case2 start =>
    obtain rfl := mem_singleton.mp hu
    omega
  | case3 start stop rest ih =>
    have hrest := runningTime_nonneg last now rest
    rcases mem_cons.mp hu with rfl | hu
    · have hstop := hends stop (by simp) halternates.2.1
      omega
    rcases mem_cons.mp hu with rfl | hu
    · exact absurd halternates.2.1 hstart.not_isEnd
    · exact ih halternates.2.2 (by omega) hu fun v hv => hends v (by simp [hv])

theorem lastSeen_eq_some {kind} [DecidablePred kind]
    (h : lastSeen kind lo now l = some u) : u ∈ l ∧ kind u ∧ u.timestamp ≤ now := by
  obtain ⟨hmem, hseen⟩ := mem_filter.mp (mem_of_getLast? h)
  have hseen := of_decide_eq_true hseen
  exact ⟨hmem, hseen.1, hseen.2.2⟩

theorem lastSeen_eq_none {kind} [DecidablePred kind]
    (h : lastSeen kind lo now l = none) (hlo : ∀ u ∈ l, lo ≤ u.timestamp) (hu : u ∈ l)
    (hkind : kind u) : now < u.timestamp := by
  have hfilter := filter_eq_nil_iff.mp (getLast?_eq_none_iff.mp h) u hu
  simpa [hkind, hlo u hu] using hfilter

theorem lastSeen_append (kind : Usage → Prop) [DecidablePred kind] (lo hi : Int)
    (l l' : List Usage) :
    lastSeen kind lo hi (l ++ l') = (lastSeen kind lo hi l').or (lastSeen kind lo hi l) := by
  unfold lastSeen
  rw [filter_append, getLast?_append]

theorem lastSeen_singleton (kind : Usage → Prop) [DecidablePred kind] (lo hi : Int) (u : Usage) :
    lastSeen kind lo hi [u] =
      if kind u ∧ lo ≤ u.timestamp ∧ u.timestamp ≤ hi then some u else none := by
  unfold lastSeen
  split
  · next h => rw [filter_cons_of_pos (by simpa using h)]; rfl
  · next h => rw [filter_cons_of_neg (by simpa using h)]; rfl

include halternates hordered in
theorem measured_of_zero (h : runningTime last now log = 0) (hl : l.Perm log)
    (hlo : ∀ u ∈ log, lo ≤ u.timestamp) : measured lo last now l = 0 := by
  unfold measured
  cases hfirst : lastSeen isStart lo now l with
  | none => rfl
  | some u =>
    obtain ⟨hu, hstart, -⟩ := lastSeen_eq_some hfirst
    cases hlast : lastSeen isEnd lo now l with
    | none =>
      have hafter := le_start_of_runningTime_zero halternates h (hl.mem_iff.mp hu) hstart
        fun v hv => lastSeen_eq_none hlast (fun x hx => hlo x (hl.mem_iff.mp hx))
          (hl.mem_iff.mpr hv)
      rw [Option.elim_some, Option.elim_none]
      omega
    | some v =>
      obtain ⟨hv, hend, hnow⟩ := lastSeen_eq_some hlast
      have hbefore := end_le_of_runningTime_zero halternates hordered h (hl.mem_iff.mp hv) hend hnow
      rw [Option.elim_some, Option.elim_some]
      unfold GoTime at *
      omega

include halternates hordered in
theorem late_of_starts (h : ∀ u ∈ log, u.isStart → now < u.timestamp) :
    ∀ u ∈ log, now < u.timestamp := by
  intro u hu
  cases log with
  | nil => cases hu
  | cons start rest =>
    have hstart : start.isStart := by
      cases rest with
      | nil => exact halternates
      | cons stop rest => exact halternates.1
    have hlate := h start (.head _) hstart
    rcases mem_cons.mp hu with rfl | hu
    · exact hlate
    · exact Int.lt_trans hlate ((pairwise_cons.mp hordered).1 u hu)

theorem late_of_single (halternates : Alternates (start :: stop :: rest))
    (hordered : (start :: stop :: rest).Pairwise fun u v => u.timestamp < v.timestamp)
    (hsingle : ((start :: stop :: rest).filter fun u => u.isStart ∧ u.timestamp ≤ now).length ≤ 1)
    (hnow : start.timestamp ≤ now) : ∀ u ∈ rest, now < u.timestamp := by
  obtain ⟨hstart, hstop, hrest⟩ := halternates
  have hordered := (pairwise_cons.mp (pairwise_cons.mp hordered).2).2
  apply late_of_starts hrest hordered
  intro u hu hstart'
  rw [filter_cons_of_pos (by simp [hstart, hnow]), length_cons] at hsingle
  have hnil : ((stop :: rest).filter fun u => u.isStart ∧ u.timestamp ≤ now).length = 0 := by omega
  have hunseen := filter_eq_nil_iff.mp (eq_nil_of_length_eq_zero hnil) u (.tail _ hu)
  simpa [hstart'] using hunseen

theorem measured_open (hl : l.Perm [start])
    (hstart : start.isStart) (hfirst : lastSeen Usage.isStart lo now l = some start)
    (hfits : runningTime last now [start] < 2 ^ 63) :
    measured lo last now l = runningTime last now [start] := by
  have hnone : lastSeen isEnd lo now l = none := by
    cases hlast : lastSeen isEnd lo now l with
    | none => rfl
    | some v =>
      obtain ⟨hv, hend, -⟩ := lastSeen_eq_some hlast
      rw [mem_singleton.mp (hl.mem_iff.mp hv)] at hend
      exact absurd hend hstart.not_isEnd
  rw [measured, hfirst, Option.elim_some, hnone, Option.elim_none, runningTime]
  rw [runningTime] at hfits
  omega

theorem eq_or_eq_of_seen {v}
    (hlate : ∀ u ∈ rest, now < u.timestamp) (hv : v ∈ start :: stop :: rest)
    (hseen : v.timestamp ≤ now) : v = start ∨ v = stop := by
  rcases mem_cons.mp hv with hv | hv
  · exact .inl hv
  rcases mem_cons.mp hv with hv | hv
  · exact .inr hv
  · exact absurd (hlate v hv) (Int.not_lt.mpr hseen)

theorem measured_session
    (hl : l.Perm (start :: stop :: rest)) (halternates : Alternates (start :: stop :: rest))
    (hlate : ∀ u ∈ rest, now < u.timestamp) (hfirst : lastSeen Usage.isStart lo now l = some start)
    (hfits : runningTime last now (start :: stop :: rest) < 2 ^ 63)
    (hlo : ∀ u ∈ l, lo ≤ u.timestamp) :
    measured lo last now l = runningTime last now (start :: stop :: rest) := by
  rw [measured, hfirst, Option.elim_some]
  rw [runningTime, runningTime_of_late hlate] at hfits ⊢
  cases hlast : lastSeen isEnd lo now l with
  | none =>
    have hopen : now < stop.timestamp := lastSeen_eq_none hlast hlo
      (hl.mem_iff.mpr (by simp)) halternates.2.1
    rw [Option.elim_none]
    omega
  | some v =>
    obtain ⟨hv, hend, hnow'⟩ := lastSeen_eq_some hlast
    obtain rfl : v = stop := by
      rcases eq_or_eq_of_seen hlate (hl.mem_iff.mp hv) hnow' with h | h
      · rw [h] at hend
        exact absurd hend halternates.1.not_isEnd
      · exact h
    rw [Option.elim_some]
    unfold GoTime at *
    omega

include halternates hordered in
theorem measured_of_single
    (hsingle : (log.filter fun u => u.isStart ∧ u.timestamp ≤ now).length ≤ 1)
    (hfits : runningTime last now log < 2 ^ 63) (hl : l.Perm log)
    (hlo : ∀ u ∈ log, lo ≤ u.timestamp) : measured lo last now l = runningTime last now log := by
  have hlo' : ∀ u ∈ l, lo ≤ u.timestamp := fun u hu => hlo u (hl.mem_iff.mp hu)
  cases hfirst : lastSeen isStart lo now l with
  | none =>
    have hlate := late_of_starts halternates hordered fun u hu =>
      lastSeen_eq_none hfirst hlo' (hl.mem_iff.mpr hu)
    rw [measured, hfirst, runningTime_of_late hlate, Option.elim_none]
  | some u =>
    obtain ⟨hu, hstart, hnow⟩ := lastSeen_eq_some hfirst
    have hu := hl.mem_iff.mp hu
    match log, hu, halternates with
    | [start], hu, _ =>
      obtain rfl := mem_singleton.mp hu
      exact measured_open hl hstart hfirst hfits
    | start :: stop :: rest, hu, halternates =>
      have hbegun : start.timestamp ≤ now := by
        rcases mem_cons.mp hu with rfl | hu
        · exact hnow
        · exact Int.le_trans (Int.le_of_lt ((pairwise_cons.mp hordered).1 u hu)) hnow
      have hlate := late_of_single halternates hordered hsingle hbegun
      obtain rfl : u = start := by
        rcases eq_or_eq_of_seen hlate hu hnow with h | h
        · exact h
        · rw [h] at hstart
          exact absurd halternates.2.1 hstart.not_isEnd
      exact measured_session hl halternates hlate hfirst hfits hlo'

theorem measured_le (lo last now : Int) (l : List Usage) : measured lo last now l < 2 ^ 63 := by
  unfold measured
  cases lastSeen isStart lo now l with
  | none =>
    rw [Option.elim_none]
    decide
  | some u =>
    rw [Option.elim_some]
    omega

/-- A second start that is stored before the first end hides everything. -/
theorem measured_swapped (last : Int) (halternates : Alternates (start :: stop :: rest))
    (hordered : (start :: stop :: rest).Pairwise fun u v => u.timestamp < v.timestamp)
    (hagain : ∃ u ∈ rest, u.isStart ∧ u.timestamp ≤ now)
    (hlo : ∀ u ∈ start :: stop :: rest, lo ≤ u.timestamp) :
    measured lo last now (start :: rest ++ [stop]) = 0 := by
  obtain ⟨hstart, hstop, -⟩ := halternates
  obtain ⟨-, hordered⟩ := pairwise_cons.mp hordered
  have hafter := (pairwise_cons.mp hordered).1
  obtain ⟨again, hagain, hstart', hnow⟩ := hagain
  have hseen : stop.timestamp ≤ now := Int.le_trans (Int.le_of_lt (hafter again hagain)) hnow
  have hlast : lastSeen isEnd lo now (start :: rest ++ [stop]) = some stop := by
    rw [lastSeen_append, lastSeen_singleton, if_pos ⟨hstop, hlo stop (by simp), hseen⟩]
    rfl
  have hfirst : ∃ u ∈ rest, lastSeen isStart lo now (start :: rest ++ [stop]) = some u := by
    cases hrest : lastSeen isStart lo now rest with
    | none =>
      have hlate := lastSeen_eq_none hrest (fun u hu => hlo u (by simp [hu])) hagain hstart'
      exact absurd hlate (Int.not_lt.mpr hnow)
    | some u =>
      refine ⟨u, (lastSeen_eq_some hrest).1, ?_⟩
      rw [lastSeen_append, lastSeen_singleton, if_neg fun h => h.1.not_isEnd hstop,
        ← singleton_append, lastSeen_append, hrest]
      rfl
  obtain ⟨u, hu, hfirst⟩ := hfirst
  have hlt := hafter u hu
  rw [measured, hfirst, hlast, Option.elim_some, Option.elim_some]
  unfold GoTime at *
  omega

include halternates hordered in
/-- Exactly when the events are measured right in every order they may be stored in. -/
theorem measured_eq_iff (hlo : ∀ u ∈ log, lo ≤ u.timestamp) :
    (∀ l : List Usage, l.Perm log → measured lo last now l = runningTime last now log) ↔
      runningTime last now log = 0 ∨
        (log.filter fun u => u.isStart ∧ u.timestamp ≤ now).length ≤ 1 ∧
          runningTime last now log < 2 ^ 63 := by
  constructor
  · intro h
    by_contra hnot
    obtain ⟨hrunning, hmany⟩ := not_or.mp hnot
    have hbound := measured_le lo last now log
    rw [h log (.refl _)] at hbound
    have hmany := fun hsingle => hmany ⟨hsingle, hbound⟩
    match log, halternates with
    | [], _ => exact hrunning rfl
    | [start], _ => exact hmany (length_filter_le _ _)
    | start :: stop :: rest, halternates =>
      have hagain : ∃ u ∈ rest, u.isStart ∧ u.timestamp ≤ now := by
        by_contra hnone
        apply hmany
        have hnil : (stop :: rest).filter (fun u => u.isStart ∧ u.timestamp ≤ now) = [] := by
          apply filter_eq_nil_iff.mpr
          intro u hu hseen
          have hseen := of_decide_eq_true hseen
          rcases mem_cons.mp hu with rfl | hu
          · exact hseen.1.not_isEnd halternates.2.1
          · exact hnone ⟨u, hu, hseen⟩
        rw [← singleton_append, filter_append, hnil, append_nil]
        exact length_filter_le _ _
      have hperm : (start :: rest ++ [stop]).Perm (start :: stop :: rest) :=
        (perm_append_singleton stop rest).cons start
      have hzero := h _ hperm
      rw [measured_swapped last halternates hordered hagain hlo] at hzero
      exact hrunning hzero.symm
  rintro (hzero | ⟨hsingle, hfits⟩) l hl
  · rw [hzero, measured_of_zero halternates hordered hzero hl hlo]
  · exact measured_of_single halternates hordered hsingle hfits hl hlo

end Sessions

/-- Both processors report the running time of an allocation, whatever the order in which the
store returns its events, if and only if the allocation does not run within the query or it
has been started at most once by its end and the time is one that a duration can hold. -/
theorem running_time_iff (P : Platform) (contractDID headContractDID allocationID : GoString)
    (log : List Usage) (hlog : AllocationLog contractDID headContractDID allocationID log)
    (last now : GoTime) (hyear : ∀ u ∈ log, P.yearBefore last ≤ u.timestamp)
    (hlast : GoTime.HasUnixNano (P.yearBefore last)) (hnow : GoTime.HasUnixNano now) :
    (∀ s, s.Holds contractDID headContractDID allocationID log → ∀ order,
        ReportsRunningTime P s order contractDID headContractDID allocationID log last now) ↔
      runningTime last now log = 0 ∨
        (log.filter fun u => u.isStart ∧ u.timestamp ≤ now).length ≤ 1 ∧
          runningTime last now log < 2 ^ 63 := by
  rw [← measured_eq_iff hlog.alternates hlog.ordered hyear]
  simp only [reportsRunningTime_iff hlast hnow]
  constructor
  · intro h l hl
    have hall := filter_eq_self.mpr fun u hu => hlog.concerns u (hl.mem_iff.mp hu)
    have hstore := h ⟨l, ∅⟩ (by rw [UsageStore.Holds, hall]; exact hl) .stored
    rwa [hall] at hstore
  · intro h s hs _
    exact h _ hs

def sampleSession : List Usage :=
  [sampleEvent .startAllocation 15000000000, sampleEvent .stopAllocation 45000000000]

theorem running_time_single : let last := GoTime.unixTime 1704067260 0
    let now := GoTime.unixTime 1704067320 0
    runningTime last now sampleSession = 15 * GoTime.second ∧
      ∀ s, s.Holds (ascii "contract") [] (ascii "allocation") sampleSession →
        ∀ order, ReportsRunningTime samplePlatform s order (ascii "contract") []
          (ascii "allocation") sampleSession last now := by
  refine ⟨by decide +kernel, ?_⟩
  exact (running_time_iff samplePlatform _ _ _ sampleSession
    ⟨by decide +kernel, by decide +kernel, by decide +kernel⟩ _ _ (by decide +kernel)
    (by decide +kernel) (by decide +kernel)).mpr (by decide +kernel)

/-- The log of an allocation that is stopped after half a minute and started again. -/
def sampleRestart : List Usage :=
  [sampleEvent .startAllocation 0, sampleEvent .stopAllocation 30000000000,
    sampleEvent .startAllocation 40000000000]

/-- After a restart nothing is reported of the 50 seconds within a minute. -/
theorem running_time_restart : let last := GoTime.unixTime 1704067230 0
    let now := GoTime.unixTime 1704067290 0
    let s : UsageStore := ⟨sampleRestart, ∅⟩
    AllocationLog (ascii "contract") [] (ascii "allocation") sampleRestart ∧
      s.Holds (ascii "contract") [] (ascii "allocation") sampleRestart ∧
      runningTime last now sampleRestart = 50 * GoTime.second ∧
      ¬ ReportsRunningTime samplePlatform s .stored (ascii "contract") [] (ascii "allocation")
        sampleRestart last now := by
  have hrunning : runningTime (GoTime.unixTime 1704067230 0) (GoTime.unixTime 1704067290 0)
      sampleRestart = 50 * GoTime.second := by decide +kernel
  refine ⟨⟨?_, ?_, ?_⟩, ?_, hrunning, ?_⟩
  · decide +kernel
  · decide +kernel
  · decide +kernel
  · have hall : sampleRestart.filter
        (concerns (ascii "contract") [] (ascii "allocation")) = sampleRestart := by
      decide +kernel
    rw [UsageStore.Holds, hall]
  · rintro ⟨⟨usage, ⟨⟩, hreported⟩, -⟩
    cases hreported

end DMS.Tokenomics
