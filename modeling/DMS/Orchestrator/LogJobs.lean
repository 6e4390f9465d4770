import DMS.Core.GoValue
import DMS.Core.Reach

/-! # Log-fetch jobs of one requester and allocation

`dms/orchestrator/allocation_logs_job.go` for one key of `logsJobs`. Every start makes a
goroutine, and these take their steps in any order between the calls. A goroutine finds its job by
the key, so that it may find the job of another.
-/

namespace DMS.Orchestrator.Logs

open List Option

/-- `AllocationLogsJobStatus` -/
inductive JobStatus
  | running
  | complete
  | stopped
  | failed
deriving DecidableEq, Repr

/-- `AllocationLogsJob`; `number` tells the jobs of the key apart and is not in the source. -/
structure LogsJob where
  number : Nat
  status : JobStatus
  error : String
  bytesWritten : Nat
  follow : Bool
deriving DecidableEq, Repr

inductive LogStream
  | stdout
  | stderr
deriving DecidableEq, Repr

def LogStream.text : LogStream → String
  | .stdout => "stdout"
  | .stderr => "stderr"

inductive Ending
  | complete
  | stopped
  | failed (err : String)
deriving DecidableEq, Repr

/-- `setLogsJobComplete`, `setLogsJobStopped` and `setLogsJobFailed` -/
def Ending.set : Ending → LogsJob → LogsJob
  | .complete, job => { job with status := .complete }
  | .stopped, job => { job with status := .stopped }
  | .failed err, job => { job with status := .failed, error := err }

/-- Where a goroutine is: before it has looked at its job, at the opening of a file, at the top of
the loop, before a turn of `drainLogStreamToFile`, in the network call, before `Write`, before
`addLogsJobBytesWritten`, in the `select`, before the setter, and behind it. -/
inductive Phase
  | spawned
  | opening (stream : LogStream)
  | looping
  | target (stream : LogStream)
  | draining (stream : LogStream)
  | calling (stream : LogStream)
  | writing (stream : LogStream) (data : GoString) (eof : Bool)
  | counting (stream : LogStream) (n : Nat) (eof : Bool)
  | waiting
  | finishing (ending : Ending)
  | ended
deriving DecidableEq, Repr

def Phase.fetching : Phase → Bool
  | .calling _ | .writing _ _ _ | .counting _ _ _ => true
  | _ => false

def Phase.writes : Phase → Bool
  | .writing _ _ _ => true
  | _ => false

/-- What is in the file and was not reported yet. -/
def Phase.uncounted : Phase → Nat
  | .counting _ n _ => n
  | _ => 0

/-- A goroutine of `runFetchAllocationLogs`. `cancelled` is what `ctx.Err` says, and `written` the
bytes that it has written to the files. -/
structure Fetcher where
  phase : Phase
  cancelled : Bool
  follow : Bool
  sawAny : Bool
  pass : Nat
  written : Nat
deriving DecidableEq, Repr

/-- The entry of the key, the goroutines in the order of their starts, and whether the context
of the orchestrator is cancelled. -/
structure Fetches where
  entry : Option LogsJob
  fetchers : List Fetcher
  down : Bool
deriving DecidableEq, Repr

structure FetchKey where
  requesterDID : String
  allocName : String
  ensembleID : String

/-- `StartFetchAllocationLogs`; `dir` is the outcome of `allocationLogsDir`. -/
def startFetchAllocationLogs (key : FetchKey) (follow : Bool) (dir : Except String Unit)
    (s : Fetches) : Except String LogsJob × Fetches :=
  if key.requesterDID = "" then (.error "requester DID is required", s)
  else if key.allocName = "" then (.error "allocation name is required", s)
  else
    match s.entry.filter (·.status = .running), dir with
    | some job, _ => (.ok job, s)
    | none, .error e => (.error e, s)
    | none, .ok () =>
      let job : LogsJob := ⟨s.fetchers.length, .running, "", 0, follow⟩
      (.ok job, { s with
        entry := some job
        fetchers := s.fetchers ++ [⟨.spawned, s.down, false, false, 0, 0⟩] })

def cancel (number : Nat) (fetchers : List Fetcher) : List Fetcher :=
  fetchers.modify number ({ · with cancelled := true })

def stopFetchAllocationLogs (key : FetchKey) (s : Fetches) : Except String LogsJob × Fetches :=
  match s.entry with
  | none => (.error ("no log fetch for allocation " ++ key.allocName ++ " by requester " ++
      key.requesterDID), s)
  | some job =>
    if job.status = .running then
      let stopped := { job with status := .stopped }
      (.ok stopped, { s with
        entry := some stopped
        fetchers := cancel job.number s.fetchers })
    else (.ok job, s)

/-- What a goroutine is told by the files, the network and the timer in one step; `proceed` is
a step that asks for nothing. -/
inductive Answer
  | proceed
  | replied (data : GoString) (eof : Bool)
  | refused (err : String)
  | cutOff (n : Nat) (err : String)
  | done
deriving DecidableEq, Repr

/-- An error of `drainLogStreamToFile` comes back to the loop. -/
def Fetcher.fail (f : Fetcher) (err : String) : Fetcher :=
  { f with phase := .finishing (if f.cancelled then .stopped else .failed err) }

def Fetcher.afterRound (f : Fetcher) (key : FetchKey) : Phase :=
  if f.follow then .waiting
  else if f.sawAny then .finishing .complete
  else .finishing (.failed ("stdout and stderr for allocation " ++ key.allocName ++
    " are empty (ensemble: " ++ key.ensembleID ++ ")"))

def Fetcher.next (f : Fetcher) (key : FetchKey) (stream : LogStream) (eof : Bool) : Fetcher :=
  if eof = false then { f with phase := .draining stream }
  else
    let f := { f with sawAny := f.sawAny || 0 < f.pass, pass := 0 }
    match stream with
    | .stdout => { f with phase := .target .stderr }
    | .stderr => { f with phase := f.afterRound key }

/-- One step of `runFetchAllocationLogs` on the entry of the key. An answer that the goroutine
does not wait for changes nothing. -/
def advance (key : FetchKey) (entry : Option LogsJob) (f : Fetcher) (a : Answer) :
    Option LogsJob × Fetcher :=
  match f.phase, a with
  | .spawned, .proceed =>
    match entry with
    | none => (entry, { f with phase := .ended })
    | some job => (entry, { f with phase := .opening .stdout, follow := job.follow })
  | .opening .stdout, .proceed => (entry, { f with phase := .opening .stderr })
  | .opening .stderr, .proceed => (entry, { f with phase := .looping })
  | .opening stream, .refused err =>
    (entry, { f with phase := .finishing (.failed ("open " ++ stream.text ++ " log: " ++ err)) })
  | .looping, .proceed =>
    (entry, { f with phase := if f.cancelled then .finishing .stopped else .target .stdout })
  | .target stream, .proceed => (entry, { f with phase := .draining stream })
  | .target _, .refused err => (entry, f.fail err)
  | .draining stream, .proceed =>
    (entry, if f.cancelled then f.fail "context canceled"
      else { f with phase := .calling stream })
  | .calling stream, .replied data eof =>
    (entry, if 0 < data.length then { f with phase := .writing stream data eof }
      else f.next key stream eof)
  | .calling _, .refused err => (entry, f.fail err)
  | .writing stream data eof, .proceed =>
    (entry, { f with
      phase := .counting stream data.length eof
      pass := f.pass + data.length
      written := f.written + data.length })
  | .writing stream _ _, .cutOff n err =>
    (entry, { f with written := f.written + n }.fail ("write " ++ stream.text ++ " log: " ++ err))
  | .counting stream n eof, .proceed =>
    (entry.map fun job => { job with bytesWritten := job.bytesWritten + n }, f.next key stream eof)
  | .waiting, .proceed => (entry, { f with phase := .looping })
  | .waiting, .done =>
    (entry, if f.cancelled then { f with phase := .finishing .stopped } else f)
  | .finishing ending, .proceed => (entry.map ending.set, { f with phase := .ended })
  | _, _ => (entry, f)

inductive FetchLabel
  | start (follow : Bool) (dir : Except String Unit)
  | stop
  | shutdown
  | fetch (i : Nat) (a : Answer)

def Fetches.fetch (s : Fetches) (key : FetchKey) (i : Nat) (a : Answer) : Fetches :=
  match s.fetchers[i]? with
  | none => s
  | some f =>
    let (entry, f) := advance key s.entry f a
    { s with entry, fetchers := s.fetchers.set i f }

def Fetches.step (key : FetchKey) (s : Fetches) : FetchLabel → Fetches
  | .start follow dir => (startFetchAllocationLogs key follow dir s).2
  | .stop => (stopFetchAllocationLogs key s).2
  | .shutdown =>
    { s with down := true, fetchers := s.fetchers.map ({ · with cancelled := true }) }
  | .fetch i a => s.fetch key i a

/-- At most one goroutine writes, a running job has a goroutine of its own, a job that is over
has none that fetches, and the entry counts what its own goroutine has written. -/
structure SingleFetch (s : Fetches) : Prop where
  one_writer : ∀ (i j : Nat) (f g : Fetcher), s.fetchers[i]? = some f → s.fetchers[j]? = some g →
    f.phase.writes = true → g.phase.writes = true → i = j
  running_live : ∀ job, s.entry = some job → job.status = .running →
    ∃ f, s.fetchers[job.number]? = some f ∧ f.phase ≠ .ended
  over_idle : ∀ job, s.entry = some job → job.status ≠ .running →
    ∀ f, s.fetchers[job.number]? = some f → f.phase.fetching = false
  counted : ∀ job, s.entry = some job → ∃ f, s.fetchers[job.number]? = some f ∧
    job.bytesWritten + f.phase.uncounted = f.written

/-- No job is started before the goroutines of the key are over, none is stopped during a
fetch, and a write that fails has written nothing. -/
def Apart (s : Fetches) : FetchLabel → Prop
  | .start _ (.ok _) => s.entry.any (·.status = .running) = true ∨
      ∀ f ∈ s.fetchers, f.phase = .ended
  | .start _ (.error _) => True
  | .stop => ∀ f ∈ s.fetchers, f.phase.fetching = false
  | .shutdown => True
  | .fetch _ (.cutOff n _) => n = 0
  | .fetch _ _ => True

instance (s : Fetches) : ∀ l, Decidable (Apart s l)
  | .start _ (.ok _) => inferInstanceAs (Decidable (_ ∨ _))
  | .stop => inferInstanceAs (Decidable (∀ f ∈ s.fetchers, _))
  | .fetch _ (.cutOff n _) => inferInstanceAs (Decidable (n = 0))
  | .start _ (.error _) | .shutdown | .fetch _ .proceed | .fetch _ (.replied _ _)
  | .fetch _ (.refused _) | .fetch _ .done => inferInstanceAs (Decidable True)

def ApartRun (key : FetchKey) : Fetches → Prop :=
  Reach (fun s => s = ⟨none, [], false⟩) Apart (Fetches.step key)

structure Agree (job : LogsJob) (f : Fetcher) : Prop where
  live : job.status = .running → f.phase ≠ .ended
  idle : job.status ≠ .running → f.phase = .ended ∨ f.cancelled = true ∧ f.phase.fetching = false
  counted : job.bytesWritten + f.phase.uncounted = f.written

def Alone (s : Fetches) : Prop := (s.entry = none ∧ s.fetchers = []) ∨
    ∃ job past f, s.entry = some job ∧ s.fetchers = past ++ [f] ∧ job.number = past.length ∧
      (∀ g ∈ past, g.phase = .ended) ∧ Agree job f

/-- A goroutine goes on to a phase in which it does not fetch. -/
structure Settles (f f' : Fetcher) : Prop where
  written : f'.written = f.written
  cancelled : f'.cancelled = f.cancelled
  idle : f'.phase.fetching = false
  live : f'.phase ≠ .ended

theorem Phase.uncounted_of_idle {p : Phase} (h : p.fetching = false) : p.uncounted = 0 := by
  cases p with
  | counting => simp [fetching] at h
  | _ => rfl

variable {f : Fetcher} {job : LogsJob} {key : FetchKey} {s : Fetches}

theorem Settles.counted {f'} (h : Settles f f') {n} (hn : n = f.written) :
    n + f'.phase.uncounted = f'.written := by
  rw [Phase.uncounted_of_idle h.idle, h.written, hn, Nat.add_zero]

theorem Fetcher.settles_fail (f : Fetcher) (err : String) : Settles f (f.fail err) :=
  ⟨rfl, rfl, rfl, nofun⟩

theorem Fetcher.afterRound_idle (f : Fetcher) (key : FetchKey) :
    (f.afterRound key).fetching = false ∧ f.afterRound key ≠ .ended := by
  unfold Fetcher.afterRound
  cases f.follow <;> cases f.sawAny <;> exact ⟨rfl, nofun⟩

theorem Fetcher.settles_next (f : Fetcher) (key : FetchKey) (stream : LogStream) (eof : Bool) :
    Settles f (f.next key stream eof) := by
  cases eof with
  | false => exact ⟨rfl, rfl, rfl, nofun⟩
  | true =>
    cases stream with
    | stdout => exact ⟨rfl, rfl, rfl, nofun⟩
    | stderr => exact ⟨rfl, rfl, (afterRound_idle _ key).1, (afterRound_idle _ key).2⟩

theorem Agree.running (h : Agree job f) (hlive : f.phase ≠ .ended)
    (hbusy : f.cancelled = false ∨ f.phase.fetching = true) : job.status = .running := by
  by_contra hstatus
  obtain hended | ⟨hcancelled, hidle⟩ := h.idle hstatus
  · exact hlive hended
  · simp [hcancelled, hidle] at hbusy

theorem Agree.settles {f'} (h : Agree job f) (hsettles : Settles f f')
    (hlive : f.phase ≠ .ended) (hcounted : f.phase.uncounted = 0) : Agree job f' where
  live := fun _ => hsettles.live
  idle := by
    intro hstatus
    obtain hended | ⟨hcancelled, -⟩ := h.idle hstatus
    · exact absurd hended hlive
    · exact .inr ⟨hsettles.cancelled.trans hcancelled, hsettles.idle⟩
  counted := hsettles.counted (by rw [← h.counted, hcounted, Nat.add_zero])

theorem Agree.fetches (hrunning : job.status = .running)
    (hlive : f.phase ≠ .ended) (hcounted : job.bytesWritten + f.phase.uncounted = f.written) :
    Agree job f :=
  ⟨fun _ => hlive, fun hstatus => absurd hrunning hstatus, hcounted⟩

theorem Agree.advance (h : Agree job f) (a : Answer) (hwhole : ∀ n err, a = .cutOff n err → n = 0) :
    ∃ job', (advance key (some job) f a).1 = some job' ∧ job'.number = job.number ∧
      Agree job' (advance key (some job) f a).2 := by
  obtain ⟨phase, cancelled, follow, sawAny, pass, written⟩ := f
  -- An answer that the phase does not wait for changes nothing.
  cases phase <;> cases a <;> try exact ⟨job, rfl, rfl, h⟩
  case spawned.proceed | target.proceed | waiting.proceed =>
    exact ⟨job, rfl, rfl, h.settles ⟨rfl, rfl, rfl, nofun⟩ nofun rfl⟩
  case opening.proceed stream | opening.refused stream _ =>
    cases stream <;> exact ⟨job, rfl, rfl, h.settles ⟨rfl, rfl, rfl, nofun⟩ nofun rfl⟩
  case opening.replied stream _ _ | opening.cutOff stream _ _ | opening.done stream =>
    cases stream <;> exact ⟨job, rfl, rfl, h⟩
  case looping.proceed =>
    cases cancelled <;> exact ⟨job, rfl, rfl, h.settles ⟨rfl, rfl, rfl, nofun⟩ nofun rfl⟩
  case target.refused err | calling.refused err =>
    exact ⟨job, rfl, rfl, h.settles (Fetcher.settles_fail _ err) nofun rfl⟩
  case draining.proceed =>
    cases cancelled with
    | true => exact ⟨job, rfl, rfl, h.settles (Fetcher.settles_fail _ _) nofun rfl⟩
    | false => exact ⟨job, rfl, rfl, .fetches (h.running nofun (.inl rfl)) nofun h.counted⟩
  case calling.replied stream data eof =>
    cases data with
    | nil => exact ⟨job, rfl, rfl, h.settles (Fetcher.settles_next _ key stream eof) nofun rfl⟩
    | cons b data =>
      exact ⟨job, rfl, rfl, .fetches (h.running nofun (.inr rfl)) nofun h.counted⟩
  case writing.proceed stream data eof =>
    refine ⟨job, rfl, rfl, .fetches (h.running nofun (.inr rfl)) nofun ?_⟩
    exact congrArg (· + data.length) h.counted
  case writing.cutOff n err =>
    obtain rfl := hwhole n err rfl
    exact ⟨job, rfl, rfl, h.settles (Fetcher.settles_fail _ _) nofun rfl⟩
  case counting.proceed stream n eof =>
    have hsettles := Fetcher.settles_next
      ⟨.counting stream n eof, cancelled, follow, sawAny, pass, written⟩ key stream eof
    exact ⟨_, rfl, rfl, .fetches (h.running nofun (.inr rfl)) hsettles.live
      (hsettles.counted h.counted)⟩
  case waiting.done =>
    cases cancelled with
    | true => exact ⟨job, rfl, rfl, h.settles ⟨rfl, rfl, rfl, nofun⟩ nofun rfl⟩
    | false => exact ⟨job, rfl, rfl, h⟩
  case finishing.proceed ending =>
    cases ending <;> exact ⟨_, rfl, rfl, nofun, fun _ => .inl rfl, h.counted⟩

theorem Agree.cancelled (h : Agree job f) : Agree job { f with cancelled := true } where
  live := h.live
  idle := fun hstatus => (h.idle hstatus).imp_right fun hidle => ⟨rfl, hidle.2⟩
  counted := h.counted

theorem Alone.start (h : Alone s) (follow : Bool)
    (dir : Except String Unit) (hapart : Apart s (.start follow dir)) :
    Alone (startFetchAllocationLogs key follow dir s).2 := by
  unfold startFetchAllocationLogs
  split
  · exact h
  split
  · exact h
  cases hentry : s.entry.filter (·.status = .running) with
  | some job => exact h
  | none =>
    cases dir with
    | error e => exact h
    | ok _ =>
      obtain hrunning | hended := hapart
      · cases hjob : s.entry with
        | none => simp [hjob] at hrunning
        | some job => simp_all
      · exact .inr ⟨_, s.fetchers, _, rfl, rfl, rfl, hended, nofun, fun h => absurd rfl h, rfl⟩

theorem Alone.stop (h : Alone s) (hapart : Apart s .stop) :
    Alone (stopFetchAllocationLogs key s).2 := by
  obtain ⟨hentry, hfetchers⟩ | ⟨job, past, f, hentry, hfetchers, hnumber, hpast, hagree⟩ := h
  · simp [stopFetchAllocationLogs, hentry, Alone, hfetchers]
  rw [stopFetchAllocationLogs, hentry]
  dsimp only
  split
  · have hidle : f.phase.fetching = false := hapart f (by simp [hfetchers])
    refine .inr ⟨_, past, { f with cancelled := true }, rfl, ?_, hnumber, hpast, nofun,
      fun _ => .inr ⟨rfl, hidle⟩, hagree.counted⟩
    simp [cancel, hfetchers, hnumber, modify_eq_take_cons_drop]
  · exact .inr ⟨job, past, f, hentry, hfetchers, hnumber, hpast, hagree⟩

theorem Alone.shutdown (h : Alone s) : Alone (s.step key .shutdown) := by
  obtain ⟨hentry, hfetchers⟩ | ⟨job, past, f, hentry, hfetchers, hnumber, hpast, hagree⟩ := h
  · exact .inl ⟨hentry, by simp [Fetches.step, hfetchers]⟩
  refine .inr ⟨job, past.map ({ · with cancelled := true }), _, hentry,
    by simp [Fetches.step, hfetchers], by simpa using hnumber, ?_, hagree.cancelled⟩
  simpa using hpast

theorem getElem_ended {past} (hpast : ∀ g ∈ past, g.phase = .ended)
    {i} (hlt : i < (past ++ [f]).length) (hi : i ≠ past.length) :
    (past ++ [f])[i].phase = .ended := by
  have hlt' : i < past.length := by
    rw [length_append, length_singleton] at hlt
    omega
  rw [getElem_append_left hlt']
  exact hpast _ (getElem_mem hlt')

theorem Alone.fetch (h : Alone s) (i : Nat) (a : Answer)
    (hwhole : ∀ n err, a = .cutOff n err → n = 0) : Alone (s.fetch key i a) := by
  unfold Fetches.fetch
  cases hi : s.fetchers[i]? with
  | none => exact h
  | some g =>
    obtain ⟨hentry, hfetchers⟩ | ⟨job, past, f, hentry, hfetchers, hnumber, hpast, hagree⟩ := h
    · simp [hfetchers] at hi
    dsimp only
    rw [hfetchers] at hi ⊢
    rw [hentry]
    by_cases hown : i = past.length
    · subst hown
      obtain rfl : f = g := by simpa using hi
      obtain ⟨job', hjob', hnumber', hagree'⟩ := hagree.advance a hwhole
      refine .inr ⟨job', past, _, hjob', ?_, hnumber'.trans hnumber, hpast, hagree'⟩
      simp
    obtain ⟨hlt, rfl⟩ := List.getElem?_eq_some_iff.mp hi
    have hended := getElem_ended hpast hlt hown
    unfold advance
    rw [hended]
    exact .inr ⟨job, past, f, rfl, set_getElem_self hlt, hnumber, hpast, hagree⟩

theorem Alone.singleFetch (h : Alone s) : SingleFetch s := by
  obtain ⟨hentry, hfetchers⟩ | ⟨job, past, f, hentry, hfetchers, hnumber, hpast, hagree⟩ := h
  · exact ⟨by simp [hfetchers], by simp [hentry], by simp [hentry], by simp [hentry]⟩
  have hown : s.fetchers[job.number]? = some f := by simp [hfetchers, hnumber]
  have hwriter : ∀ (i : Nat) (g : Fetcher), s.fetchers[i]? = some g → g.phase.writes = true →
      i = past.length := by
    intro i g hi hwrites
    by_contra hne
    rw [hfetchers] at hi
    obtain ⟨hlt, rfl⟩ := List.getElem?_eq_some_iff.mp hi
    rw [getElem_ended hpast hlt hne] at hwrites
    exact absurd hwrites (by decide)
  refine ⟨?_, ?_, ?_, ?_⟩
  · intro i j g g' hi hj hg hg'
    rw [hwriter i g hi hg, hwriter j g' hj hg']
  · intro job' hjob' hrunning
    obtain rfl := some.inj (hentry.symm.trans hjob')
    exact ⟨f, hown, hagree.live hrunning⟩
  · intro job' hjob' hover g hg
    obtain rfl := some.inj (hentry.symm.trans hjob')
    obtain rfl := some.inj (hown.symm.trans hg)
    obtain hended | ⟨-, hidle⟩ := hagree.idle hover
    · rw [hended]
      rfl
    · exact hidle
  intro job' hjob'
  obtain rfl := some.inj (hentry.symm.trans hjob')
  exact ⟨f, hown, hagree.counted⟩

/-- In a run whose steps are taken apart the key has one fetch at a time. -/
theorem singleFetch_of_apart {key : FetchKey} {s : Fetches} (h : ApartRun key s) :
    SingleFetch s := by
  refine Alone.singleFetch (h.invariant Alone ?_ ?_)
  · rintro s rfl
    exact .inl ⟨rfl, rfl⟩
  intro s l hs hapart
  cases l with
  | start follow dir => exact hs.start follow dir hapart
  | stop => exact hs.stop hapart
  | shutdown => exact hs.shutdown
  | fetch i a =>
    refine hs.fetch i a ?_
    rintro n err rfl
    exact hapart

def sampleKey : FetchKey := ⟨"did:key:alice", "web", "ensemble"⟩

/-- Goroutine `i` gets to its first call. -/
def untilCall (i : Nat) : List FetchLabel := List.replicate 6 (.fetch i .proceed)

def replyTo (i : Nat) : FetchLabel := .fetch i (.replied (ascii "log") true)

def plainFetch : List FetchLabel :=
  .start false (.ok ()) :: untilCall 0 ++ [replyTo 0, .fetch 0 .proceed, .fetch 0 .proceed] ++
    List.replicate 2 (.fetch 0 .proceed) ++ [.fetch 0 (.replied [] true), .fetch 0 .proceed, .stop]

def restarted : List FetchLabel :=
  .start true (.ok ()) :: untilCall 0 ++ [.stop, .start true (.ok ())] ++ untilCall 1 ++
    [replyTo 0, replyTo 1]

def runOf (labels : List FetchLabel) : Fetches :=
  labels.foldl (Fetches.step sampleKey) ⟨none, [], false⟩

theorem singleFetch_of_apart_plain : (runOf plainFetch).entry = some ⟨0, .complete, "", 3, false⟩ ∧
      SingleFetch (runOf plainFetch) := by
  have hstart : ApartRun sampleKey ⟨none, [], false⟩ := .init rfl
  exact ⟨by decide +kernel, singleFetch_of_apart (hstart.foldl (by decide +kernel))⟩

/-- Right after the stop the first goroutine still waits for its reply. Then both write, and the
first counts its bytes for the second job. -/
theorem restart_not_single :
    ¬ SingleFetch (runOf (restarted.take 8)) ∧ ¬ SingleFetch (runOf restarted) ∧
      ¬ SingleFetch (runOf (restarted ++ [.fetch 0 .proceed, .fetch 0 .proceed])) := by
  refine ⟨?_, ?_, ?_⟩
  · intro h
    have hidle := h.over_idle ⟨0, .stopped, "", 0, true⟩ (by decide +kernel) (by decide)
      ⟨.calling .stdout, true, true, false, 0, 0⟩ (by decide +kernel)
    exact absurd hidle (by decide)
  · intro h
    have hsame := h.one_writer 0 1 ⟨.writing .stdout (ascii "log") true, true, true, false, 0, 0⟩
      ⟨.writing .stdout (ascii "log") true, false, true, false, 0, 0⟩
      (by decide +kernel) (by decide +kernel) rfl rfl
    exact absurd hsame (by decide)
  intro h
  obtain ⟨f, hf, hcounted⟩ := h.counted ⟨1, .running, "", 3, true⟩ (by decide +kernel)
  have hown : (runOf (restarted ++ [.fetch 0 .proceed, .fetch 0 .proceed])).fetchers[1]? =
      some ⟨.writing .stdout (ascii "log") true, false, true, false, 0, 0⟩ := by decide +kernel
  obtain rfl := some.inj (hown.symm.trans hf)
  exact absurd hcounted (by decide)

end DMS.Orchestrator.Logs
