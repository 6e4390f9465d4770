import DMS.Actor.Message
import DMS.Core.MapTotal
import DMS.Core.Reach
import Mathlib.Algebra.Order.BigOperators.Group.List
import Mathlib.Algebra.Ring.Int.Defs

/-! # The rate limiter

`BasicRateLimiter` of `actor/limiter.go`. A message takes a place when its behaviour is about to
run and gives it back afterwards; broadcasts count twice, together and by topic. Every method
holds the mutex, so that an interleaving is a list of calls.
-/

namespace DMS.Actor

open List AList Option

structure RateLimiterConfig where
  publicLimitAllow : Int
  publicLimitAcquire : Int
  broadcastLimitAllow : Int
  broadcastLimitAcquire : Int
  topicDefaultLimit : Int
  topicLimit : GoMap GoString Int

namespace RateLimiterConfig

/-- `DefaultRateLimiterConfig` -/
def default : RateLimiterConfig := ⟨4096, 4112, 1024, 1040, 128, ∅⟩

/-- The limit of a topic, its own or the one for all topics without one. -/
def limitOf (cfg : RateLimiterConfig) (topic : GoString) : Int :=
  match cfg.topicLimit.lookup topic with
  | some topicLimit => topicLimit
  | none => cfg.topicDefaultLimit

end RateLimiterConfig

structure RateLimiter where
  cfg : RateLimiterConfig
  activeBroadcast : Int
  activeTopics : GoMap GoString Int
  activePublic : Int

namespace RateLimiter

/-- `NewRateLimiter` -/
def new (cfg : RateLimiterConfig) : RateLimiter := ⟨cfg, 0, ∅, 0⟩

/-- `activeTopics[topic]` -/
def active (l : RateLimiter) (topic : GoString) : Int := (l.activeTopics.lookup topic).getD 0

def acquirePublic (l : RateLimiter) : Except String RateLimiter :=
  if l.cfg.publicLimitAcquire ≤ l.activePublic then .error "rate limited exceeded"
  else .ok { l with activePublic := l.activePublic + 1 }

def acquireBroadcast (l : RateLimiter) (msg : Envelope) : Except String RateLimiter :=
  let topic := msg.options.topic
  if l.cfg.broadcastLimitAcquire ≤ l.activeBroadcast then .error "rate limited exceeded"
  else if l.cfg.limitOf topic ≤ l.active topic then .error "rate limited exceeded"
  else
    .ok { l with
      activeTopics := l.activeTopics.insert topic (l.active topic + 1)
      activeBroadcast := l.activeBroadcast + 1 }

def acquire (l : RateLimiter) (msg : Envelope) : Except String RateLimiter :=
  if msg.isBroadcast then l.acquireBroadcast msg
  else if msg.isPublicBehavior then l.acquirePublic
  else .ok l

def releasePublic (l : RateLimiter) : RateLimiter := { l with activePublic := l.activePublic - 1 }

def releaseBroadcast (l : RateLimiter) (msg : Envelope) : RateLimiter :=
  let topic := msg.options.topic
  match l.activeTopics.lookup topic with
  | none => l
  | some active =>
    { l with
      activeTopics :=
        if 0 < active - 1 then l.activeTopics.insert topic (active - 1)
        else l.activeTopics.erase topic
      activeBroadcast := l.activeBroadcast - 1 }

def release (l : RateLimiter) (msg : Envelope) : RateLimiter :=
  if msg.isBroadcast then l.releaseBroadcast msg
  else if msg.isPublicBehavior then l.releasePublic
  else l

def setConfig (l : RateLimiter) (cfg : RateLimiterConfig) : RateLimiter := { l with cfg := cfg }

/-- The counters of a message are within the limits of a configuration. -/
structure HasRoom (l : RateLimiter) (cfg : RateLimiterConfig) (msg : Envelope) : Prop where
  broadcast : msg.isBroadcast = true → l.activeBroadcast < cfg.broadcastLimitAcquire ∧
      l.active msg.options.topic < cfg.limitOf msg.options.topic
  direct : msg.isBroadcast = false → msg.isPublicBehavior = true →
    l.activePublic < cfg.publicLimitAcquire

theorem acquire_eq_ok {l l' : RateLimiter} {msg} (h : l.acquire msg = .ok l') :
    l.HasRoom l.cfg msg ∧ ((msg.isBroadcast = true ∧ l' = { l with
          activeTopics := l.activeTopics.insert msg.options.topic (l.active msg.options.topic + 1)
          activeBroadcast := l.activeBroadcast + 1 }) ∨
        (msg.isBroadcast = false ∧ msg.isPublicBehavior = true ∧
          l' = { l with activePublic := l.activePublic + 1 }) ∨
        (msg.isBroadcast = false ∧ msg.isPublicBehavior = false ∧ l' = l)) := by
  unfold acquire at h
  split at h
  · next hbroadcast =>
    unfold acquireBroadcast at h
    dsimp only at h
    split at h
    · cases h
    split at h
    · cases h
    cases h
    refine ⟨⟨fun _ => ⟨by omega, by omega⟩, ?_⟩, .inl ⟨hbroadcast, rfl⟩⟩
    intro hnot
    cases hbroadcast.symm.trans hnot
  rename_i hbroadcast
  have hbroadcast : msg.isBroadcast = false := by simpa using hbroadcast
  have hvacuous : msg.isBroadcast = true → l.activeBroadcast < l.cfg.broadcastLimitAcquire ∧
      l.active msg.options.topic < l.cfg.limitOf msg.options.topic := by
    intro h
    cases hbroadcast.symm.trans h
  split at h
  · next hpublic =>
    unfold acquirePublic at h
    split at h
    · cases h
    cases h
    exact ⟨⟨hvacuous, fun _ _ => by omega⟩, .inr (.inl ⟨hbroadcast, hpublic, rfl⟩)⟩
  rename_i hpublic
  cases h
  refine ⟨⟨hvacuous, fun _ hp => absurd hp hpublic⟩, .inr (.inr ⟨hbroadcast, ?_, rfl⟩)⟩
  simpa using hpublic

end RateLimiter

/-- The limiter, and the messages that were acquired and are not released yet. -/
structure Traffic where
  limiter : RateLimiter
  inFlight : List Envelope

inductive LimiterCall
  | acquire (msg : Envelope)
  | release (msg : Envelope)
  | setConfig (cfg : RateLimiterConfig)

namespace Traffic

/-- An `Acquire` that fails starts nothing. -/
def step (s : Traffic) : LimiterCall → Traffic
  | .acquire msg =>
    match s.limiter.acquire msg with
    | .ok limiter => ⟨limiter, msg :: s.inFlight⟩
    | .error _ => s
  | .release msg => ⟨s.limiter.release msg, s.inFlight.erase msg⟩
  | .setConfig cfg => { s with limiter := s.limiter.setConfig cfg }

def Paired (s : Traffic) : LimiterCall → Prop
  | .release msg => msg ∈ s.inFlight
  | _ => True

def fresh (cfg : RateLimiterConfig) : Traffic := ⟨.new cfg, []⟩

/-- The configuration of the last `SetConfig` of some calls, or the one before them. -/
def inForce (cfg : RateLimiterConfig) : List LimiterCall → RateLimiterConfig
  | [] => cfg
  | .setConfig cfg' :: calls => inForce cfg' calls
  | .acquire _ :: calls => inForce cfg calls
  | .release _ :: calls => inForce cfg calls

def isPublic (msg : Envelope) : Bool := !msg.isBroadcast && msg.isPublicBehavior

def isOn (topic : GoString) (msg : Envelope) : Bool :=
  msg.isBroadcast && decide (msg.options.topic = topic)

def topicTotal (m : GoMap GoString Int) : Int := (m.entries.map (·.2)).sum

theorem topicTotal_erase (m : GoMap GoString Int) (k : GoString) :
    topicTotal (m.erase k) + (m.lookup k).getD 0 = topicTotal m := by
  have hsplit := ((GoMap.entries_perm_erase m k).map
    fun e : Sigma fun _ : GoString => Int => e.2).sum_eq
  rw [map_append, sum_append] at hsplit
  unfold topicTotal
  rw [hsplit, Int.add_comm]
  congr 1
  cases m.lookup k with
  | none => rfl
  | some n => simp

theorem topicTotal_insert (m : GoMap GoString Int) (k : GoString) (n : Int) :
    topicTotal (m.insert k n) = topicTotal (m.erase k) + n := by
  rw [Int.add_comm]
  rfl

structure Accounted (s : Traffic) : Prop where
  direct : s.limiter.activePublic = s.inFlight.countP isPublic
  topic : ∀ topic, s.limiter.active topic = s.inFlight.countP (isOn topic)
  broadcast : s.limiter.activeBroadcast = topicTotal s.limiter.activeTopics
  positive : ∀ topic n, s.limiter.activeTopics.lookup topic = some n → 0 < n

theorem accounted_fresh (cfg : RateLimiterConfig) : Accounted (fresh cfg) where
  direct := rfl
  topic topic := by simp [fresh, RateLimiter.active, RateLimiter.new]
  broadcast := rfl
  positive topic n h := by simp [fresh, RateLimiter.new] at h

theorem active_insert (l : RateLimiter) (topic topic' : GoString) (n k : Int) :
    RateLimiter.active { l with
      activeTopics := l.activeTopics.insert topic n, activeBroadcast := k } topic' =
        if topic' = topic then n else l.active topic' := by
  unfold RateLimiter.active
  split
  · next h => rw [h, lookup_insert, getD_some]
  · next h => rw [lookup_insert_ne h]

variable {msg : Envelope} {s : Traffic} {m : GoMap GoString Int} {topic : GoString} {n : Int}

theorem isOn_of_broadcast (h : msg.isBroadcast = true) (topic : GoString) :
    isOn topic msg = decide (topic = msg.options.topic) := by
  simp [isOn, h, eq_comm]

theorem Accounted.acquireBroadcast (h : Accounted s) (hkind : msg.isBroadcast = true) :
    Accounted ⟨{ s.limiter with
      activeTopics := s.limiter.activeTopics.insert msg.options.topic
        (s.limiter.active msg.options.topic + 1)
      activeBroadcast := s.limiter.activeBroadcast + 1 }, msg :: s.inFlight⟩ := by
  refine ⟨?_, ?_, ?_, ?_⟩
  · simpa [isPublic, hkind] using h.direct
  · intro topic
    rw [active_insert, countP_cons, isOn_of_broadcast hkind]
    by_cases htopic : topic = msg.options.topic
    · rw [htopic, h.topic]
      simp
    · rw [if_neg htopic, h.topic]
      simp [htopic]
  · have htotal := topicTotal_erase s.limiter.activeTopics msg.options.topic
    have hbroadcast := h.broadcast
    dsimp only
    rw [topicTotal_insert, RateLimiter.active]
    omega
  refine GoMap.forall_lookup_insert h.positive ?_
  have hcount := h.topic msg.options.topic
  omega

theorem countP_erase_add (hin : msg ∈ s.inFlight) (p : Envelope → Bool) :
    s.inFlight.countP p = (s.inFlight.erase msg).countP p + if p msg then 1 else 0 := by
  rw [(perm_cons_erase hin).countP_eq, countP_cons]

def lowered (m : GoMap GoString Int) (topic : GoString) (n : Int) : GoMap GoString Int :=
  if 0 < n - 1 then m.insert topic (n - 1) else m.erase topic

theorem lookup_lowered (hpos : 0 < n) (topic' : GoString) :
    ((lowered m topic n).lookup topic').getD 0 =
      if topic' = topic then n - 1 else (m.lookup topic').getD 0 := by
  unfold lowered
  by_cases htopic : topic' = topic
  · subst htopic
    rw [if_pos rfl]
    split
    · rw [lookup_insert, getD_some]
    · rw [lookup_erase, getD_none]
      omega
  split
  · rw [lookup_insert_ne htopic]
  · rw [lookup_erase_ne htopic]

theorem topicTotal_lowered (hpos : 0 < n)
    (h : m.lookup topic = some n) : topicTotal (lowered m topic n) = topicTotal m - 1 := by
  have htotal := topicTotal_erase m topic
  rw [h, getD_some] at htotal
  unfold lowered
  split
  · rw [topicTotal_insert]
    omega
  · omega

theorem positive_lowered (h : ∀ topic n, m.lookup topic = some n → 0 < n) {topic' k}
    (hk : (lowered m topic n).lookup topic' = some k) : 0 < k := by
  unfold lowered at hk
  split at hk
  · next hmore => exact GoMap.forall_lookup_insert h hmore topic' k hk
  · exact h topic' k (GoMap.lookup_of_erase hk).2

theorem Accounted.lookup_topic (h : Accounted s)
    (hkind : msg.isBroadcast = true) (hin : msg ∈ s.inFlight) :
    s.limiter.activeTopics.lookup msg.options.topic =
      some (s.limiter.active msg.options.topic) := by
  have hone : 0 < s.inFlight.countP (isOn msg.options.topic) :=
    countP_pos_iff.mpr ⟨msg, hin, by simp [isOn, hkind]⟩
  have hcount := h.topic msg.options.topic
  unfold RateLimiter.active at hcount ⊢
  cases hentry : s.limiter.activeTopics.lookup msg.options.topic with
  | none =>
    rw [hentry, getD_none] at hcount
    omega
  | some n => rfl

theorem Accounted.releaseBroadcast (h : Accounted s)
    (hkind : msg.isBroadcast = true) (hin : msg ∈ s.inFlight) :
    Accounted ⟨s.limiter.releaseBroadcast msg, s.inFlight.erase msg⟩ := by
  have hlookup := h.lookup_topic hkind hin
  have hpos := h.positive _ _ hlookup
  have hresult : s.limiter.releaseBroadcast msg = { s.limiter with
      activeTopics := lowered s.limiter.activeTopics msg.options.topic
        (s.limiter.active msg.options.topic)
      activeBroadcast := s.limiter.activeBroadcast - 1 } := by
    unfold RateLimiter.releaseBroadcast
    dsimp only
    rw [hlookup]
    rfl
  rw [hresult]
  refine ⟨?_, ?_, ?_, fun topic n => positive_lowered h.positive⟩
  · have hcount := countP_erase_add hin isPublic
    have hdirect := h.direct
    simp only [isPublic, hkind, Bool.not_true, Bool.false_and] at hcount
    rw [hdirect, hcount]
    simp
  · intro topic
    have hcount := countP_erase_add hin (isOn topic)
    have htopic := h.topic topic
    rw [isOn_of_broadcast hkind] at hcount
    change ((lowered _ _ _).lookup topic).getD 0 = _
    rw [lookup_lowered hpos]
    by_cases heq : topic = msg.options.topic
    · subst heq
      rw [if_pos rfl]
      simp only [decide_true, if_true] at hcount
      dsimp only
      omega
    rw [if_neg heq]
    simp only [heq, decide_false, Bool.false_eq_true, if_false, Nat.add_zero] at hcount
    rw [← hcount]
    exact htopic
  have hbroadcast := h.broadcast
  have htotal := topicTotal_lowered hpos hlookup
  dsimp only
  omega

theorem Accounted.direct_step (h : Accounted s) {messages : List Envelope}
    (hdirect : n = messages.countP isPublic)
    (htopics : ∀ topic, messages.countP (isOn topic) = s.inFlight.countP (isOn topic)) :
    Accounted ⟨{ s.limiter with activePublic := n }, messages⟩ :=
  ⟨hdirect, fun topic => by rw [htopics]; exact h.topic topic, h.broadcast, h.positive⟩

theorem Accounted.step (h : Accounted s) {call} (hpaired : s.Paired call) :
    Accounted (s.step call) := by
  cases call with
  | setConfig cfg => exact ⟨h.direct, h.topic, h.broadcast, h.positive⟩
  | acquire msg =>
    unfold Traffic.step
    dsimp only
    split
    · next limiter hok =>
      obtain ⟨-, ⟨hkind, rfl⟩ | ⟨hkind, hpublic, rfl⟩ | ⟨hkind, hpublic, rfl⟩⟩ :=
        RateLimiter.acquire_eq_ok hok
      · exact h.acquireBroadcast hkind
      · refine h.direct_step ?_ ?_
        · rw [h.direct, countP_cons, isPublic, hkind, hpublic]
          simp
        intro topic
        rw [countP_cons, isOn, hkind]
        simp
      refine h.direct_step ?_ ?_
      · rw [h.direct, countP_cons, isPublic, hpublic]
        simp
      intro topic
      rw [countP_cons, isOn, hkind]
      simp
    · exact h
  | release msg =>
    unfold Traffic.step RateLimiter.release
    dsimp only
    split
    · next hkind => exact h.releaseBroadcast hkind hpaired
    rename_i hkind
    have hkind : msg.isBroadcast = false := by simpa using hkind
    have htopics : ∀ topic, (s.inFlight.erase msg).countP (isOn topic) =
        s.inFlight.countP (isOn topic) := by
      intro topic
      have hcount := countP_erase_add hpaired (isOn topic)
      rw [isOn, hkind] at hcount
      simpa using hcount.symm
    have hcount := countP_erase_add hpaired isPublic
    have hdirect := h.direct
    split
    · next hpublic =>
      refine h.direct_step ?_ htopics
      rw [isPublic, hkind, hpublic] at hcount
      simp only [Bool.not_false, Bool.and_self, if_true] at hcount
      omega
    rename_i hpublic
    have hpublic : msg.isPublicBehavior = false := by simpa using hpublic
    refine h.direct_step ?_ htopics
    rw [isPublic, hpublic] at hcount
    simp only [Bool.and_false, Bool.false_eq_true, if_false, Nat.add_zero] at hcount
    rw [hdirect, hcount]

structure NonNegative (l : RateLimiter) : Prop where
  direct : 0 ≤ l.activePublic
  broadcast : 0 ≤ l.activeBroadcast
  topic : ∀ topic n, l.activeTopics.lookup topic = some n → 0 ≤ n

theorem Accounted.nonNegative (h : Accounted s) : NonNegative s.limiter where
  direct := by
    rw [h.direct]
    exact Int.natCast_nonneg _
  broadcast := by
    rw [h.broadcast]
    refine sum_nonneg ?_
    intro n hn
    obtain ⟨e, he, rfl⟩ := mem_map.mp hn
    exact Int.le_of_lt (h.positive e.1 e.2 (mem_lookup_iff.mpr he))
  topic topic n hn := Int.le_of_lt (h.positive topic n hn)

theorem release_cfg (l : RateLimiter) (msg : Envelope) : (l.release msg).cfg = l.cfg := by
  unfold RateLimiter.release RateLimiter.releaseBroadcast RateLimiter.releasePublic
  dsimp only
  split
  · split <;> rfl
  · split <;> rfl

theorem cfg_foldl (s : Traffic) (calls : List LimiterCall) :
    (calls.foldl step s).limiter.cfg = inForce s.limiter.cfg calls := by
  induction calls generalizing s with
  | nil => rfl
  | cons call calls ih =>
    rw [foldl_cons, ih]
    cases call with
    | setConfig cfg => rfl
    | release msg => rw [inForce, Traffic.step, release_cfg]
    | acquire msg =>
      rw [inForce, Traffic.step]
      split
      · next limiter hok =>
        obtain ⟨-, ⟨-, rfl⟩ | ⟨-, -, rfl⟩ | ⟨-, -, rfl⟩⟩ := RateLimiter.acquire_eq_ok hok <;> rfl
      · rfl

/-- In every interleaving the counters count the messages in flight, the broadcast counter is the
sum of the topics, none is below zero, and an `Acquire` that succeeds finds room in the
configuration that was set last. -/
theorem run_accounted {cfg : RateLimiterConfig} {calls : List LimiterCall}
    (h : Reach.Passes Paired step (fresh cfg) calls) : let s := calls.foldl step (fresh cfg)
    s.limiter.activePublic = s.inFlight.countP isPublic ∧
      (∀ topic, s.limiter.active topic = s.inFlight.countP (isOn topic)) ∧
      s.limiter.activeBroadcast = topicTotal s.limiter.activeTopics ∧ NonNegative s.limiter ∧
      ∀ msg limiter, s.limiter.acquire msg = .ok limiter →
        s.limiter.HasRoom (inForce cfg calls) msg := by
  have hacc : Accounted (calls.foldl step (fresh cfg)) := by
    refine h.invariant Accounted (accounted_fresh cfg) ?_ calls (prefix_refl calls)
    exact fun s call hs hpaired => hs.step hpaired
  refine ⟨hacc.direct, hacc.topic, hacc.broadcast, hacc.nonNegative, fun msg limiter hok => ?_⟩
  have hroom := (RateLimiter.acquire_eq_ok hok).1
  rw [cfg_foldl] at hroom
  exact hroom

end Traffic

def newsMessage : Envelope :=
  ⟨⟨[], .zero, ⟨[], []⟩⟩, ascii "/broadcast/hello", ⟨[], .zero, ⟨[], []⟩⟩, ⟨ascii "/news"⟩, []⟩

def newsCalls : List LimiterCall := [.acquire newsMessage, .acquire newsMessage,
    .setConfig { RateLimiterConfig.default with topicDefaultLimit := 1 }, .release newsMessage]

def newsTraffic : Traffic := newsCalls.foldl Traffic.step (.fresh .default)

/-- The limit of the last configuration is reached. -/
theorem newsTraffic_accounted :
    newsTraffic.inFlight = [newsMessage] ∧ newsTraffic.limiter.active (ascii "/news") = 1 ∧
      newsTraffic.limiter.activeBroadcast = 1 ∧
      ∀ limiter, newsTraffic.limiter.acquire newsMessage ≠ .ok limiter := by
  have hpasses : Reach.Passes Traffic.Paired Traffic.step (.fresh .default) newsCalls := by
    refine ⟨trivial, trivial, trivial, ?_, trivial⟩
    change newsMessage ∈ _
    decide
  have hinFlight : newsTraffic.inFlight = [newsMessage] := by decide
  obtain ⟨-, htopic, hbroadcast, -, hroom⟩ := Traffic.run_accounted hpasses
  have hactive : newsTraffic.limiter.active (ascii "/news") = 1 := by
    refine (htopic (ascii "/news")).trans ?_
    decide
  refine ⟨hinFlight, hactive, hbroadcast.trans (by decide), fun limiter hok => ?_⟩
  have hlimit := ((hroom newsMessage limiter hok).broadcast (by decide)).2
  exact absurd (hactive ▸ hlimit) (by decide)

end DMS.Actor
