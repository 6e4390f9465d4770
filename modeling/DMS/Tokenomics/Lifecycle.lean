import DMS.Core.Reach
import DMS.Tokenomics.Agreement

/-! # The life of a contract on its host

A contract actor handles messages one after another, while the goroutine of
`ContractActor.Start` looks at the end date from time to time. The history of a contract is
meant to lead from the draft to the current state, and a contract that is over is meant to
stay over.
-/

namespace DMS.Tokenomics

open Did Agreement HostMessage

def ContractState.isFinal : ContractState → Bool
  | .terminated | .completed | .settled => true
  | _ => false

/-- The transitions lead from one state to the other, each from where the one before it ended. -/
def Leading : ContractState → List Transition → ContractState → Prop
  | start, [], last => start = last
  | start, t :: transitions, last =>
    t.fromState = some start ∧ Leading t.toState transitions last

instance decidableLeading : ∀ start transitions last, Decidable (Leading start transitions last)
  | start, [], last => inferInstanceAs (Decidable (start = last))
  | _, t :: transitions, last =>
    have := decidableLeading t.toState transitions last
    inferInstanceAs (Decidable (_ ∧ Leading t.toState transitions last))

def Agreement.Historic (a : Agreement) : Prop := Leading .draft a.transitions a.currentState

instance (a : Agreement) : Decidable a.Historic := inferInstanceAs (Decidable (Leading _ _ _))

/-- The stored contract, whether the goroutine for the end date still runs, and whether the
stored contract has been over at any time. -/
structure Lifetime where
  stored : Agreement
  ticking : Bool
  ended : Bool
deriving DecidableEq, Repr

/-- One turn of the actor or of the goroutine. The store may fail to find the contract, as when a
request cannot be decoded, or to save it. -/
inductive LifeStep
  | message (m : HostMessage) (clock : GoTime) (found saves : Bool)
  | tick (now : GoTime) (found saves : Bool)
deriving DecidableEq, Repr

namespace Lifetime

def start (contractDID : GoString) (participants : ContractParticipants)
    (terminationOption : Option Bool) (endDate : GoTime) : Lifetime :=
  ⟨.new contractDID participants terminationOption endDate, true, false⟩

def save (s : Lifetime) (saves : Bool) (a : Agreement) : Lifetime :=
  if saves then { s with stored := a, ended := s.ended || a.currentState.isFinal } else s

def finish (s : Lifetime) (saves : Bool) : Handling → Lifetime
  | .store a => s.save saves a
  | .refuse _ | .reply | .panic => s

def step (s : Lifetime) : LifeStep → Lifetime
  | .message m clock found saves =>
    if found then s.finish saves (m.handle clock s.stored) else s
  | .tick now found saves =>
    if s.ticking ∧ found ∧ s.stored.endDate < now then
      { s.save saves s.stored.expire with ticking := false }
    else s

/-- The history is a path to the current state, and a contract that has been over is not
answered to be valid. -/
structure Sound (s : Lifetime) : Prop where
  historic : s.stored.Historic
  final : s.ended = true → s.stored.valid = false

instance (s : Lifetime) : Decidable s.Sound :=
  decidable_of_iff (s.stored.Historic ∧ (s.ended = true → s.stored.valid = false))
    ⟨fun h => ⟨h.1, h.2⟩, fun h => ⟨h.historic, h.final⟩⟩

/-- No second signature comes when the contract is over; it is terminated, completed or settled
after it has been accepted; and the end date is not reached before it is completed. -/
def Orderly (s : Lifetime) : LifeStep → Prop
  | .message (.sign sender _) _ found saves =>
    found → saves → sender ∉ s.stored.signers → s.stored.IsParty sender →
      s.stored.signatures.length = 1 → s.stored.currentState.isFinal = false
  | .message (.terminate _) _ found saves =>
    found → saves → s.stored.terminationOption = some true → s.stored.transitions ≠ []
  | .message (.complete _) _ found saves => found → saves → s.stored.transitions ≠ []
  | .message (.settle _) _ found saves => found → saves → s.stored.transitions ≠ []
  | .message _ _ _ _ => True
  | .tick now found saves =>
    s.ticking → found → saves → s.stored.endDate < now → s.stored.currentState = .completed

end Lifetime

variable {ts : List Transition}

theorem leading_append {start last t} (h : Leading start ts last) :
    Leading start (ts ++ [t]) t.toState ↔ t.fromState = some last := by
  induction ts generalizing start with
  | nil =>
    cases h
    show t.fromState = some last ∧ t.toState = t.toState ↔ _
    simp
  | cons u ts ih =>
    show u.fromState = some start ∧ Leading u.toState (ts ++ [t]) t.toState ↔ _
    rw [ih h.2]
    exact and_iff_right h.1

theorem leading_last {start last} (h : Leading start ts last) {t}
    (ht : ts.getLast? = some t) : t.toState = last := by
  induction ts generalizing start with
  | nil => cases ht
  | cons u ts ih =>
    cases ts with
    | nil =>
      cases ht
      exact h.2
    | cons v ts => exact ih h.2 (by simpa using ht)

theorem leading_unique {start last last'}
    (h : Leading start ts last) (h' : Leading start ts last') : last = last' := by
  induction ts generalizing start with
  | nil => exact h.symm.trans h'
  | cons t ts ih => exact ih h.2 h'.2

namespace Agreement

variable {a : Agreement}

theorem enter_historic_iff (h : a.Historic) (state : ContractState) (event : ContractEvent)
    (clock : GoTime) (snd : DID) :
    (a.enter state event clock snd).Historic ↔ a.transitions ≠ [] := by
  have happend := leading_append (t := ⟨⟨state, clock⟩, a.lastTransition, event, snd⟩) h
  refine happend.trans ?_
  unfold lastTransition
  cases hlast : a.transitions.getLast? with
  | none => simp [List.getLast?_eq_none_iff.mp hlast]
  | some t =>
    have hne : a.transitions ≠ [] := by
      intro hnil
      rw [hnil] at hlast
      cases hlast
    simp [leading_last h hlast, hne]

theorem expire_historic_iff (h : a.Historic) : a.expire.Historic ↔ a.currentState = .completed := by
  constructor
  · exact leading_unique h
  intro hstate
  show Leading .draft a.transitions .completed
  rw [← hstate]
  exact h

theorem accept_historic (clock : GoTime) (initiatedBy : DID) :
    (a.accept clock initiatedBy).Historic :=
  ⟨rfl, rfl⟩

end Agreement

namespace Lifetime

variable {s : Lifetime}

/-- What an orderly run keeps: besides the path, that a contract which has been over is over. -/
structure Kept (s : Lifetime) : Prop where
  historic : s.stored.Historic
  ended : s.ended = s.stored.currentState.isFinal

theorem Kept.sound (h : s.Kept) : s.Sound := by
  refine ⟨h.historic, ?_⟩
  intro hended
  rw [h.ended] at hended
  unfold valid
  cases hstate : s.stored.currentState <;> simp_all [ContractState.isFinal]

theorem save_kept {a : Agreement} (hhistoric : a.Historic)
    (hended : s.ended = true → a.currentState.isFinal = true) : (s.save true a).Kept := by
  refine ⟨hhistoric, ?_⟩
  show (s.ended || a.currentState.isFinal) = a.currentState.isFinal
  cases hs : s.ended with
  | false => rfl
  | true => simp [hended hs]

theorem save_accept_sound_iff (a : Agreement) (clock : GoTime) (initiatedBy : DID) :
    (s.save true (a.accept clock initiatedBy)).Sound ↔ s.ended = false := by
  constructor
  · intro h
    cases hended : s.ended with
    | false => rfl
    | true => cases h.final (by simp [save, hended])
  intro hended
  refine ⟨accept_historic _ _, ?_⟩
  intro hover
  simp [save, hended, accept, ContractState.isFinal] at hover

theorem save_final_sound_iff {a : Agreement} (hfinal : a.currentState.isFinal = true) :
    (s.save true a).Sound ↔ a.Historic := by
  constructor
  · intro h
    exact h.historic
  · intro hhistoric
    exact (save_kept hhistoric fun _ => hfinal).sound

theorem enter_step (h : s.Kept) {state : ContractState} (hstate : state.isFinal = true)
    (event : ContractEvent) (clock : GoTime) (snd : DID) :
    (s.stored.transitions ≠ [] ↔ (s.save true (s.stored.enter state event clock snd)).Sound) ∧
      (s.stored.transitions ≠ [] → (s.save true (s.stored.enter state event clock snd)).Kept) := by
  have hhistoric := enter_historic_iff h.historic state event clock snd
  constructor
  · rw [save_final_sound_iff hstate, hhistoric]
  · intro hne
    exact save_kept (hhistoric.mpr hne) fun _ => hstate

theorem sign_step (h : s.Kept) (clock : GoTime) (sig : Signature) :
    ((s.stored.signatures.length = 1 → s.stored.currentState.isFinal = false) ↔
        (s.save true (s.stored.addSignature clock sig)).Sound) ∧
      ((s.stored.signatures.length = 1 → s.stored.currentState.isFinal = false) →
        (s.save true (s.stored.addSignature clock sig)).Kept) := by
  by_cases hone : s.stored.signatures.length = 1
  · rw [addSignature_of_eq hone, save_accept_sound_iff, h.ended]
    refine ⟨by simp [hone], ?_⟩
    intro hguard
    refine save_kept (accept_historic _ _) ?_
    intro hended
    rw [h.ended, hguard hone] at hended
    cases hended
  -- The state and the history stay as they are.
  rw [addSignature_of_ne hone]
  have hkept : (s.save true { s.stored with
      signatures := s.stored.signatures ++ [sig] }).Kept :=
    save_kept h.historic fun hended => h.ended.symm.trans hended
  exact ⟨⟨fun _ => hkept.sound, fun _ hlen => absurd hlen hone⟩, fun _ => hkept⟩

theorem finish_false (s : Lifetime) (handling : Handling) : s.finish false handling = s := by
  cases handling <;> rfl

attribute [local simp] Orderly

theorem orderly_message (h : s.Kept) (m : HostMessage) (clock : GoTime) :
    (s.Orderly (.message m clock true true) ↔ (s.finish true (m.handle clock s.stored)).Sound) ∧
      (s.Orderly (.message m clock true true) →
        (s.finish true (m.handle clock s.stored)).Kept) := by
  cases m with
  | sign snd sig =>
    unfold handle handleContractSignByParticipants Orderly
    by_cases hsigned : snd ∈ s.stored.signers
    · simp [hsigned, finish, h, h.sound]
    by_cases hparty : s.stored.IsParty snd
    · simpa [hsigned, hparty, finish] using sign_step h clock ⟨snd, sig⟩
    · simp [hsigned, hparty, finish, h, h.sound]
  | terminate snd =>
    unfold handle handleContractTermination Orderly
    cases hoption : s.stored.terminationOption with
    | none => simp [finish, h, h.sound]
    | some allowed =>
      cases allowed with
      | false => simp [finish, h, h.sound]
      | true => simpa [finish] using enter_step h rfl .terminate clock snd
  | complete snd =>
    simpa [handle, handleCompleteContract, finish] using
      enter_step h rfl .complete clock snd
  | settle snd =>
    simpa [handle, handleSettleContract, finish] using
      enter_step h rfl .settle clock snd
  | validatePayment =>
    have hkept : (s.save true { s.stored with paid := true }).Kept :=
      save_kept h.historic fun hended => h.ended.symm.trans hended
    exact ⟨⟨fun _ => hkept.sound, fun _ => trivial⟩, fun _ => hkept⟩
  | status | validate => exact ⟨⟨fun _ => h.sound, fun _ => trivial⟩, fun _ => h⟩

/-! Neither property reads whether the goroutine for the end date goes on. -/

theorem sound_stop : { s with ticking := false }.Sound ↔ s.Sound :=
  ⟨fun h => ⟨h.historic, h.final⟩, fun h => ⟨h.historic, h.final⟩⟩

theorem kept_stop : { s with ticking := false }.Kept ↔ s.Kept :=
  ⟨fun h => ⟨h.historic, h.ended⟩, fun h => ⟨h.historic, h.ended⟩⟩

theorem orderly_tick (h : s.Kept) :
    (s.stored.currentState = .completed ↔ (s.save true s.stored.expire).Sound) ∧
      (s.stored.currentState = .completed → (s.save true s.stored.expire).Kept) := by
  have hhistoric := expire_historic_iff h.historic
  constructor
  · rw [save_final_sound_iff rfl, hhistoric]
  · intro hstate
    exact save_kept (hhistoric.mpr hstate) fun _ => rfl

theorem orderly_step (h : s.Kept) (turn : LifeStep) :
    (s.Orderly turn ↔ (s.step turn).Sound) ∧ (s.Orderly turn → (s.step turn).Kept) := by
  cases turn with
  | message m clock found saves =>
    cases found with
    | false => cases m <;> simp [step, h, h.sound]
    | true =>
      cases saves with
      | false => cases m <;> simp [step, finish_false, h, h.sound]
      | true => exact orderly_message h m clock
  | tick now found saves =>
    by_cases hreached : s.ticking ∧ found ∧ s.stored.endDate < now
    · rw [show s.step (.tick now found saves) =
        { s.save saves s.stored.expire with ticking := false } from if_pos hreached,
        sound_stop, kept_stop]
      cases saves with
      | false => simp [save, h, h.sound]
      | true => simpa [hreached] using orderly_tick h
    have hguard : s.Orderly (.tick now found saves) :=
      fun hticking hfound _ hend => absurd ⟨hticking, hfound, hend⟩ hreached
    rw [show s.step (.tick now found saves) = s from if_neg hreached]
    exact ⟨⟨fun _ => h.sound, fun _ => hguard⟩, fun _ => h⟩

theorem start_kept (did : GoString) (participants : ContractParticipants)
    (terminationOption : Option Bool) (endDate : GoTime) :
    (start did participants terminationOption endDate).Kept :=
  ⟨rfl, rfl⟩

/-- From a fresh contract, the history stays a path to the current state and a contract that
is over stays over exactly in the runs in which every step is orderly. -/
theorem sound_iff_orderly (contractDID : GoString) (participants : ContractParticipants)
    (terminationOption : Option Bool) (endDate : GoTime) (turns : List LifeStep) :
    (∀ past, past <+: turns →
        (past.foldl step (start contractDID participants terminationOption endDate)).Sound) ↔
      Reach.Passes Orderly step (start contractDID participants terminationOption endDate) turns :=
  have hstart := start_kept contractDID participants terminationOption endDate
  (Reach.passes_iff_forall Kept Sound turns hstart hstart.sound
    (fun _ turn h => (orderly_step h turn).1) fun _ turn h => (orderly_step h turn).2).symm

def sampleParties : ContractParticipants :=
  ⟨⟨ascii "did:key:provider"⟩, ⟨ascii "did:key:requestor"⟩⟩

def sampleLifetime : Lifetime :=
  start (ascii "did:key:contract") sampleParties (some true) (GoTime.unixTime 100 0)

/-- The provider signs and terminates the contract before the requestor signs. -/
def lateSignature : List LifeStep :=
  [.message (.sign sampleParties.provider (ascii "p")) (GoTime.unixTime 1 0) true true,
    .message (.terminate sampleParties.provider) (GoTime.unixTime 2 0) true true,
    .message (.sign sampleParties.requestor (ascii "r")) (GoTime.unixTime 3 0) true true]

/-- The terminated contract is accepted and answered to be valid, and its history no longer has
the termination; nor was it a path before. -/
theorem terminated_contract_accepted :
    ((lateSignature.take 2).foldl step sampleLifetime).stored.currentState = .terminated ∧
      ¬ ((lateSignature.take 2).foldl step sampleLifetime).stored.Historic ∧
      (lateSignature.foldl step sampleLifetime).stored.valid = true ∧
      ¬ (lateSignature.foldl step sampleLifetime).Sound := by
  decide

end Lifetime

end DMS.Tokenomics
