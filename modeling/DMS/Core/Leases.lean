import DMS.Core.GoMap

/-! # Leases of addresses

Names hold addresses: no address has two holders, and none is reserved. An address book keeps the
same thing in three maps; `Shows` says that they agree with the leases, and each update of the maps
is matched with one change of the leases.
-/

namespace DMS

open AList

structure Leases (N A : Type) (reserved : A → Prop) where
  held : N → Option A
  unshared : ∀ {n n' : N} {a : A}, held n = some a → held n' = some a → n = n'
  unreserved : ∀ {n : N} {a : A}, held n = some a → ¬ reserved a

namespace Leases

variable {N A : Type} {reserved : A → Prop}

def Taken (b : Leases N A reserved) (a : A) : Prop := ∃ n, b.held n = some a

def vacant : Leases N A reserved where
  held _ := none
  unshared h := by simp at h
  unreserved h := by simp at h

theorem not_taken_vacant (a : A) : ¬ (vacant : Leases N A reserved).Taken a := by
  rintro ⟨n, hn⟩
  simp [vacant] at hn

variable [DecidableEq N]

def grant (b : Leases N A reserved) (n : N) (a : A) (hfree : ¬ b.Taken a) (hopen : ¬ reserved a) :
    Leases N A reserved where
  held n' := if n' = n then some a else b.held n'
  unshared := by
    intro n₁ n₂ a' h₁ h₂
    split at h₁ <;> split at h₂
    · next hn₁ hn₂ => rw [hn₁, hn₂]
    · exact absurd ⟨n₂, h₂⟩ (Option.some.inj h₁ ▸ hfree)
    · exact absurd ⟨n₁, h₁⟩ (Option.some.inj h₂ ▸ hfree)
    · exact b.unshared h₁ h₂
  unreserved := by
    intro n' a' h
    split at h
    · exact Option.some.inj h ▸ hopen
    · exact b.unreserved h

def release (b : Leases N A reserved) (n : N) : Leases N A reserved where
  held n' := if n' = n then none else b.held n'
  unshared := by
    intro n₁ n₂ a h₁ h₂
    split at h₁
    · simp at h₁
    split at h₂
    · simp at h₂
    · exact b.unshared h₁ h₂
  unreserved := by
    intro n' a h
    split at h
    · simp at h
    · exact b.unreserved h

variable {b : Leases N A reserved} {n : N} {a : A}

theorem taken_grant (hfree : ¬ b.Taken a) (hopen : ¬ reserved a) (hn : b.held n = none) {a'} :
    (b.grant n a hfree hopen).Taken a' ↔ a' = a ∨ b.Taken a' := by
  constructor
  · rintro ⟨n', h⟩
    dsimp only [grant] at h
    split at h
    · exact .inl (Option.some.inj h).symm
    · exact .inr ⟨n', h⟩
  rintro (rfl | ⟨n', h⟩)
  · exact ⟨n, if_pos rfl⟩
  have hne : n' ≠ n := by
    intro he
    rw [he, hn] at h
    simp at h
  exact ⟨n', (if_neg hne).trans h⟩

theorem taken_release (hn : b.held n = some a) {a'} :
    (b.release n).Taken a' ↔ a' ≠ a ∧ b.Taken a' := by
  constructor
  · rintro ⟨n', h⟩
    dsimp only [release] at h
    split at h
    · simp at h
    rename_i hne
    refine ⟨?_, n', h⟩
    rintro rfl
    exact hne (b.unshared h hn)
  rintro ⟨hne, n', h⟩
  have hnn : n' ≠ n := by
    intro he
    rw [he, hn] at h
    exact hne (Option.some.inj h).symm
  exact ⟨n', (if_neg hnn).trans h⟩

end Leases

/-- Three maps: the address of a name, what is behind an address, and which addresses
are not to be given out. -/
structure AddressBook (N A P : Type) where
  index : GoMap N A
  routes : GoMap A P
  used : GoMap A Bool

namespace AddressBook

variable {N A P : Type} [DecidableEq N] [DecidableEq A] {reserved : A → Prop}

def isUsed (m : AddressBook N A P) (a : A) : Bool := (m.used.lookup a).getD false

def assign (m : AddressBook N A P) (n : N) (a : A) (p : P) : AddressBook N A P where
  index := m.index.insert n a
  routes := m.routes.insert a p
  used := m.used.insert a true

def withdraw (m : AddressBook N A P) (n : N) (a : A) : AddressBook N A P where
  index := m.index.erase n
  routes := m.routes.erase a
  used := m.used.erase a

structure Shows (m : AddressBook N A P) (b : Leases N A reserved) : Prop where
  index : ∀ n, m.index.lookup n = b.held n
  routes : ∀ a, a ∈ m.routes ↔ b.Taken a
  used : ∀ a, m.isUsed a = true ↔ b.Taken a ∨ reserved a

namespace Shows

variable {m : AddressBook N A P} {b : Leases N A reserved} {n : N} {a : A}

theorem not_taken (h : m.Shows b) (hfree : m.isUsed a = false) : ¬ b.Taken a ∧ ¬ reserved a := by
  rw [← not_or, ← h.used, hfree]
  exact Bool.false_ne_true

attribute [local simp] isUsed AddressBook.withdraw

theorem assign (h : m.Shows b) (hn : m.index.lookup n = none) (hfree : m.isUsed a = false) (p : P) :
    (m.assign n a p).Shows (b.grant n a (h.not_taken hfree).1 (h.not_taken hfree).2) where
  index n' := by
    by_cases hnn : n' = n
    · subst hnn
      exact (lookup_insert m.index).trans (if_pos rfl).symm
    · exact ((lookup_insert_ne hnn).trans (h.index n')).trans (if_neg hnn).symm
  routes a' := by
    rw [Leases.taken_grant _ _ ((h.index n).symm.trans hn), ← h.routes]
    exact mem_insert _
  used a' := by
    rw [Leases.taken_grant _ _ ((h.index n).symm.trans hn)]
    by_cases haa : a' = a
    · subst haa
      simp [AddressBook.assign]
    have hused : (m.assign n a p).isUsed a' = m.isUsed a' := by
      simp [AddressBook.assign, lookup_insert_ne haa]
    rw [hused, h.used, or_iff_right haa]

theorem withdraw (h : m.Shows b) (hn : m.index.lookup n = some a) :
    (m.withdraw n a).Shows (b.release n) where
  index n' := by
    by_cases hnn : n' = n
    · subst hnn
      exact (lookup_erase _ _).trans (if_pos rfl).symm
    · exact ((lookup_erase_ne hnn).trans (h.index n')).trans (if_neg hnn).symm
  routes a' := by
    rw [Leases.taken_release ((h.index n).symm.trans hn), ← h.routes]
    exact mem_erase
  used a' := by
    have hheld : b.held n = some a := (h.index n).symm.trans hn
    rw [Leases.taken_release hheld]
    by_cases haa : a' = a
    · subst haa
      simp [b.unreserved hheld]
    have hused : (m.withdraw n a).isUsed a' = m.isUsed a' := by
      simp [lookup_erase_ne haa]
    rw [hused, h.used, and_iff_right haa]

theorem withdraw_absent (h : m.Shows b) (hn : m.index.lookup n = none)
    (ha : m.isUsed a = false) : (m.withdraw n a).Shows b where
  index n' := by
    by_cases hnn : n' = n
    · rw [hnn, ← h.index n, hn]
      exact lookup_erase n m.index
    · exact (lookup_erase_ne hnn).trans (h.index n')
  routes a' := by
    have hmem : a' ∈ (m.withdraw n a).routes ↔ a' ≠ a ∧ a' ∈ m.routes := mem_erase
    rw [hmem, h.routes, and_iff_right_iff_imp]
    rintro htaken rfl
    exact (h.not_taken ha).1 htaken
  used a' := by
    rw [← h.used]
    by_cases haa : a' = a
    · subst haa
      simp [show (m.used.lookup a').getD false = false from ha]
    · simp [lookup_erase_ne haa]

end Shows

end AddressBook

end DMS
