import DMS.Core.GoMap

/-! # Items and their owners

Two maps that say the same thing: every owner lists its items, and every item names its
owner. A loop that changes one of the maps has to change the other with it.
-/

namespace DMS

namespace Listing

variable {N K A B : Type} {itemsOf : A → List K} {ownerOf : B → N}
  {owners owners' : GoMap N A} {items items' : GoMap K B}

section Lists

variable [DecidableEq N]

def Lists (itemsOf : A → List K) (owners : GoMap N A) (n : N) (k : K) : Prop :=
  ∃ a, owners.lookup n = some a ∧ k ∈ itemsOf a

theorem lists_erase {n n' k} :
    Lists itemsOf (owners.erase n) n' k ↔ n' ≠ n ∧ Lists itemsOf owners n' k := by
  unfold Lists
  by_cases hn : n' = n
  · subst hn
    simp [AList.lookup_erase]
  · simp [hn]

theorem lists_insert {n n' a k} : Lists itemsOf (owners.insert n a) n' k ↔
      n' = n ∧ k ∈ itemsOf a ∨ n' ≠ n ∧ Lists itemsOf owners n' k := by
  unfold Lists
  by_cases hn : n' = n
  · subst hn
    simp [AList.lookup_insert]
  · simp [hn]

theorem lists_of_lookup {f : N → A → A} (hf : ∀ n a, itemsOf (f n a) = itemsOf a)
    (h : ∀ n, owners'.lookup n = (owners.lookup n).map (f n)) {n} {k : K} :
    Lists itemsOf owners' n k ↔ Lists itemsOf owners n k := by
  unfold Lists
  rw [h]
  cases owners.lookup n with
  | none => simp
  | some a => simp [hf]

end Lists

variable [DecidableEq K]

def owner (ownerOf : B → N) (items : GoMap K B) (k : K) : Option N := (items.lookup k).map ownerOf

theorem owner_eq_some {k n} :
    owner ownerOf items k = some n ↔ ∃ b, items.lookup k = some b ∧ ownerOf b = n :=
  Option.map_eq_some_iff

variable [DecidableEq N]

/-- An owner lists exactly the items that name it. -/
def Agree (itemsOf : A → List K) (ownerOf : B → N) (owners : GoMap N A) (items : GoMap K B) :
    Prop :=
  ∀ n k, Lists itemsOf owners n k ↔ owner ownerOf items k = some n

namespace Agree

theorem unique (h : Agree itemsOf ownerOf owners items) {k} (hk : k ∈ items) :
    ∃ n, Lists itemsOf owners n k ∧ ∀ n', Lists itemsOf owners n' k → n' = n := by
  obtain ⟨b, hb⟩ := GoMap.exists_lookup hk
  have howner : owner ownerOf items k = some (ownerOf b) := owner_eq_some.mpr ⟨b, hb, rfl⟩
  refine ⟨ownerOf b, (h _ _).mpr howner, fun n' hn' => ?_⟩
  have hn := (h n' k).mp hn'
  rw [howner] at hn
  exact (Option.some.inj hn).symm

theorem drop (h : Agree itemsOf ownerOf owners items) {n ks}
    (hlists : ∀ n' k, Lists itemsOf owners' n' k ↔ n' ≠ n ∧ Lists itemsOf owners n' k)
    (hall : ∀ k, Lists itemsOf owners n k → k ∈ ks)
    (honly : ∀ k ∈ ks, ∀ n', Lists itemsOf owners n' k → n' = n) :
    Agree itemsOf ownerOf owners' (GoMap.eraseAll ks items) := by
  intro n' k
  have howner : owner ownerOf (GoMap.eraseAll ks items) k =
      if k ∈ ks then none else owner ownerOf items k := by
    rw [owner, GoMap.lookup_eraseAll]
    split <;> rfl
  rw [hlists, howner]
  by_cases hk : k ∈ ks
  · rw [if_pos hk]
    constructor
    · rintro ⟨hne, hlisted⟩
      exact absurd (honly k hk n' hlisted) hne
    · rintro ⟨⟩
  rw [if_neg hk, ← h n' k]
  constructor
  · exact And.right
  intro hlisted
  refine ⟨?_, hlisted⟩
  rintro rfl
  exact hk (hall k hlisted)

theorem extend (h : Agree itemsOf ownerOf owners items) {New : N → K → Prop}
    (hlists : ∀ n k, Lists itemsOf owners' n k ↔ New n k ∨ Lists itemsOf owners n k)
    (hnew : ∀ n k, New n k → owner ownerOf items' k = some n)
    (hold : ∀ k, (∀ n, ¬ New n k) → owner ownerOf items' k = owner ownerOf items k)
    (hsame : ∀ n n' k, New n k → Lists itemsOf owners n' k → n' = n) :
    Agree itemsOf ownerOf owners' items' := by
  intro n k
  rw [hlists]
  by_cases hk : ∃ n', New n' k
  · obtain ⟨n', hn'⟩ := hk
    have howner := hnew n' k hn'
    constructor
    · rintro (hn | hn)
      · exact hnew n k hn
      · rw [hsame n' n k hn' hn]
        exact howner
    intro hn
    rw [howner] at hn
    exact .inl (Option.some.inj hn ▸ hn')
  have hnone : ∀ n, ¬ New n k := fun n hn => hk ⟨n, hn⟩
  rw [hold k hnone, ← h n k]
  exact or_iff_right (hnone n)

end Agree

end Listing

end DMS
