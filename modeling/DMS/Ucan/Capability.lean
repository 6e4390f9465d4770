import DMS.Core.GoText

/-! # Capability paths

`Implies` of `lib/ucan/cap.go`. A capability is a path; it implies itself and every path below it,
and the root path implies every capability. The order is transitive away from the empty path.
-/

namespace DMS.Ucan

open List

structure Capability where
  text : GoString
deriving DecidableEq, Repr

namespace Capability

/-- The `Root` constant. -/
def root : Capability := ⟨ascii "/"⟩

def implies (c other : Capability) : Bool :=
  if c = other ∨ c = root then true
  else (c.text ++ ascii "/").isPrefixOf other.text

variable {c : Capability} {granted outer inner : List Capability}

theorem implies_iff {other} :
    c.implies other = true ↔ c = other ∨ c = root ∨ (c.text ++ ascii "/") <+: other.text := by
  unfold implies
  split
  · next h => rcases h with h | h <;> simp [h]
  rename_i h
  obtain ⟨hne, hroot⟩ := not_or.mp h
  simp [hne, hroot]

theorem implies_refl (c : Capability) : c.implies c = true := implies_iff.mpr (.inl rfl)

theorem root_implies (c : Capability) : root.implies c = true := implies_iff.mpr (.inr (.inl rfl))

theorem eq_root_or_empty_of_implies_root (h : c.implies root = true) : c = root ∨ c.text = [] := by
  rcases implies_iff.mp h with h | h | h
  · exact .inl h
  · exact .inl h
  have hlen := h.length_le
  simp only [length_append, root] at hlen
  right
  exact eq_nil_of_length_eq_zero (by omega)

theorem implies_trans {a b : Capability} (hab : a.implies b = true) (hbc : b.implies c = true)
    (hroot : b = root → a ≠ root → a.text ≠ []) : a.implies c = true := by
  by_cases hb : b = root
  · subst hb
    by_cases ha : a = root
    · rw [ha]; exact root_implies c
    rcases eq_root_or_empty_of_implies_root hab with h | h
    · exact absurd h ha
    · exact absurd h (hroot rfl ha)
  rcases implies_iff.mp hab with h | h | hpre
  · rw [h]; exact hbc
  · rw [h]; exact root_implies c
  rcases implies_iff.mp hbc with h | h | hpre'
  · rw [← h]; exact hab
  · exact absurd h hb
  apply implies_iff.mpr
  right; right
  exact hpre.trans ((prefix_append b.text (ascii "/")).trans hpre')

/-- The parts between the separators. -/
def segments (c : Capability) : List GoString := c.text.splitOn 47

theorem implies_iff_segments {other} :
    c.implies other = true ↔ c = root ∨ c.segments <+: other.segments := by
  rw [implies_iff, or_left_comm]
  refine or_congr_right ⟨?_, ?_⟩
  · rintro (rfl | ⟨rest, hrest⟩)
    · exact prefix_refl _
    rw [append_assoc] at hrest
    rw [segments, segments, ← hrest]
    exact splitOn_append_cons_self (a := 47) c.text rest ▸ prefix_append _ _
  rintro ⟨rest, hrest⟩
  have htext : intercalate [47] other.segments = other.text := intercalate_splitOn 47
  rw [← hrest] at htext
  cases rest with
  | nil =>
    rw [append_nil, segments, intercalate_splitOn] at htext
    exact .inl (congrArg mk htext)
  | cons part rest =>
    rw [segments, intercalate_append (splitOn_ne_nil 47 _) (cons_ne_nil part rest),
      intercalate_splitOn] at htext
    exact .inr ⟨_, htext⟩

theorem eq_of_implies {other} (h : c.implies other = true) (h' : other.implies c = true) :
    c = other ∨ c = root ∧ other.text = [] ∨ other = root ∧ c.text = [] := by
  rcases implies_iff.mp h with heq | rfl | hpre
  · exact .inl heq
  · exact (eq_root_or_empty_of_implies_root h').imp Eq.symm fun hempty => .inl ⟨rfl, hempty⟩
  rcases implies_iff.mp h' with heq | rfl | hpre'
  · exact .inl heq.symm
  · exact (eq_root_or_empty_of_implies_root h).imp id fun hempty => .inr ⟨rfl, hempty⟩
  have hlen := hpre.length_le
  have hlen' := hpre'.length_le
  have hone : (ascii "/").length = 1 := rfl
  simp only [length_append] at hlen hlen'
  omega

/-- On some capabilities, implication is a partial order exactly when the empty path and the root
path are not both there. It is the order of the paths in any case. -/
theorem implies_partial_order_iff (P : Capability → Prop) :
    (((∀ a, P a → a.implies a = true) ∧ (∀ a b c, P a → P b → P c →
        a.implies b = true → b.implies c = true → a.implies c = true) ∧
      ∀ a b, P a → P b → a.implies b = true → b.implies a = true → a = b) ↔
        ¬ (P ⟨[]⟩ ∧ P root)) ∧
    ∀ a b : Capability, a.implies b = true ↔ a = root ∨ a.segments <+: b.segments := by
  refine ⟨⟨fun h hboth => ?_, fun hnot => ⟨fun a _ => implies_refl a, ?_, ?_⟩⟩, fun a b =>
    implies_iff_segments⟩
  · exact absurd (h.2.2 ⟨[]⟩ root hboth.1 hboth.2 (by decide) (by decide)) (by decide)
  · rintro a b c ha hb - hab hbc
    refine implies_trans hab hbc ?_
    rintro rfl - hempty
    exact hnot ⟨congrArg mk hempty ▸ ha, hb⟩
  · intro a b ha hb hab hba
    rcases eq_of_implies hab hba with heq | ⟨rfl, hempty⟩ | ⟨rfl, hempty⟩
    · exact heq
    · exact absurd ⟨congrArg mk hempty ▸ hb, ha⟩ hnot
    · exact absurd ⟨congrArg mk hempty ▸ ha, hb⟩ hnot

theorem empty_and_root_imply : let empty : Capability := ⟨[]⟩
    (empty.implies root = true ∧ root.implies empty = true ∧ empty ≠ root) ∧
      root.implies ⟨ascii "x"⟩ = true ∧ empty.implies ⟨ascii "x"⟩ = false := by
  decide

/-- The loop `for granted := range list { if granted.Implies(c) … }`. -/
def anyImplies (granted : List Capability) (c : Capability) : Bool :=
  granted.any fun g => g.implies c

def allImplied (granted wanted : List Capability) : Bool := wanted.all fun c => anyImplies granted c

theorem anyImplies_iff : anyImplies granted c = true ↔ ∃ g ∈ granted, g.implies c = true := by
  simp [anyImplies]

theorem allImplied_iff {wanted} :
    allImplied granted wanted = true ↔ ∀ c ∈ wanted, ∃ g ∈ granted, g.implies c = true := by
  simp [allImplied, anyImplies]

theorem anyImplies_of_mem (h : c ∈ granted) : anyImplies granted c = true :=
  anyImplies_iff.mpr ⟨c, h, implies_refl c⟩

theorem allImplied_refl (granted : List Capability) : allImplied granted granted = true :=
  allImplied_iff.mpr fun c hc => ⟨c, hc, implies_refl c⟩

theorem anyImplies_trans (hne : ∀ g ∈ outer, g.text ≠ []) (h : allImplied outer inner = true)
    (hc : anyImplies inner c = true) : anyImplies outer c = true := by
  obtain ⟨b, hb, hbc⟩ := anyImplies_iff.mp hc
  obtain ⟨a, ha, hab⟩ := allImplied_iff.mp h b hb
  exact anyImplies_iff.mpr ⟨a, ha, implies_trans hab hbc fun _ _ => hne a ha⟩

theorem allImplied_trans {middle}
    (hne : ∀ g ∈ outer, g.text ≠ []) (h : allImplied outer middle = true)
    (h' : allImplied middle inner = true) : allImplied outer inner = true := by
  apply allImplied_iff.mpr
  intro c hc
  exact anyImplies_iff.mp (anyImplies_trans hne h (anyImplies_iff.mpr (allImplied_iff.mp h' c hc)))

/-- Some capability is implied by none of a list without the root path: a path
without a separator that is longer than all of them. -/
theorem exists_not_anyImplies (h : root ∉ granted) : ∃ c, anyImplies granted c = false := by
  obtain ⟨n, hn⟩ : ∃ n, ∀ g ∈ granted, g.text.length < n := by
    clear h
    induction granted with
    | nil => exact ⟨0, by simp⟩
    | cons a granted ih =>
      obtain ⟨n, hn⟩ := ih
      refine ⟨max n (a.text.length + 1), ?_⟩
      intro g hg
      rcases mem_cons.mp hg with rfl | hg
      · omega
      · have := hn g hg
        omega
  refine ⟨⟨replicate n 97⟩, ?_⟩
  by_contra hany
  obtain ⟨g, hg, himplies⟩ := anyImplies_iff.mp (by simpa using hany)
  have hshort := hn g hg
  rcases implies_iff.mp himplies with heq | heq | hpre
  · rw [heq] at hshort
    simp at hshort
  · exact h (heq ▸ hg)
  have hsep : 47 ∈ replicate n (97 : UInt8) :=
    hpre.subset (mem_append_right _ (by decide))
  have heq := eq_of_mem_replicate hsep
  exact absurd heq (by decide)

def Covers (outer inner : List Capability) : Prop :=
  allImplied outer inner = true ∧ (root ∈ inner → root ∈ outer)

instance (outer inner : List Capability) : Decidable (Covers outer inner) :=
  inferInstanceAs (Decidable (_ ∧ _))

theorem covers_iff :
    Covers outer inner ↔ ∀ c, anyImplies inner c = true → anyImplies outer c = true := by
  constructor
  · rintro ⟨hall, hroot⟩ c hc
    obtain ⟨b, hb, hbc⟩ := anyImplies_iff.mp hc
    obtain ⟨a, ha, hab⟩ := allImplied_iff.mp hall b hb
    by_cases hbroot : b = root
    · exact anyImplies_iff.mpr ⟨root, hroot (hbroot ▸ hb), root_implies c⟩
    · exact anyImplies_iff.mpr ⟨a, ha, implies_trans hab hbc fun h => absurd h hbroot⟩
  intro h
  refine ⟨allImplied_iff.mpr fun c hc => anyImplies_iff.mp (h c (anyImplies_of_mem hc)), ?_⟩
  intro hinner
  by_contra houter
  obtain ⟨c, hc⟩ := exists_not_anyImplies houter
  rw [h c (anyImplies_iff.mpr ⟨root, hinner, root_implies c⟩)] at hc
  exact Bool.noConfusion hc

theorem Covers.allImplied {wanted} (h : Covers outer inner)
    (hwanted : Capability.allImplied inner wanted = true) :
    Capability.allImplied outer wanted = true := by
  apply allImplied_iff.mpr
  intro c hc
  exact anyImplies_iff.mp (covers_iff.mp h c (anyImplies_iff.mpr (allImplied_iff.mp hwanted c hc)))

end Capability

end DMS.Ucan
