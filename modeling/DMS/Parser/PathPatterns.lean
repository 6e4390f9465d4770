import DMS.Parser.Tree

/-! # What a path pattern means

`matchParts` of `tree/path.go` compares part by part, and at a `**` it starts again on every rest
of the path. For a pattern with at most one `**` that amounts to a cut of the path into pieces,
one for each part of the pattern.
-/

namespace DMS.Parser

open Outcome List
open scoped Classical

variable {u : GoString → GoString → Bool} {pattern part : GoString}
  {ps path parts : List GoString}

/-- One part of a pattern covers a piece of a path. -/
def Covers (unicode : GoString → GoString → Bool) (pattern : GoString) (piece : List GoString) :
    Prop :=
  if pattern = ascii "**" then piece ≠ []
  else ∃ part, piece = [part] ∧
    if pattern = ascii "[]" then part.head? = some 91 ∧ part.getLast? = some 93
    else pattern = ascii "*" ∨ equalFold unicode pattern part = true

/-- The path can be cut so that each part of the pattern covers its piece. -/
def Cuts (unicode : GoString → GoString → Bool) (patterns path : List GoString) : Prop :=
  ∃ pieces, pieces.flatten = path ∧ Forall₂ (Covers unicode) patterns pieces

theorem cuts_cons : Cuts u (pattern :: ps) path ↔
    ∃ piece rest, piece ++ rest = path ∧ Covers u pattern piece ∧
      Cuts u ps rest := by
  constructor
  · rintro ⟨_, rfl, h⟩
    cases h with
    | cons hpiece hpieces => exact ⟨_, _, rfl, hpiece, _, rfl, hpieces⟩
  · rintro ⟨piece, _, rfl, hpiece, pieces, rfl, hpieces⟩
    exact ⟨piece :: pieces, rfl, .cons hpiece hpieces⟩

theorem Cuts.length (h : Cuts u ps path) : ps.length ≤ path.length ∧
    (ascii "**" ∉ ps → ps.length = path.length) := by
  induction ps generalizing path with
  | nil => obtain ⟨_, rfl, ⟨⟩⟩ := h; simp
  | cons pattern ps ih =>
    obtain ⟨piece, rest, rfl, hpiece, hrest⟩ := cuts_cons.mp h
    obtain ⟨hle, heq⟩ := ih hrest
    unfold Covers at hpiece
    split at hpiece
    · have := length_pos_of_ne_nil hpiece
      exact ⟨by simp; omega, by simp_all⟩
    · obtain ⟨part, rfl, -⟩ := hpiece
      exact ⟨by simpa using hle, fun hnone => by simpa using heq (not_mem_of_not_mem_cons hnone)⟩

theorem not_cuts_of_lt (h : path.length < ps.length) : ¬ Cuts u ps path :=
  fun hcut => absurd hcut.length.1 (Nat.not_le.mpr h)

theorem cuts_cons_one (hone : pattern ≠ ascii "**") : Cuts u (pattern :: ps) (part :: parts) ↔
      Covers u pattern [part] ∧ Cuts u ps parts := by
  rw [cuts_cons]
  constructor
  · rintro ⟨piece, rest, heq, hpiece, hrest⟩
    obtain ⟨part', rfl, -⟩ := (if_neg hone).mp hpiece
    obtain ⟨rfl, rfl⟩ := cons_eq_cons.mp heq
    exact ⟨hpiece, hrest⟩
  · rintro ⟨hpiece, hrest⟩
    exact ⟨_, _, rfl, hpiece, hrest⟩

theorem cuts_cons_many (hnone : ascii "**" ∉ ps) (hshort : ps.length ≤ parts.length) :
    Cuts u (ascii "**" :: ps) (part :: parts) ↔ ∃ rest ∈ (part :: parts).tails, Cuts u ps rest := by
  simp only [cuts_cons, Covers, if_pos, mem_tails]
  constructor
  · rintro ⟨piece, rest, heq, -, hcut⟩
    exact ⟨rest, ⟨piece, heq⟩, hcut⟩
  · rintro ⟨rest, ⟨piece, heq⟩, hcut⟩
    refine ⟨piece, rest, heq, ?_, hcut⟩
    rintro rfl
    have := hcut.length.2 hnone
    rw [show rest = part :: parts from heq, length_cons] at this
    omega

theorem anyMatch_eq {A : Type} {f : A → Except String Bool} {P : A → Prop} {as : List A}
    (h : ∀ a ∈ as, f a = .ok (decide (P a))) : anyMatch f as = .ok (decide (∃ a ∈ as, P a)) := by
  induction as with
  | nil => simp [anyMatch]
  | cons a as ih =>
    rw [anyMatch, h a mem_cons_self, ih fun a ha => h a (mem_cons_of_mem _ ha)]
    by_cases ha : P a <;> simp [Except.bind, ha]

theorem matchFrom_eq (hone : ps.count (ascii "**") ≤ 1) (hpath : [] ∉ path)
    (hlength : ascii "**" ∈ ps → ps.length ≤ path.length) :
    matchFrom u ps path = .ok (decide (Cuts u ps path)) := by
  induction ps generalizing path with
  | nil => cases path <;> simp [matchFrom, Cuts]
  | cons pattern ps ih =>
    rcases path with - | ⟨part, parts⟩
    · simp [matchFrom, not_cuts_of_lt]
    have hnext := ih ((count_le_count_cons ..).trans hone) (not_mem_of_not_mem_cons hpath)
    by_cases hmany : pattern = ascii "**"
    · subst hmany
      have hnone : ascii "**" ∉ ps := by simpa [count_eq_zero] using hone
      have hsearch : anyMatch (fun rest => if rest.length < ps.length then .ok false
          else matchFrom u ps rest) (part :: parts).tails =
            .ok (decide (∃ rest ∈ (part :: parts).tails, Cuts u ps rest)) := by
        refine anyMatch_eq fun rest hmem => ?_
        split
        · next hlt => simp [not_cuts_of_lt hlt]
        · exact ih ((count_le_count_cons ..).trans hone)
            (fun h => hpath (((mem_tails _ _).mp hmem).subset h)) fun h => absurd h hnone
      rw [cuts_cons_many hnone (by simpa using hlength mem_cons_self), matchFrom, if_pos rfl,
        hsearch, hnext fun h => absurd h hnone]
      split
      · subst ps
        simp [Cuts]
      · by_cases hfound : ∃ rest ∈ (part :: parts).tails, Cuts u ps rest
        · simp only [hfound]; rfl
        · have : ¬ Cuts u ps parts := fun h => hfound ⟨parts, by simp, h⟩
          simp only [hfound, this]
          rfl
    · rw [cuts_cons_one hmany, matchFrom, if_neg hmany,
        if_neg (ne_of_mem_of_not_mem mem_cons_self hpath),
        hnext fun h => Nat.le_of_succ_le_succ (hlength (mem_cons_of_mem _ h))]
      simp only [Covers, if_neg hmany, cons.injEq, and_true, exists_eq_left']
      split <;> split <;> simp [*]

/-- `Path.Matches` returns whether the path can be cut as the pattern says. -/
theorem matches_iff_cuts (u : GoString → GoString → Bool) (path pattern : Path)
    (hpath : [] ∉ path.parts) (hone : pattern.parts.count (ascii "**") ≤ 1) :
    matchParts u path.parts pattern.parts = .ok (decide (Cuts u pattern.parts path.parts)) := by
  unfold matchParts
  split
  · next hlt => simp [not_cuts_of_lt hlt]
  · next hle =>
    rw [if_neg (Path.parts_ne_nil pattern)]
    exact matchFrom_eq hone hpath fun _ => by omega

theorem matches_iff_cuts_shared :
    Cuts (fun _ _ => false) (Path.parts (ascii "V1.**.[]")) (Path.parts (ascii "v1.a.b.[0]")) :=
  of_decide_eq_true (Except.ok.inj ((matches_iff_cuts _ _ _ (by decide) (by decide)).symm.trans
    (by decide)))

end DMS.Parser
