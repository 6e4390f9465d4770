import Mathlib.Data.List.Count

/-! # Windows of a timeline

How many of a list of stamped items lie in a closed window, and how windows that meet at
an instant add up. Two closed windows that overlap count what lies in both of them twice.
Half-open windows tile a stretch of time when every instant of it is in exactly one.
-/

namespace DMS.Windows

variable {α : Type} (stamp : α → Int)

def countIn (l : List α) (lo hi : Int) : Nat := l.countP fun x => lo ≤ stamp x ∧ stamp x ≤ hi

def countUpTo (l : List α) (hi : Int) : Nat := l.countP fun x => stamp x ≤ hi

theorem countUpTo_add_countIn (l : List α) {lo mid hi} (hlo : lo ≤ mid) (hhi : mid ≤ hi) :
    countUpTo stamp l mid + countIn stamp l lo hi =
      countUpTo stamp l hi + countIn stamp l lo mid := by
  induction l with
  | nil => rfl
  | cons x l ih =>
    simp only [countUpTo, countIn, List.countP_cons, decide_eq_true_eq] at ih ⊢
    split_ifs <;> omega

def coverage (l : List (Int × Int)) (x : Int) : Nat := l.countP fun w => w.1 ≤ x ∧ x < w.2

/-- Every instant from `lo` up to `hi` is in one window and no other instant is in any. -/
def Tiles (l : List (Int × Int)) (lo hi : Int) : Prop :=
  ∀ x, coverage l x = if lo ≤ x ∧ x < hi then 1 else 0

theorem tiles_nil (lo : Int) : Tiles [] lo lo := by
  intro x
  rw [if_neg (by omega)]
  rfl

theorem coverage_concat (l : List (Int × Int)) (w : Int × Int) (x : Int) :
    coverage (l ++ [w]) x = coverage l x + if w.1 ≤ x ∧ x < w.2 then 1 else 0 := by
  simp [coverage, List.countP_append, List.countP_cons]

variable {l : List (Int × Int)} {lo mid hi : Int}

theorem tiles_concat_iff (h : Tiles l lo mid) (hlo : lo ≤ mid) (hhi : mid < hi) {w}
    (hw : w.1 < w.2) : Tiles (l ++ [w]) lo hi ↔ w = (mid, hi) := by
  constructor
  · intro htiles
    have hpoint : ∀ x, (if lo ≤ x ∧ x < mid then 1 else 0) +
        (if w.1 ≤ x ∧ x < w.2 then 1 else 0) = if lo ≤ x ∧ x < hi then 1 else 0 := by
      intro x
      rw [← h x, ← htiles x, coverage_concat]
    have hin : w.1 ≤ mid ∧ mid < w.2 := by
      have hmid := hpoint mid
      split_ifs at hmid <;> omega
    have hstart : mid ≤ w.1 := by
      have hbefore := hpoint (mid - 1)
      split_ifs at hbefore <;> omega
    have hle : hi ≤ w.2 := by
      have hend := hpoint w.2
      split_ifs at hend <;> omega
    have hge : w.2 ≤ hi := by
      have hlast := hpoint (w.2 - 1)
      split_ifs at hlast <;> omega
    exact Prod.ext (Int.le_antisymm hin.1 hstart) (Int.le_antisymm hge hle)
  rintro rfl x
  rw [coverage_concat, h x]
  split_ifs <;> omega

theorem not_tiles_longer (h : Tiles l lo mid) (hlo : lo ≤ mid) (hhi : mid < hi) :
    ¬ Tiles l lo hi := by
  intro hlonger
  have hmid := hlonger mid
  rw [h mid, if_neg (by omega), if_pos ⟨hlo, hhi⟩] at hmid
  cases hmid

end DMS.Windows
