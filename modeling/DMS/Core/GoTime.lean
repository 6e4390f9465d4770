import DMS.Core.GoValue
import Mathlib.Algebra.Group.Int.Defs
import Mathlib.Algebra.Group.Nat.Defs

/-! # Instants and durations

`time.Time` without its location: nanoseconds since the zero time, the first of January
of the year 1. A `time.Duration` is a number of nanoseconds in 64 bits.
-/

namespace DMS

def int64 (n : Int) : Int := n.bmod (2 ^ 64)

/-- `time.Time` -/
abbrev GoTime := Int

namespace GoTime

def second : Int := 1000000000

/-- `time.Unix(0, 0)` -/
def unixEpoch : GoTime := 62135596800 * second

/-- `time.Unix` -/
def unixTime (sec nsec : Int) : GoTime := unixEpoch + sec * second + nsec

def unix (t : GoTime) : Int := (t - unixEpoch) / second

def unixNano (t : GoTime) : Int := int64 (t - unixEpoch)

def isZero (t : GoTime) : Bool := t = 0

/-- `Time.Sub`. A difference that is no `time.Duration` becomes the nearest one. -/
def sub (t u : GoTime) : Int := max (-2 ^ 63) (min (2 ^ 63 - 1) (t - u))

def truncate (t : GoTime) (d : Int) : GoTime := if d ≤ 0 then t else t - t % d

def wholeSeconds (t : Int) : Int := t - t % second

theorem unixTime_unix (t : Int) : unixTime (unix t) 0 = wholeSeconds t := by
  unfold unixTime unix wholeSeconds unixEpoch second GoTime
  omega

theorem wholeSeconds_le (t : Int) : wholeSeconds t ≤ t := by
  unfold wholeSeconds second
  omega

theorem lt_wholeSeconds_add (t : Int) : t < wholeSeconds t + second := by
  unfold wholeSeconds second
  omega

theorem le_of_le_sub {t u d : Int} (hd : 0 < d) (h : d ≤ sub t u) : d ≤ t - u := by
  unfold sub GoTime at h
  omega

/-- The instants for which the result of `UnixNano` is defined. -/
def HasUnixNano (t : Int) : Prop := -2 ^ 63 ≤ t - unixEpoch ∧ t - unixEpoch < 2 ^ 63

instance (t : Int) : Decidable (HasUnixNano t) :=
  inferInstanceAs (Decidable (_ ∧ _))

theorem HasUnixNano.unixNano_eq {t} (h : HasUnixNano t) : unixNano t = t - unixEpoch := by
  obtain ⟨hlow, hhigh⟩ := h
  exact Int.bmod_eq_of_le (by omega) (by omega)

theorem HasUnixNano.ne_zero {t} (h : HasUnixNano t) : t ≠ 0 := by
  unfold HasUnixNano unixEpoch second at h
  omega

theorem sub_pos_iff {t u : Int} : 0 < sub t u ↔ u < t := by
  unfold sub GoTime
  omega

end GoTime

end DMS
