import DMS.Core.GoText
import Mathlib.Algebra.Order.Field.Power
import Mathlib.Algebra.Order.Field.Rat
import Mathlib.Data.Nat.Cast.Order.Field
import Mathlib.Tactic.FieldSimp
import Mathlib.Tactic.GCongr
import Mathlib.Tactic.Linarith
import Mathlib.Tactic.Positivity
import Mathlib.Tactic.Ring

/-! # Decimal texts and binary floating point

`big.ParseFloat` in base 10 and to nearest even. Every rounding is made where the library makes
it: the power of five that a decimal exponent asks for is computed with more bits, and the product
or quotient with it is rounded once more. Decimals with few digits compare as their floats do.
-/

namespace DMS

/-- `± mant * 2 ^ exp2 * 5 ^ exp5` -/
structure Decimal where
  neg : Bool
  mant : Nat
  exp2 : Int
  exp5 : Int
deriving DecidableEq, Repr

inductive Number
  | inf (neg : Bool)
  | finite (d : Decimal)
deriving DecidableEq, Repr

/-- The digits of a mantissa, with at most one point among them: their value, how many
there are, and how many stand behind the point. -/
structure Mantissa where
  value : Nat
  count : Nat
  fraction : Option Nat

/-- The loop of `nat.scan`; it stops in front of the first byte that is not its own. -/
def scanMantissa (m : Mantissa) : GoString → Mantissa × GoString
  | [] => (m, [])
  | c :: rest =>
    if c = dot ∧ m.fraction = none then scanMantissa { m with fraction := some 0 } rest
    else if 48 ≤ c ∧ c ≤ 57 then
      scanMantissa
        { value := 10 * m.value + (c.toNat - 48)
          count := m.count + 1
          fraction := m.fraction.map (· + 1) } rest
    else (m, c :: rest)

/-- `scanExponent`: the base of the exponent and its value, and what is left of the text. -/
def scanExponent (text : GoString) : Option (Nat × Int × GoString) :=
  match text with
  | [] => some (10, 0, [])
  | c :: rest =>
    if c ≠ 101 ∧ c ≠ 69 ∧ c ≠ 112 ∧ c ≠ 80 then some (10, 0, c :: rest)
    else
      let base := if c = 101 ∨ c = 69 then 10 else 2
      let (neg, rest) : Bool × GoString :=
        match rest with
        | 45 :: rest => (true, rest)
        | 43 :: rest => (false, rest)
        | rest => (false, rest)
      let digits := rest.takeWhile fun c => 48 ≤ c ∧ c ≤ 57
      if digits = [] then none
      else (digitsValue digits).bind fun n =>
        let value : Int := if neg then -(n : Int) else n
        if -2 ^ 63 ≤ value ∧ value < 2 ^ 63 then
          some (base, value, rest.drop digits.length)
        else none

/-- The number that `Float.Parse` reads, before anything is rounded. -/
def scanNumber (text : GoString) : Option Number :=
  if text = ascii "Inf" ∨ text = ascii "inf" ∨ text = ascii "+Inf" ∨ text = ascii "+inf" then
    some (.inf false)
  else if text = ascii "-Inf" ∨ text = ascii "-inf" then some (.inf true)
  else
    let (neg, rest) : Bool × GoString :=
      match text with
      | 45 :: rest => (true, rest)
      | 43 :: rest => (false, rest)
      | rest => (false, rest)
    let (m, rest) := scanMantissa ⟨0, 0, none⟩ rest
    if m.count = 0 then none
    else (scanExponent rest).bind fun (base, exp, rest) =>
      if rest ≠ [] then none
      else
        let fraction : Int := m.fraction.getD 0
        some (.finite
          { neg
            mant := m.value
            exp2 := exp - fraction
            exp5 := (if base = 10 then exp else 0) - fraction })

def Decimal.magnitude (d : Decimal) : ℚ := d.mant * 2 ^ d.exp2 * 5 ^ d.exp5

def signed (neg : Bool) (magnitude : ℚ) : ℚ := if neg then -magnitude else magnitude

def Decimal.value (d : Decimal) : ℚ := signed d.neg d.magnitude

/-- The order of the numbers that texts denote. -/
def Number.atLeast : Number → Number → Prop
  | .inf false, _ => True
  | _, .inf true => True
  | .inf true, _ => False
  | _, .inf false => False
  | .finite x, .finite y => y.value ≤ x.value

/-- A magnitude `mant * 2 ^ exp`. -/
inductive Magnitude
  | inf
  | finite (mant : Nat) (exp : Int)
deriving DecidableEq, Repr

namespace Magnitude

/-- The quotient of two numbers with `shift` bits behind the point, cut off. -/
def cutAt (num den : Nat) (shift : Int) : Nat := num * 2 ^ shift.toNat / (den * 2 ^ (-shift).toNat)

def roundAt (num den : Nat) (shift : Int) : Nat :=
  let q := cutAt num den shift
  let r := num * 2 ^ shift.toNat % (den * 2 ^ (-shift).toNat)
  let den := den * 2 ^ (-shift).toNat
  if den < 2 * r ∨ (den = 2 * r ∧ q % 2 = 1) then q + 1 else q

/-- `num / den * 2 ^ exp` with a mantissa of `prec` bits; an exponent that is out of range
makes it infinite or zero. -/
def round (prec num den : Nat) (exp : Int) : Magnitude :=
  if num = 0 then .finite 0 0
  else
    let guess : Int := (prec : Int) - 1 - (Nat.log2 num - Nat.log2 den : Int)
    let shift := if cutAt num den guess < 2 ^ (prec - 1) then guess + 1 else guess
    let mant := roundAt num den shift
    let top := (Nat.log2 mant : Int) + 1 + exp - shift
    if 2 ^ 31 - 1 < top then .inf
    else if top < -2 ^ 31 then .finite 0 0
    else .finite mant (exp - shift)

def mul (prec : Nat) : Magnitude → Magnitude → Magnitude
  | .finite m e, .finite m' e' => round prec (m * m') 1 (e + e')
  | _, _ => .inf

/-- `Float.Quo` by something that is not zero. -/
def quo (prec : Nat) : Magnitude → Magnitude → Magnitude
  | .finite m e, .finite m' e' => round prec m m' (e - e')
  | .finite _ _, .inf => .finite 0 0
  | .inf, _ => .inf

/-- The loop of `Float.pow5`, for the bits of `n`. -/
def pow5Loop (prec : Nat) : Nat → Nat → Magnitude → Magnitude → Magnitude
  | 0, _, z, _ => z
  | fuel + 1, n, z, f =>
    if n = 0 then z
    else pow5Loop prec fuel (n / 2) (if n % 2 = 1 then z.mul prec f else z) (f.mul (prec + 64) f)

def pow5 (prec n : Nat) : Magnitude :=
  if n ≤ 27 then round prec (5 ^ n) 1 0
  else pow5Loop prec 64 (n - 27) (round prec (5 ^ 27) 1 0) (round (prec + 64) 5 1 0)

/-- `Float.Cmp` of two magnitudes. -/
def le : Magnitude → Magnitude → Bool
  | _, .inf => true
  | .inf, .finite _ _ => false
  | .finite m e, .finite m' e' =>
    m * 2 ^ (e - min e e').toNat ≤ m' * 2 ^ (e' - min e e').toNat

end Magnitude

/-- `big.Float` -/
structure BigFloat where
  neg : Bool
  mag : Magnitude
deriving DecidableEq, Repr

/-- The value of a decimal with a mantissa of `prec` bits. An exponent that does not fit
into 32 bits is an error. -/
def Decimal.toFloat (prec : Nat) (d : Decimal) : Option BigFloat :=
  if d.mant = 0 then some ⟨d.neg, .finite 0 0⟩
  else
    let top := (Nat.log2 d.mant : Int) + 1 + d.exp2
    if top < -2 ^ 31 ∨ 2 ^ 31 - 1 < top then none
    else
      let power := Magnitude.pow5 (prec + 64) d.exp5.natAbs
      let exact := Magnitude.finite d.mant d.exp2
      some ⟨d.neg, if d.exp5 = 0 then .round prec d.mant 1 d.exp2
        else if d.exp5 < 0 then exact.quo prec power
        else exact.mul prec power⟩

/-- `big.ParseFloat` in base 10 -/
def parseFloat (prec : Nat) (text : GoString) : Option BigFloat := (scanNumber text).bind fun
    | .inf neg => some ⟨neg, .inf⟩
    | .finite d => d.toFloat prec

def Magnitude.positive : Magnitude → Bool
  | .inf => true
  | .finite m _ => 0 < m

/-- `x.Cmp(y) >= 0` -/
def BigFloat.ge (x y : BigFloat) : Bool :=
  match x.neg && x.mag.positive, y.neg && y.mag.positive with
  | false, true => true
  | true, false => false
  | false, false => y.mag.le x.mag
  | true, true => x.mag.le y.mag

theorem pow_toNat_sub {b : ℚ} (hb : b ≠ 0) {e k : Int} (h : k ≤ e) :
    b ^ (e - k).toNat = b ^ e / b ^ k := by
  rw [← zpow_natCast, Int.toNat_of_nonneg (by omega), zpow_sub₀ hb]

theorem Magnitude.le_finite_iff {m m' : Nat} {e e' : Int} :
    (finite m e).le (finite m' e') = true ↔ (m : ℚ) * 2 ^ e ≤ m' * 2 ^ e' := by
  have hunit : (0 : ℚ) < 2 ^ min e e' := by positivity
  rw [le, decide_eq_true_eq, ← Nat.cast_le (α := ℚ)]
  push_cast
  rw [pow_toNat_sub two_ne_zero (min_le_left _ _), pow_toNat_sub two_ne_zero (min_le_right _ _),
    mul_div_assoc', mul_div_assoc', div_le_div_iff_of_pos_right hunit]

/-- A zero has no sign that counts. -/
theorem signed_finite (neg : Bool) (m : Nat) (e : Int) : signed neg (m * 2 ^ e) =
      if neg && (Magnitude.finite m e).positive then -((m : ℚ) * 2 ^ e) else m * 2 ^ e := by
  cases neg with
  | false => rfl
  | true =>
    rcases Nat.eq_zero_or_pos m with rfl | hm
    · simp [signed, Magnitude.positive]
    · simp [signed, Magnitude.positive, hm]

theorem abs_signed_sub (neg : Bool) (a b : ℚ) : |signed neg a - signed neg b| = |a - b| := by
  cases neg with
  | false => rfl
  | true => rw [signed, if_pos rfl, signed, if_pos rfl, neg_sub_neg, abs_sub_comm]

theorem BigFloat.le_of_ge {neg neg' : Bool} {m m' : Nat} {e e' : Int}
    (h : ge ⟨neg, .finite m e⟩ ⟨neg', .finite m' e'⟩ = true) :
    signed neg' (m' * 2 ^ e') ≤ signed neg (m * 2 ^ e) := by
  have hm : (0 : ℚ) ≤ m * 2 ^ e := by positivity
  have hm' : (0 : ℚ) ≤ m' * 2 ^ e' := by positivity
  rw [signed_finite, signed_finite]
  unfold ge at h
  split at h
  · next hx hy =>
    rw [hx, hy]
    exact (neg_nonpos.mpr hm').trans hm
  · cases h
  · next hx hy =>
    rw [hx, hy]
    exact Magnitude.le_finite_iff.mp h
  · next hx hy =>
    rw [hx, hy]
    exact neg_le_neg (Magnitude.le_finite_iff.mp h)

/-! ## The error of a rounding -/

namespace Magnitude

section Round

variable {num den : Nat}

theorem shifted_eq (num den : Nat) (shift : Int) :
    ((num * 2 ^ shift.toNat : Nat) : ℚ) / (den * 2 ^ (-shift).toNat : Nat) =
      num / den * 2 ^ shift := by
  have hpow : (2 : ℚ) ^ shift = 2 ^ shift.toNat / 2 ^ (-shift).toNat := by
    rw [← zpow_natCast, ← zpow_natCast, ← zpow_sub₀ two_ne_zero, Int.toNat_sub_toNat_neg]
  push_cast
  rw [hpow, mul_div_mul_comm]

/-- To nearest: within half a unit of the last place. -/
theorem roundAt_near (num : Nat) (hden : 0 < den) (shift : Int) :
    |(roundAt num den shift : ℚ) - num / den * 2 ^ shift| ≤ 1 / 2 := by
  rw [← shifted_eq]
  have hpos : 0 < den * 2 ^ (-shift).toNat := Nat.mul_pos hden (Nat.two_pow_pos _)
  unfold roundAt cutAt
  dsimp only
  generalize num * 2 ^ shift.toNat = n at *
  generalize den * 2 ^ (-shift).toNat = d at *
  have hd : (0 : ℚ) < d := Nat.cast_pos.mpr hpos
  have hn : (n : ℚ) / d = (n / d : Nat) + (n % d : Nat) / d := by
    rw [div_eq_iff hd.ne', add_mul, div_mul_cancel₀ _ hd.ne', mul_comm]
    exact_mod_cast (Nat.div_add_mod n d).symm
  rw [hn, abs_le]
  split
  · next hup =>
    have hle : (d : ℚ) ≤ 2 * (n % d : Nat) := by exact_mod_cast (by omega : d ≤ 2 * (n % d))
    have hlt : ((n % d : Nat) : ℚ) < d := by exact_mod_cast Nat.mod_lt n hpos
    have hhalf : 1 / 2 ≤ ((n % d : Nat) : ℚ) / d := (le_div_iff₀ hd).mpr (by linarith)
    have hone : ((n % d : Nat) : ℚ) / d < 1 := (div_lt_one hd).mpr hlt
    push_cast
    constructor <;> linarith
  · next hdown =>
    have hle : 2 * ((n % d : Nat) : ℚ) ≤ d := by exact_mod_cast (by omega : 2 * (n % d) ≤ d)
    have hhalf : ((n % d : Nat) : ℚ) / d ≤ 1 / 2 := (div_le_iff₀ hd).mpr (by linarith)
    have hzero : 0 ≤ ((n % d : Nat) : ℚ) / d := by positivity
    constructor <;> linarith

/-- The quotient lies between the powers of two that the two logarithms give. -/
theorem quotient_bounds (hnum : num ≠ 0) (hden : den ≠ 0) (k : Int) :
    (2 : ℚ) ^ ((num.log2 : Int) - (den.log2 + 1 : Nat) + k) ≤ num / den * 2 ^ k ∧
      (num : ℚ) / den * 2 ^ k ≤ 2 ^ (((num.log2 + 1 : Nat) : Int) - den.log2 + k) := by
  have hpow (a b : Nat) : (2 : ℚ) ^ ((a : Int) - b + k) = 2 ^ a / 2 ^ b * 2 ^ k := by
    rw [zpow_add₀ two_ne_zero, zpow_sub₀ two_ne_zero, zpow_natCast, zpow_natCast]
  have hlow : (2 : ℚ) ^ num.log2 ≤ num := by exact_mod_cast Nat.log2_self_le hnum
  have hhigh : (num : ℚ) ≤ 2 ^ (num.log2 + 1) := by exact_mod_cast Nat.lt_log2_self.le
  have hlow' : (2 : ℚ) ^ den.log2 ≤ den := by exact_mod_cast Nat.log2_self_le hden
  have hhigh' : (den : ℚ) ≤ 2 ^ (den.log2 + 1) := by exact_mod_cast Nat.lt_log2_self.le
  rw [hpow, hpow]
  constructor <;> gcongr

/-- One rounding, as long as the exponent stays in range. -/
theorem round_near (prec : Nat) (exp : Int) (hnum : num ≠ 0) (hden : den ≠ 0)
    (hlow : -2 ^ 31 ≤ (num.log2 : Int) - den.log2 + exp - prec)
    (hhigh : (num.log2 : Int) - den.log2 + exp + 3 ≤ 2 ^ 31 - 1) :
    ∃ m e, round prec num den exp = .finite m e ∧
      |(m : ℚ) * 2 ^ e - num / den * 2 ^ exp| ≤ num / den * 2 ^ exp / 2 ^ prec := by
  unfold round
  rw [if_neg hnum]
  dsimp only
  generalize hguess : (prec : Int) - 1 - (num.log2 - den.log2) = guess
  generalize hshift : (if cutAt num den guess < 2 ^ (prec - 1) then guess + 1 else guess) = shift
  have hnormal : (2 : ℚ) ^ ((prec : Int) - 1) ≤ num / den * 2 ^ shift := by
    split at hshift
    · refine le_trans ?_ (quotient_bounds hnum hden shift).1
      exact zpow_le_zpow_right₀ one_le_two (by omega)
    · next hcut =>
      rw [hshift] at hcut
      refine le_trans ?_ (shifted_eq num den shift ▸ Nat.cast_div_le)
      refine le_trans ?_ (Nat.cast_le.mpr (not_lt.mp hcut))
      push_cast
      rw [← zpow_natCast]
      exact zpow_le_zpow_right₀ one_le_two (by omega)
  have hnear := roundAt_near num (Nat.pos_of_ne_zero hden) shift
  generalize roundAt num den shift = mant at *
  have hbits : mant.log2 ≤ prec + 1 := by
    have hle : (num : ℚ) / den * 2 ^ shift ≤ 2 ^ (prec + 1) := by
      refine (quotient_bounds hnum hden shift).2.trans ?_
      rw [← zpow_natCast]
      exact zpow_le_zpow_right₀ one_le_two (by push_cast; omega)
    have hone : (1 : ℚ) ≤ 2 ^ (prec + 1) := one_le_pow₀ one_le_two
    have hlt : (mant : ℚ) < 2 ^ (prec + 2) := by
      rw [pow_succ 2 (prec + 1)]
      linarith [(abs_le.mp hnear).2]
    rcases eq_or_ne mant 0 with rfl | hmant
    · exact Nat.zero_le _
    · exact Nat.le_of_lt_succ ((Nat.log2_lt hmant).mpr (by exact_mod_cast hlt))
  rw [if_neg (by omega), if_neg (by omega)]
  refine ⟨_, _, rfl, ?_⟩
  have hunit : (0 : ℚ) < 2 ^ (exp - shift) := by positivity
  have hexp : (2 : ℚ) ^ exp = 2 ^ shift * 2 ^ (exp - shift) := by
    rw [← zpow_add₀ two_ne_zero, add_sub_cancel]
  calc |(mant : ℚ) * 2 ^ (exp - shift) - num / den * 2 ^ exp|
      = |(mant : ℚ) - num / den * 2 ^ shift| * 2 ^ (exp - shift) := by
        rw [hexp, ← mul_assoc, ← sub_mul, abs_mul, abs_of_pos hunit]
    _ ≤ 2 ^ ((prec : Int) - 1) / 2 ^ prec * 2 ^ (exp - shift) := by
        rw [zpow_sub_one₀ two_ne_zero, zpow_natCast, mul_div_cancel_left₀ _ (by positivity)]
        gcongr
        linarith
    _ ≤ num / den * 2 ^ shift / 2 ^ prec * 2 ^ (exp - shift) := by gcongr
    _ = num / den * 2 ^ exp / 2 ^ prec := by
        rw [hexp]
        ring

end Round

/-- Five to the powers that `pow5` reads off its table. -/
theorem pow5_exact : ∀ n ≤ 27, pow5 320 n =
      .finite (5 ^ n * 2 ^ (319 - (5 ^ n).log2)) (-(319 - (5 ^ n).log2 : Nat)) ∧
    (5 ^ n * 2 ^ (319 - (5 ^ n).log2)).log2 = 319 := by
  decide +kernel

end Magnitude

/-- At most 27 digits behind the point, and fewer than `2 ^ 255` units of the 27th. -/
structure Decimal.Plain (d : Decimal) : Prop where
  decimal : d.exp2 = d.exp5
  fraction : -27 ≤ d.exp5 ∧ d.exp5 ≤ 0
  size : d.mant * 10 ^ (27 + d.exp5).toNat < 2 ^ 255

namespace Decimal.Plain

variable {d d' : Decimal}

theorem magnitude_eq (h : d.Plain) :
    d.magnitude * 10 ^ 27 = (d.mant * 10 ^ (27 + d.exp5).toNat : Nat) := by
  have hten : (10 : ℚ) ^ (27 + d.exp5).toNat = 10 ^ 27 * (2 ^ d.exp5 * 5 ^ d.exp5) := by
    rw [← zpow_natCast, Int.toNat_of_nonneg (by linarith [h.fraction.1]),
      zpow_add₀ (by norm_num), ← mul_zpow]
    norm_num
  rw [magnitude, h.decimal, Nat.cast_mul, Nat.cast_pow, Nat.cast_ofNat, hten]
  ring

theorem units (h : d.Plain) : ∃ k : Int, d.value * 10 ^ 27 = k := by
  unfold value signed
  split
  · exact ⟨-(d.mant * 10 ^ (27 + d.exp5).toNat : Nat), by
      rw [neg_mul, h.magnitude_eq, Int.cast_neg, Int.cast_natCast]⟩
  · exact ⟨_, h.magnitude_eq⟩

theorem log2_mant (h : d.Plain) (hmant : d.mant ≠ 0) : d.mant.log2 < 255 := by
  refine (Nat.log2_lt hmant).mpr (lt_of_le_of_lt ?_ h.size)
  exact Nat.le_mul_of_pos_right _ (Nat.pow_pos (by decide))

/-- The power of five is exact, so what is rounded is the number. -/
theorem toFloat_eq (h : d.Plain) (hmant : d.mant ≠ 0) : ∃ den exp,
    d.toFloat 256 = some ⟨d.neg, .round 256 d.mant den exp⟩ ∧ den ≠ 0 ∧ den.log2 ≤ 319 ∧
      -27 ≤ exp ∧ exp ≤ 319 ∧ d.mant / den * 2 ^ exp = d.magnitude := by
  have hdecimal := h.decimal
  have hfraction := h.fraction
  have hbits := h.log2_mant hmant
  unfold toFloat magnitude
  rw [if_neg hmant]
  dsimp only
  rw [if_neg (by omega)]
  split
  · next hzero =>
    refine ⟨1, d.exp2, rfl, one_ne_zero, by decide, by omega, by omega, ?_⟩
    rw [hzero, Nat.cast_one, div_one, zpow_zero, mul_one]
  rw [if_pos (by omega)]
  obtain ⟨hpow, hlog⟩ := Magnitude.pow5_exact d.exp5.natAbs (by omega)
  rw [hpow]
  refine ⟨_, _, rfl, by positivity, hlog.le, by omega, by omega, ?_⟩
  have hfive : (5 : ℚ) ^ d.exp5.natAbs = (5 ^ d.exp5)⁻¹ := by
    rw [← zpow_natCast, ← zpow_neg]
    congr 1
    omega
  push_cast
  rw [hfive, sub_neg_eq_add, zpow_add₀ two_ne_zero, zpow_natCast]
  field_simp

/-- The float is nearer than half a unit of the 27th digit. -/
theorem toFloat_near (h : d.Plain) : ∃ m e, d.toFloat 256 = some ⟨d.neg, .finite m e⟩ ∧
    |signed d.neg (m * 2 ^ e) - d.value| < 1 / (2 * 10 ^ 27) := by
  by_cases hmant : d.mant = 0
  · exact ⟨0, 0, if_pos hmant, by simp [value, magnitude, hmant]⟩
  have hbits := h.log2_mant hmant
  obtain ⟨den, exp, hfloat, hden, hlog, hlow, hhigh, hvalue⟩ := h.toFloat_eq hmant
  obtain ⟨m, e, hround, herror⟩ :=
    Magnitude.round_near 256 exp hmant hden (by omega) (by omega)
  have hsize : d.magnitude * 10 ^ 27 < 2 ^ 255 := by
    rw [h.magnitude_eq]
    exact_mod_cast h.size
  rw [hround] at hfloat
  rw [hvalue] at herror
  refine ⟨m, e, hfloat, ?_⟩
  rw [value, abs_signed_sub]
  linarith

/-- Different numbers are a unit apart, so their floats compare as they do. -/
theorem atLeast (h : d.Plain) (h' : d'.Plain) {x y} (hx : d.toFloat 256 = some x)
    (hy : d'.toFloat 256 = some y) (hge : x.ge y = true) : d'.value ≤ d.value := by
  obtain ⟨m, e, hfloat, hnear⟩ := h.toFloat_near
  obtain ⟨m', e', hfloat', hnear'⟩ := h'.toFloat_near
  obtain ⟨k, hk⟩ := h.units
  obtain ⟨k', hk'⟩ := h'.units
  cases hfloat.symm.trans hx
  cases hfloat'.symm.trans hy
  rw [abs_lt] at hnear hnear'
  have hle := BigFloat.le_of_ge hge
  by_contra hless
  have hunit : (k : ℚ) + 1 ≤ k' := by exact_mod_cast (by linarith : (k : ℚ) < k')
  linarith

end Decimal.Plain

/-- What the text spells, if it spells a number. -/
def Plain (text : GoString) : Prop :=
  ∀ x, scanNumber text = some x → ∃ d, x = .finite d ∧ d.Plain

theorem Plain.atLeast {a b x y} (ha : Plain a) (hb : Plain b) (hx : parseFloat 256 a = some x)
    (hy : parseFloat 256 b = some y) (h : x.ge y = true) :
    ∃ v w, scanNumber a = some v ∧ scanNumber b = some w ∧ v.atLeast w := by
  obtain ⟨v, hv, hx⟩ := Option.bind_eq_some_iff.mp hx
  obtain ⟨w, hw, hy⟩ := Option.bind_eq_some_iff.mp hy
  obtain ⟨d, rfl, hd⟩ := ha v hv
  obtain ⟨d', rfl, hd'⟩ := hb w hw
  exact ⟨_, _, hv, hw, hd.atLeast hd' hx hy h⟩

end DMS
