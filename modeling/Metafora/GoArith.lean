import Mathlib.Data.Int.Log
import Mathlib.Data.Rat.Floor

/-! # Go's `int` and `float64` arithmetic, as `FairBalancer.desiredCount` uses it

`desiredCount` sums `int` counts, divides, converts the average to `float64`, multiplies it by
the `float64` threshold, takes `math.Ceil` and converts back to `int`.

* `goInt`: an `int` result on a 64-bit platform: the exact result modulo `2^64`, in
  `[-2^63, 2^63)`.
* `Float64`: a `float64` as its IEEE 754 bits (`math.Float64bits`); `Float64.val` is what the
  bits stand for (`FloatVal`): a rational, an infinity or NaN. The sign of a zero is dropped, as
  nothing below reads it.
* `roundFloat64`: the `float64` nearest an exact value, ties to even, and an infinity from `2^1024`
  on. It is the result of a `float64` product (`FloatVal.mul`) and of the conversion
  `float64(i)` of an `int`.
* `FloatVal.ceil` (`math.Ceil`) and `FloatVal.toGoInt` (`int(f)`): the integer part when it fits
  an `int`; the Go spec leaves the rest to the implementation, and on amd64 `CVTTSD2SQ` gives
  `-2^63`.
* `roundFloat64_of_binade`: within a binade `[2^e, 2^(e+1))` of the normal range the rounding is
  to the nearest multiple of `2^(e-52)`; `roundFloat64_intCast`: an `int` below `2^53` converts
  exactly.
-/

namespace Metafora
set_option autoImplicit false

/-! ## `int` -/

/-- An `int` result on a 64-bit platform: the exact result modulo `2^64`. -/
def goInt (x : Int) : Int := x.bmod (2 ^ 64)

example : goInt ((2 ^ 63 - 1) + 1) = -2 ^ 63 ∧ goInt (-2 ^ 63 - 1) = 2 ^ 63 - 1 := by decide

/-! ## `float64` -/

/-- What a `float64` stands for: a finite value, an infinity (`neg` for `-Inf`), or NaN. -/
inductive FloatVal
  | finite (q : ℚ)
  | inf (neg : Bool)
  | nan
  deriving DecidableEq

/-- A `float64`, as its IEEE 754 bits: the sign, 11 exponent bits and 52 fraction bits. -/
structure Float64 where
  bits : UInt64
  deriving DecidableEq

/-- The value of the bits: `±1.f * 2^(e-1023)`, `±0.f * 2^-1022` for `e = 0`, and an infinity
or NaN for `e = 2047`. -/
def Float64.val (x : Float64) : FloatVal :=
  let b : Nat := x.bits.toNat
  let e : Nat := b / 2 ^ 52 % 2 ^ 11
  let f : Nat := b % 2 ^ 52
  let neg := decide (2 ^ 63 ≤ b)
  if e = 2047 then if f = 0 then .inf neg else .nan
  else
    let m : ℚ :=
      if e = 0 then (f : ℚ) * 2 ^ (-1074 : ℤ) else (2 ^ 52 + (f : ℚ)) * 2 ^ ((e : ℤ) - 1075)
    .finite (if neg then -m else m)

/-- The integer nearest `x`, ties to the even one. -/
def roundHalfEven (x : ℚ) : ℤ :=
  if x - ⌊x⌋ < 1 / 2 then ⌊x⌋
  else if 1 / 2 < x - ⌊x⌋ then ⌊x⌋ + 1
  else if ⌊x⌋ % 2 = 0 then ⌊x⌋ else ⌊x⌋ + 1

/-- The exponent of the gap between the `float64`s around `q`: `e - 52` in the binade
`[2^e, 2^(e+1))`, and `-1074` below the normal range. -/
def ulpExponent (q : ℚ) : ℤ := max (Int.log 2 |q| - 52) (-1074)

/-- The `float64` nearest `q`, ties to even; an infinity when that is `2^1024` or more. -/
def roundFloat64 (q : ℚ) : FloatVal :=
  let r : ℚ := roundHalfEven (q / 2 ^ ulpExponent q) * 2 ^ ulpExponent q
  if 2 ^ 1024 ≤ |r| then .inf (decide (q < 0)) else .finite r

def FloatVal.mul : FloatVal → FloatVal → FloatVal
  | .nan, _ | _, .nan => .nan
  | .inf a, .inf b => .inf (a != b)
  | .inf a, .finite q | .finite q, .inf a => if q = 0 then .nan else .inf (a != decide (q < 0))
  | .finite p, .finite q => roundFloat64 (p * q)

/-- `math.Ceil(x)`: the least integer not below a finite `x`, which is a `float64` again. -/
def FloatVal.ceil : FloatVal → FloatVal
  | .finite q => .finite ⌈q⌉
  | x => x

/-- `int(f)` on amd64: `f` truncated toward zero when that fits an `int`, else `-2^63`. -/
def FloatVal.toGoInt : FloatVal → Int
  | .finite q =>
    let t := if 0 ≤ q then ⌊q⌋ else ⌈q⌉
    if -2 ^ 63 ≤ t ∧ t < 2 ^ 63 then t else -2 ^ 63
  | _ => -2 ^ 63

/-! ## Rounding -/

theorem log_two_eq {r : ℚ} {k : ℤ} (h₁ : 2 ^ k ≤ r) (h₂ : r < 2 ^ (k + 1)) : Int.log 2 r = k := by
  have hr : 0 < r := lt_of_lt_of_le (zpow_pos two_pos k) h₁
  have hb : 1 < 2 := Nat.one_lt_two
  refine le_antisymm ?_ ((Int.zpow_le_iff_le_log hb hr).mp (by exact_mod_cast h₁))
  exact Int.lt_add_one_iff.mp ((Int.lt_zpow_iff_log_lt hb hr).mp (by exact_mod_cast h₂))

theorem roundHalfEven_intCast (n : ℤ) : roundHalfEven n = n := by
  simp [roundHalfEven]

theorem roundHalfEven_of_lt {x : ℚ} {n : ℤ} (hn : ⌊x⌋ = n) (h : x - n < 1 / 2) :
    roundHalfEven x = n := by
  rw [roundHalfEven, hn, if_pos h]

theorem roundHalfEven_of_gt {x : ℚ} {n : ℤ} (hn : ⌊x⌋ = n) (h : 1 / 2 < x - n) :
    roundHalfEven x = n + 1 := by
  rw [roundHalfEven, hn, if_neg (not_lt.mpr h.le), if_pos h]

theorem roundHalfEven_of_tie {x : ℚ} {n : ℤ} (hn : ⌊x⌋ = n) (h : x - n = 1 / 2) (he : n % 2 = 0) :
    roundHalfEven x = n := by
  rw [roundHalfEven, hn, h, if_neg (lt_irrefl _), if_neg (lt_irrefl _), if_pos he]

theorem ulpExponent_of_binade {q : ℚ} {e : ℤ} (he : -1022 ≤ e) (h₁ : 2 ^ e ≤ |q|)
    (h₂ : |q| < 2 ^ (e + 1)) : ulpExponent q = e - 52 := by
  rw [ulpExponent, log_two_eq h₁ h₂]
  omega

/-- Rounding within a binade of the normal range: to the nearest multiple of `2^(e-52)`. -/
theorem roundFloat64_of_binade {q : ℚ} {e : ℤ} (he : -1022 ≤ e) (h₁ : 2 ^ e ≤ |q|)
    (h₂ : |q| < 2 ^ (e + 1))
    (hfin : |(roundHalfEven (q / 2 ^ (e - 52)) : ℚ) * 2 ^ (e - 52)| < 2 ^ 1024) :
    roundFloat64 q = .finite (roundHalfEven (q / 2 ^ (e - 52)) * 2 ^ (e - 52)) := by
  rw [roundFloat64, ulpExponent_of_binade he h₁ h₂, if_neg (not_le.mpr hfin)]

/-- `float64(i)` is exact for an `int` below `2^53` in absolute value. -/
theorem roundFloat64_intCast {n : ℤ} (h : |n| < 2 ^ 53) : roundFloat64 n = .finite n := by
  rcases eq_or_ne n 0 with rfl | hn
  · simp [roundFloat64, roundHalfEven]
  have hpos : (0 : ℚ) < |(n : ℚ)| := abs_pos.mpr (Int.cast_ne_zero.mpr hn)
  have hb : 1 < 2 := Nat.one_lt_two
  have h₁ : (2 : ℚ) ^ Int.log 2 |(n : ℚ)| ≤ |(n : ℚ)| := by
    exact_mod_cast Int.zpow_log_le_self hb hpos
  have h₂ : |(n : ℚ)| < 2 ^ (Int.log 2 |(n : ℚ)| + 1) := by
    exact_mod_cast Int.lt_zpow_succ_log_self hb |(n : ℚ)|
  have he0 : 0 ≤ Int.log 2 |(n : ℚ)| := (Int.zpow_le_iff_le_log hb hpos).mp (by
    have : (1 : ℚ) ≤ |(n : ℚ)| := by exact_mod_cast Int.one_le_abs hn
    simpa using this)
  have he52 : Int.log 2 |(n : ℚ)| < 53 := (Int.lt_zpow_iff_log_lt hb hpos).mp (by
    have : |(n : ℚ)| < 2 ^ 53 := by exact_mod_cast h
    exact_mod_cast this)
  obtain ⟨k, hk⟩ : ∃ k : ℕ, Int.log 2 |(n : ℚ)| - 52 = -(k : ℤ) :=
    ⟨(52 - Int.log 2 |(n : ℚ)|).toNat, by omega⟩
  have hdiv : (n : ℚ) / 2 ^ (Int.log 2 |(n : ℚ)| - 52) = ((n * 2 ^ k : ℤ) : ℚ) := by
    rw [hk, zpow_neg, zpow_natCast, div_inv_eq_mul]
    push_cast
    rfl
  have hval : ((n * 2 ^ k : ℤ) : ℚ) * 2 ^ (Int.log 2 |(n : ℚ)| - 52) = n := by
    rw [hk, zpow_neg, zpow_natCast]
    push_cast
    field_simp
  rw [roundFloat64_of_binade (by omega) h₁ h₂, hdiv, roundHalfEven_intCast, hval]
  rw [hdiv, roundHalfEven_intCast, hval]
  calc |(n : ℚ)| < 2 ^ 53 := by exact_mod_cast h
    _ < 2 ^ 1024 := by norm_num

/-- `10 * 1.1` is `11` in `float64`: the exact product lies halfway between two `float64`s and
rounds to the even one. -/
example : (FloatVal.finite 10).mul (Float64.val ⟨0x3FF199999999999A⟩) = .finite 11 := by
  have hb : (⟨0x3FF199999999999A⟩ : Float64).bits.toNat = 4607632778762754458 := rfl
  simp only [Float64.val, hb, FloatVal.mul]
  norm_num
  have hq : |(12384898975268865 / 1125899906842624 : ℚ)| = 12384898975268865 / 1125899906842624 :=
    abs_of_pos (by norm_num)
  have hr : roundHalfEven (12384898975268865 / 1125899906842624 / 2 ^ (3 - 52 : ℤ)) =
      6192449487634432 :=
    roundHalfEven_of_tie (by rw [Int.floor_eq_iff]; norm_num) (by norm_num) (by norm_num)
  rw [roundFloat64_of_binade (e := 3) (by norm_num) (by rw [hq]; norm_num) (by rw [hq]; norm_num)
    (by rw [hr]; norm_num), hr]
  norm_num

end Metafora
