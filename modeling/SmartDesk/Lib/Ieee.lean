import Mathlib.Data.Int.Log
import Mathlib.Data.Rat.Floor
import Mathlib.Algebra.Order.Round
import Mathlib.Tactic.Linarith
import Mathlib.Tactic.Ring
import Mathlib.Tactic.NormNum
import Mathlib.Tactic.Positivity

/-!
# IEEE 754 values with exact finite part

A floating-point datum is a NaN, an infinity or a rational number; `roundBinary`
rounds a rational to the nearest value of a binary format, ties to even, so an
arithmetic operation is the exact operation followed by one rounding.

* `Ieee` — the values, with the comparisons of the standard (every comparison
  with a NaN is false).
* `roundHalfEven` — nearest integer, ties to even; `le_roundHalfEven` and
  `roundHalfEven_le` say that it never crosses an integer.
* `roundBinary`, `float32`, `float64` — rounding to a format;
  `float32_of_mem_binade` computes the result in one binade, and
  `float32_mem_Icc` says that rounding keeps a value between two representable
  bounds of that binade.
-/

/-- A floating-point datum: its finite values are kept exactly.  The two zeros
are one value here, as every comparison treats them. -/
inductive Ieee where
  | nan
  | inf (negative : Bool)
  | finite (q : ℚ)
  deriving DecidableEq

namespace Ieee

/-! ## Comparisons -/

/-- `std::isfinite`, `math.isfinite`. -/
def isFinite : Ieee → Bool
  | .finite _ => true
  | _ => false

/-- `a <= b`; false as soon as one side is a NaN. -/
def leb : Ieee → Ieee → Bool
  | .nan, _ => false
  | _, .nan => false
  | .inf true, _ => true
  | .inf false, b => b = .inf false
  | .finite _, .inf negative => !negative
  | .finite a, .finite b => decide (a ≤ b)

/-- `a < b`; false as soon as one side is a NaN. -/
def ltb : Ieee → Ieee → Bool
  | .nan, _ => false
  | _, .nan => false
  | .inf true, b => b ≠ .inf true
  | .inf false, _ => false
  | .finite _, .inf negative => !negative
  | .finite a, .finite b => decide (a < b)

instance : LE Ieee := ⟨fun a b => a.leb b = true⟩

instance : LT Ieee := ⟨fun a b => a.ltb b = true⟩

instance (a b : Ieee) : Decidable (a ≤ b) := inferInstanceAs (Decidable (a.leb b = true))

instance (a b : Ieee) : Decidable (a < b) := inferInstanceAs (Decidable (a.ltb b = true))

@[simp] theorem isFinite_finite (q : ℚ) : (Ieee.finite q).isFinite = true := rfl

@[simp] theorem finite_le_finite {a b : ℚ} : Ieee.finite a ≤ Ieee.finite b ↔ a ≤ b :=
  decide_eq_true_iff

@[simp] theorem finite_lt_finite {a b : ℚ} : Ieee.finite a < Ieee.finite b ↔ a < b :=
  decide_eq_true_iff

/-- A finite datum is a rational. -/
theorem exists_of_isFinite {x : Ieee} (h : x.isFinite = true) : ∃ q, x = .finite q := by
  cases x with
  | finite q => exact ⟨q, rfl⟩
  | nan => simp [isFinite] at h
  | inf negative => simp [isFinite] at h

/-- Between finite values the comparisons are those of a linear order; this is
where a guard written `a >= b` refutes `b <= a`. -/
theorem lt_of_not_le {a b : Ieee} (ha : a.isFinite = true) (hb : b.isFinite = true)
    (h : ¬ b ≤ a) : a < b := by
  obtain ⟨p, rfl⟩ := exists_of_isFinite ha
  obtain ⟨q, rfl⟩ := exists_of_isFinite hb
  simpa using h

/-! ## Rounding to an integer -/

/-- The nearest integer, ties to even. -/
def roundHalfEven (q : ℚ) : ℤ :=
  let fraction := q - ⌊q⌋
  if fraction < 1 / 2 then ⌊q⌋
  else if 1 / 2 < fraction then ⌊q⌋ + 1
  else if ⌊q⌋ % 2 = 0 then ⌊q⌋ else ⌊q⌋ + 1

theorem floor_le_roundHalfEven (q : ℚ) : ⌊q⌋ ≤ roundHalfEven q := by
  unfold roundHalfEven
  dsimp only
  split_ifs <;> omega

theorem roundHalfEven_le_floor_add_one (q : ℚ) : roundHalfEven q ≤ ⌊q⌋ + 1 := by
  unfold roundHalfEven
  dsimp only
  split_ifs <;> omega

/-- Rounding never falls below an integer that is below the value. -/
theorem le_roundHalfEven {n : ℤ} {q : ℚ} (h : (n : ℚ) ≤ q) : n ≤ roundHalfEven q :=
  le_trans (Int.le_floor.mpr h) (floor_le_roundHalfEven q)

/-- Rounding never rises above an integer that is above the value. -/
theorem roundHalfEven_le {n : ℤ} {q : ℚ} (h : q ≤ (n : ℚ)) : roundHalfEven q ≤ n := by
  rcases lt_or_eq_of_le h with hlt | rfl
  · exact le_trans (roundHalfEven_le_floor_add_one q) (Int.floor_lt.mpr hlt)
  · simp [roundHalfEven]

/-- Rounding moves a value by one half at most. -/
theorem abs_roundHalfEven_sub_le (q : ℚ) : |(roundHalfEven q : ℚ) - q| ≤ 1 / 2 := by
  have hlow := Int.floor_le q
  have hhigh := Int.lt_floor_add_one q
  unfold roundHalfEven
  dsimp only
  rw [abs_le]
  split_ifs with hbelow habove heven
  · constructor <;> linarith
  · push_cast
    constructor <;> linarith
  · constructor <;> linarith
  · push_cast
    constructor <;> linarith

/-- The only integer that is closer than one half is the nearest one. -/
theorem roundHalfEven_eq_of_near {n : ℤ} {q : ℚ} (h : |q - n| < 1 / 2) : roundHalfEven q = n := by
  have hround := abs_roundHalfEven_sub_le q
  rw [abs_le] at hround
  rw [abs_lt] at h
  have hlow : (n : ℚ) - 1 < roundHalfEven q := by linarith
  have hhigh : (roundHalfEven q : ℚ) < n + 1 := by linarith
  have hlow : n - 1 < roundHalfEven q := by exact_mod_cast hlow
  have hhigh : roundHalfEven q < n + 1 := by exact_mod_cast hhigh
  omega

/-! ## Rounding to a binary format -/

/-- Round a rational to the binary format with `precision` significant bits and
the exponent range `minExponent .. maxExponent`, to nearest with ties to even;
beyond the range the result is an infinity. -/
def roundBinary (precision : ℕ) (minExponent maxExponent : ℤ) (q : ℚ) : Ieee :=
  if q = 0 then .finite 0
  else
    let exponent := max (Int.log 2 |q|) minExponent
    let ulp : ℚ := 2 ^ (exponent - ((precision : ℤ) - 1))
    let rounded := roundHalfEven (q / ulp) * ulp
    if (2 : ℚ) ^ (maxExponent + 1) ≤ |rounded| then .inf (decide (q < 0)) else .finite rounded

/-- Rounding to binary32, the `float` of C++. -/
def float32 (q : ℚ) : Ieee := roundBinary 24 (-126) 127 q

/-- Rounding to binary64, the `float` of Python. -/
def float64 (q : ℚ) : Ieee := roundBinary 53 (-1022) 1023 q

theorem log_eq_six {q : ℚ} (h₁ : 64 ≤ q) (h₂ : q < 128) : Int.log 2 q = 6 := by
  have hq : (0 : ℚ) < q := by linarith
  have hlow : (6 : ℤ) ≤ Int.log 2 q :=
    (Int.zpow_le_iff_le_log (by norm_num) hq).mp (by norm_num; linarith)
  have hhigh : Int.log 2 q < 7 :=
    (Int.lt_zpow_iff_log_lt (by norm_num) hq).mp (by norm_num; linarith)
  omega

/-- In the binade from 64 to 128 one unit in the last place of a binary32 is `2⁻¹⁷`. -/
theorem float32_of_mem_binade {q : ℚ} (h₁ : 64 ≤ q) (h₂ : q ≤ 127) :
    float32 q = .finite (roundHalfEven (q * 2 ^ 17) / 2 ^ 17) := by
  have hq : (0 : ℚ) < q := by linarith
  have hrange : (roundHalfEven (q * 2 ^ 17) : ℚ) ≤ 127 * 2 ^ 17 := by
    have h : roundHalfEven (q * 2 ^ 17) ≤ 127 * 2 ^ 17 :=
      roundHalfEven_le (by push_cast; linarith)
    exact_mod_cast h
  have hpos : (0 : ℚ) ≤ roundHalfEven (q * 2 ^ 17) := by
    have h : (0 : ℤ) ≤ roundHalfEven (q * 2 ^ 17) :=
      le_roundHalfEven (by push_cast; positivity)
    exact_mod_cast h
  have hulp : (2 : ℚ) ^ (max (6 : ℤ) (-126) - (((24 : ℕ) : ℤ) - 1)) = 1 / 2 ^ 17 := by
    norm_num
  have hsmall : ¬ (2 : ℚ) ^ ((127 : ℤ) + 1) ≤ |(roundHalfEven (q * 2 ^ 17) : ℚ) / 2 ^ 17| := by
    rw [abs_of_nonneg (by positivity), not_le, div_lt_iff₀ (by positivity)]
    exact lt_of_le_of_lt hrange (by norm_num)
  rw [float32, roundBinary, if_neg hq.ne', abs_of_pos hq, log_eq_six h₁ (by linarith)]
  dsimp only
  rw [hulp]
  have hdiv : q / (1 / 2 ^ 17) = q * 2 ^ 17 := by ring
  have hmul : (roundHalfEven (q * 2 ^ 17) : ℚ) * (1 / 2 ^ 17)
      = roundHalfEven (q * 2 ^ 17) / 2 ^ 17 := by ring
  rw [hdiv, hmul, if_neg hsmall]

/-- Rounding to binary32 keeps a value between two integer bounds of the binade. -/
theorem float32_mem_Icc {a b : ℤ} {q : ℚ} (ha : 64 ≤ a) (hb : b ≤ 127)
    (h₁ : (a : ℚ) ≤ q) (h₂ : q ≤ b) :
    ∃ r : ℚ, float32 q = .finite r ∧ (a : ℚ) ≤ r ∧ r ≤ b := by
  have ha' : (64 : ℚ) ≤ a := by exact_mod_cast ha
  have hb' : (b : ℚ) ≤ 127 := by exact_mod_cast hb
  refine ⟨_, float32_of_mem_binade (by linarith) (by linarith), ?_, ?_⟩
  · have h : a * 2 ^ 17 ≤ roundHalfEven (q * 2 ^ 17) :=
      le_roundHalfEven (by push_cast; linarith)
    rw [le_div_iff₀ (by positivity)]
    exact_mod_cast h
  · have h : roundHalfEven (q * 2 ^ 17) ≤ b * 2 ^ 17 :=
      roundHalfEven_le (by push_cast; linarith)
    rw [div_le_iff₀ (by positivity)]
    exact_mod_cast h

/-- In the binade from 64 to 128 one unit in the last place of a binary64 is `2⁻⁴⁶`. -/
theorem float64_of_mem_binade {q : ℚ} (h₁ : 64 ≤ q) (h₂ : q ≤ 127) :
    float64 q = .finite (roundHalfEven (q * 2 ^ 46) / 2 ^ 46) := by
  have hq : (0 : ℚ) < q := by linarith
  have hrange : roundHalfEven (q * 2 ^ 46) ≤ 127 * 2 ^ 46 :=
    roundHalfEven_le (by push_cast; linarith)
  have hpos : 0 ≤ roundHalfEven (q * 2 ^ 46) := le_roundHalfEven (by push_cast; positivity)
  have hulp : (2 : ℚ) ^ (max (6 : ℤ) (-1022) - (((53 : ℕ) : ℤ) - 1)) = 1 / 2 ^ 46 := by norm_num
  have hsmall : ¬ (2 : ℚ) ^ ((1023 : ℤ) + 1) ≤ |(roundHalfEven (q * 2 ^ 46) : ℚ) / 2 ^ 46| := by
    have hpow : (2 : ℚ) ^ (7 : ℤ) ≤ 2 ^ ((1023 : ℤ) + 1) :=
      zpow_le_zpow_right₀ (by norm_num) (by norm_num)
    rw [abs_of_nonneg (div_nonneg (by exact_mod_cast hpos) (by positivity)), not_le]
    refine lt_of_lt_of_le ?_ hpow
    rw [div_lt_iff₀ (by positivity)]
    have hcast : (roundHalfEven (q * 2 ^ 46) : ℚ) ≤ 127 * 2 ^ 46 := by exact_mod_cast hrange
    exact lt_of_le_of_lt hcast (by norm_num)
  rw [float64, roundBinary, if_neg hq.ne', abs_of_pos hq, log_eq_six h₁ (by linarith)]
  dsimp only
  rw [hulp]
  have hdiv : q / (1 / 2 ^ 46) = q * 2 ^ 46 := by ring
  have hmul : (roundHalfEven (q * 2 ^ 46) : ℚ) * (1 / 2 ^ 46)
      = roundHalfEven (q * 2 ^ 46) / 2 ^ 46 := by ring
  rw [hdiv, hmul, if_neg hsmall]

/-- A value of that binade that was rounded is not rounded again. -/
theorem float64_idempotent {q r : ℚ} (h₁ : 64 ≤ q) (h₂ : q ≤ 127)
    (h : float64 q = .finite r) : float64 r = .finite r := by
  rw [float64_of_mem_binade h₁ h₂] at h
  obtain rfl := Ieee.finite.inj h
  have hlow : 64 * 2 ^ 46 ≤ roundHalfEven (q * 2 ^ 46) :=
    le_roundHalfEven (by push_cast; linarith)
  have hhigh : roundHalfEven (q * 2 ^ 46) ≤ 127 * 2 ^ 46 :=
    roundHalfEven_le (by push_cast; linarith)
  generalize roundHalfEven (q * 2 ^ 46) = n at hlow hhigh
  have hlow : (64 : ℚ) * 2 ^ 46 ≤ n := by exact_mod_cast hlow
  have hhigh : (n : ℚ) ≤ 127 * 2 ^ 46 := by exact_mod_cast hhigh
  have hcancel : (n : ℚ) / 2 ^ 46 * 2 ^ 46 = n := by ring
  rw [float64_of_mem_binade (by rwa [le_div_iff₀ (by positivity)])
    (by rwa [div_le_iff₀ (by positivity)]), hcancel, roundHalfEven_eq_of_near (n := n) (by simp)]

/-! ## The error of a rounding -/

/-- One unit in the last place is a small part of a normal value, and tiny for a
subnormal one. -/
theorem ulp_le {q : ℚ} (hq : 0 < q) :
    (2 : ℚ) ^ (max (Int.log 2 |q|) (-1022) - (((53 : ℕ) : ℤ) - 1)) ≤ (q + 1) / 2 ^ 52 := by
  have hpow : (2 : ℚ) ^ (-52 : ℤ) = 1 / 2 ^ 52 := by norm_num
  have hsplit : (2 : ℚ) ^ (max (Int.log 2 |q|) (-1022) - (((53 : ℕ) : ℤ) - 1)) =
      2 ^ max (Int.log 2 |q|) (-1022) * (1 / 2 ^ 52) := by
    rw [← hpow, ← zpow_add₀ (by norm_num)]
    norm_num
    ring_nf
  have hbound : (2 : ℚ) ^ max (Int.log 2 |q|) (-1022) ≤ q + 1 := by
    rw [abs_of_pos hq]
    rcases le_total (Int.log 2 q) (-1022) with hle | hle
    · rw [max_eq_right hle]
      have : (2 : ℚ) ^ (-1022 : ℤ) ≤ 2 ^ (0 : ℤ) := zpow_le_zpow_right₀ (by norm_num) (by norm_num)
      linarith [zpow_zero (2 : ℚ)]
    · rw [max_eq_left hle]
      have := Int.zpow_log_le_self (b := 2) (by norm_num) hq
      push_cast at this
      linarith
  rw [hsplit, div_eq_mul_one_div (q + 1)]
  exact mul_le_mul_of_nonneg_right hbound (by positivity)

/-- **A value that is not negative is rounded to one that is close to it, or to infinity.** -/
theorem float64_close {q : ℚ} (hq : 0 ≤ q) :
    float64 q = .inf false ∧ (2 : ℚ) ^ ((1023 : ℤ) + 1) ≤ q + (q + 1) / 2 ^ 52 ∨
      ∃ r, float64 q = .finite r ∧ q - (q + 1) / 2 ^ 52 ≤ r ∧ r ≤ q + (q + 1) / 2 ^ 52 := by
  rcases hq.eq_or_lt with rfl | hpos
  · exact .inr ⟨0, rfl, by norm_num, by norm_num⟩
  · unfold float64 roundBinary
    rw [if_neg hpos.ne']
    dsimp only
    set ulp : ℚ := 2 ^ (max (Int.log 2 |q|) (-1022) - (((53 : ℕ) : ℤ) - 1)) with hulp
    have hulpPos : 0 < ulp := zpow_pos (by norm_num) _
    have hulpLe : ulp ≤ (q + 1) / 2 ^ 52 := ulp_le hpos
    have hdiv : q / ulp * ulp = q := div_mul_cancel₀ q hulpPos.ne'
    have hlow : q - ulp ≤ roundHalfEven (q / ulp) * ulp := by
      have hfloor : (⌊q / ulp⌋ : ℚ) ≤ roundHalfEven (q / ulp) := by
        exact_mod_cast floor_le_roundHalfEven (q / ulp)
      have hle : q / ulp - 1 ≤ roundHalfEven (q / ulp) :=
        le_trans (Int.sub_one_lt_floor _).le hfloor
      have := mul_le_mul_of_nonneg_right hle hulpPos.le
      linarith
    have hhigh : roundHalfEven (q / ulp) * ulp ≤ q + ulp := by
      have hfloor : (roundHalfEven (q / ulp) : ℚ) ≤ ⌊q / ulp⌋ + 1 := by
        exact_mod_cast roundHalfEven_le_floor_add_one (q / ulp)
      have hle : (roundHalfEven (q / ulp) : ℚ) ≤ q / ulp + 1 :=
        le_trans hfloor (by linarith [Int.floor_le (q / ulp)])
      have := mul_le_mul_of_nonneg_right hle hulpPos.le
      linarith
    have hnonneg : 0 ≤ (roundHalfEven (q / ulp) : ℚ) * ulp := by
      have hle : (0 : ℤ) ≤ roundHalfEven (q / ulp) :=
        le_roundHalfEven (by push_cast; positivity)
      have : (0 : ℚ) ≤ roundHalfEven (q / ulp) := by exact_mod_cast hle
      positivity
    split
    · next hinf =>
      rw [abs_of_nonneg hnonneg] at hinf
      exact .inl ⟨by rw [decide_eq_false (not_lt.mpr hq)], by linarith⟩
    · exact .inr ⟨_, rfl, by linarith, by linarith⟩

/-! ## Arithmetic -/

/-- The finite value of a binary64 nearest to `q`, for a `q` in its range. -/
def double (q : ℚ) : ℚ :=
  match float64 q with
  | .finite r => r
  | _ => 0

/-- A value that is far from infinity is rounded to a close finite one. -/
theorem double_close {q : ℚ} (hq : 0 ≤ q) (hsmall : q ≤ 2 ^ 100) :
    q - (q + 1) / 2 ^ 52 ≤ double q ∧ double q ≤ q + (q + 1) / 2 ^ 52 := by
  unfold double
  rcases float64_close hq with ⟨-, hinf⟩ | ⟨r, hr, hbounds⟩
  · have hpow : (2 : ℚ) ^ (101 : ℤ) ≤ 2 ^ ((1023 : ℤ) + 1) :=
      zpow_le_zpow_right₀ (by norm_num) (by norm_num)
    have hbig : (2 : ℚ) ^ 100 + (2 ^ 100 + 1) / 2 ^ 52 < 2 ^ (101 : ℤ) := by norm_num
    have hmono : q + (q + 1) / 2 ^ 52 ≤ 2 ^ 100 + (2 ^ 100 + 1) / 2 ^ 52 := by gcongr
    exact absurd (le_trans hinf hmono) (not_le.mpr (lt_of_lt_of_le hbig hpow))
  · rw [hr]
    exact hbounds

def neg : Ieee → Ieee
  | .nan => .nan
  | .inf negative => .inf !negative
  | .finite q => .finite (-q)

def abs : Ieee → Ieee
  | .nan => .nan
  | .inf _ => .inf false
  | .finite q => .finite |q|

/-- `a + b` in binary64. -/
def add : Ieee → Ieee → Ieee
  | .nan, _ => .nan
  | _, .nan => .nan
  | .inf a, .inf b => if a = b then .inf a else .nan
  | .inf a, .finite _ => .inf a
  | .finite _, .inf b => .inf b
  | .finite a, .finite b => float64 (a + b)

/-- `a - b` in binary64. -/
def sub (a b : Ieee) : Ieee := a.add b.neg

/-- The binary64 nearest to the square root of a finite `q` that is not negative. -/
def sqrt (q : ℚ) : ℚ :=
  if q = 0 then 0
  else
    let ulp : ℚ := 2 ^ (Int.log 2 q / 2 - 52)
    let root := Nat.sqrt ⌊q / ulp ^ 2⌋₊
    (if ((root : ℚ) + 1 / 2) ^ 2 < q / ulp ^ 2 then root + 1 else root) * ulp

/-- `a / n` in binary64, for a positive integer. -/
def divNat (a : Ieee) (n : ℕ) : Ieee :=
  match a with
  | .finite q => float64 (q / n)
  | other => other

end Ieee
