import Mathlib.Data.Int.Log
import Mathlib.Data.Rat.Floor
import Mathlib.Tactic.Linarith

/-!
Binary64 arithmetic as exact arithmetic followed by a rounding. A double is the
rational number that it stands for, and `ofRat` is the nearest double, ties to
the even significand. Only normal numbers are covered: there is no largest and
no smallest exponent here.
-/

namespace Double

/-- The nearest integer; of two that are equally near, the even one. -/
def roundEven (q : ℚ) : ℤ :=
  let below := ⌊q⌋
  if q - below < 1 / 2 then below
  else if 1 / 2 < q - below then below + 1
  else if below % 2 = 0 then below
  else below + 1

/-- The value of the last of the 53 significant bits of `q`. -/
def ulp (q : ℚ) : ℚ := 2 ^ (Int.log 2 |q| - 52)

/-- The double nearest to `q`. -/
def ofRat (q : ℚ) : ℚ := if q = 0 then 0 else roundEven (q / ulp q) * ulp q

@[simp] theorem roundEven_intCast (z : ℤ) : roundEven z = z := by
  have hfrac : (z : ℚ) - z < 1 / 2 := by
    rw [sub_self]
    norm_num
  simp only [roundEven, Int.floor_intCast, if_pos hfrac]

/-- Rounding does not pass over an integer. -/
theorem roundEven_le {q : ℚ} {z : ℤ} (h : q ≤ z) : roundEven q ≤ z := by
  rcases h.lt_or_eq with hlt | rfl
  · have hbelow : ⌊q⌋ < z := Int.floor_lt.mpr hlt
    unfold roundEven
    dsimp only
    split_ifs <;> omega
  · rw [roundEven_intCast]

theorem le_roundEven {q : ℚ} {z : ℤ} (h : z ≤ q) : z ≤ roundEven q := by
  have hbelow : z ≤ ⌊q⌋ := Int.le_floor.mpr h
  unfold roundEven
  dsimp only
  split_ifs <;> omega

theorem ulp_pos (q : ℚ) : 0 < ulp q := zpow_pos (by norm_num) _

@[simp] theorem ofRat_zero : ofRat 0 = 0 := if_pos rfl

/-- Below 2 ^ 53 the integers are multiples of the last significant bit. -/
theorem exists_int_div_ulp {q : ℚ} (hq : q ≠ 0) (hbound : |q| < 2 ^ 53) (z : ℤ) :
    ∃ k : ℤ, (z : ℚ) / ulp q = k := by
  have hpos : 0 < |q| := abs_pos.mpr hq
  have hlog : Int.log 2 |q| < 53 := by
    apply (Int.lt_zpow_iff_log_lt (by norm_num) hpos).mp
    exact_mod_cast hbound
  refine ⟨z * 2 ^ (52 - Int.log 2 |q|).toNat, ?_⟩
  have hexp : ulp q = ((2 : ℚ) ^ (52 - Int.log 2 |q|).toNat)⁻¹ := by
    rw [ulp, ← zpow_natCast, ← zpow_neg]
    congr 1
    omega
  rw [hexp, div_inv_eq_mul]
  push_cast
  ring

theorem ofRat_intCast {z : ℤ} (hbound : |(z : ℚ)| < 2 ^ 53) : ofRat z = z := by
  by_cases hz : (z : ℚ) = 0
  · rw [hz, ofRat_zero]
  obtain ⟨k, hk⟩ := exists_int_div_ulp hz hbound z
  rw [ofRat, if_neg hz, hk, roundEven_intCast, ← hk]
  exact div_mul_cancel₀ _ (ulp_pos _).ne'

/-- Rounding does not pass over an integer below 2 ^ 53. -/
theorem ofRat_le {q : ℚ} {z : ℤ} (hz : 0 ≤ z) (hbound : (z : ℚ) < 2 ^ 53) (h : q ≤ z) :
    ofRat q ≤ z := by
  by_cases hq : q = 0
  · rw [hq, ofRat_zero]
    exact_mod_cast hz
  have hulp := ulp_pos q
  rw [ofRat, if_neg hq]
  rcases lt_or_gt_of_ne hq with hneg | hpos
  · have hround : roundEven (q / ulp q) ≤ 0 := by
      apply roundEven_le
      exact_mod_cast (div_neg_of_neg_of_pos hneg hulp).le
    calc (roundEven (q / ulp q) : ℚ) * ulp q ≤ 0 := by
          apply mul_nonpos_of_nonpos_of_nonneg _ hulp.le
          exact_mod_cast hround
      _ ≤ z := by exact_mod_cast hz
  · have hsmall : |q| < 2 ^ 53 := by
      rw [abs_of_pos hpos]
      exact h.trans_lt hbound
    obtain ⟨k, hk⟩ := exists_int_div_ulp hq hsmall z
    have hround : roundEven (q / ulp q) ≤ k := by
      apply roundEven_le
      rw [← hk]
      exact div_le_div_of_nonneg_right h hulp.le
    calc (roundEven (q / ulp q) : ℚ) * ulp q ≤ k * ulp q := by
          apply mul_le_mul_of_nonneg_right _ hulp.le
          exact_mod_cast hround
      _ = z := by rw [← hk, div_mul_cancel₀ _ hulp.ne']

theorem ofRat_nonpos {q : ℚ} (h : q ≤ 0) : ofRat q ≤ 0 := by
  have hle := ofRat_le (z := 0) le_rfl (by norm_num) (by exact_mod_cast h)
  exact_mod_cast hle

theorem ofRat_nonneg {q : ℚ} (h : 0 ≤ q) : 0 ≤ ofRat q := by
  have hulp := ulp_pos q
  have hround : 0 ≤ roundEven (q / ulp q) := by
    apply le_roundEven
    exact_mod_cast div_nonneg h hulp.le
  unfold ofRat
  split
  · exact le_rfl
  · apply mul_nonneg _ hulp.le
    exact_mod_cast hround

/-! ### Monotonicity -/

theorem roundEven_mono {q r : ℚ} (h : q ≤ r) : roundEven q ≤ roundEven r := by
  rcases (Int.floor_mono h).lt_or_eq with hlt | heq
  · have hup : roundEven q ≤ ⌊q⌋ + 1 := by
      unfold roundEven
      dsimp only
      split_ifs <;> omega
    have hdown : ⌊r⌋ ≤ roundEven r := le_roundEven (Int.floor_le r)
    omega
  · unfold roundEven
    rw [heq]
    dsimp only
    -- the fraction only grows, so the branches are taken in this order
    split_ifs <;> first | omega | (exfalso; linarith)

theorem roundEven_neg (q : ℚ) : roundEven (-q) = -roundEven q := by
  by_cases hint : (⌊q⌋ : ℚ) = q
  · rw [← hint, ← Int.cast_neg, roundEven_intCast, roundEven_intCast]
  have hlow : (⌊q⌋ : ℚ) < q := lt_of_le_of_ne (Int.floor_le q) hint
  have hhigh : q < ⌊q⌋ + 1 := Int.lt_floor_add_one q
  have hfloor : ⌊-q⌋ = -⌊q⌋ - 1 := by
    apply Int.floor_eq_iff.mpr
    push_cast
    constructor <;> linarith
  unfold roundEven
  rw [hfloor]
  dsimp only
  push_cast
  split_ifs <;> first | omega | (exfalso; linarith)

theorem ulp_neg (q : ℚ) : ulp (-q) = ulp q := by
  rw [ulp, ulp, abs_neg]

theorem ofRat_neg (q : ℚ) : ofRat (-q) = -ofRat q := by
  by_cases hq : q = 0
  · rw [hq, neg_zero, ofRat_zero, neg_zero]
  rw [ofRat, if_neg (neg_ne_zero.mpr hq), ofRat, if_neg hq, ulp_neg, neg_div, roundEven_neg]
  push_cast
  ring

/-- The last bit counts 2 ^ 52 times into the first one. -/
theorem ulp_mul (q : ℚ) : 2 ^ 52 * ulp q = 2 ^ Int.log 2 |q| := by
  have hexp : Int.log 2 |q| = 52 + (Int.log 2 |q| - 52) := by omega
  rw [ulp]
  conv_rhs => rw [hexp, zpow_add₀ (by norm_num)]
  norm_num

/-- Rounding does not pass below the power of two under a number. -/
theorem zpow_log_le_ofRat {q : ℚ} (hq : 0 < q) : 2 ^ Int.log 2 q ≤ ofRat q := by
  have hulp := ulp_pos q
  have hpow : (2 : ℚ) ^ Int.log 2 |q| ≤ q := by
    rw [abs_of_pos hq]
    exact_mod_cast Int.zpow_log_le_self (b := 2) (by norm_num) hq
  have hround : (2 ^ 52 : ℤ) ≤ roundEven (q / ulp q) := by
    apply le_roundEven
    rw [le_div_iff₀ hulp]
    have hmul := ulp_mul q
    push_cast
    linarith
  rw [ofRat, if_neg hq.ne']
  calc (2 : ℚ) ^ Int.log 2 q = 2 ^ 52 * ulp q := by rw [ulp_mul, abs_of_pos hq]
    _ ≤ roundEven (q / ulp q) * ulp q := by
      apply mul_le_mul_of_nonneg_right _ hulp.le
      exact_mod_cast hround

/-- Nor above the next one. -/
theorem ofRat_le_zpow_log {q : ℚ} (hq : 0 < q) : ofRat q ≤ 2 ^ (Int.log 2 q + 1) := by
  have hulp := ulp_pos q
  have hpow : q < (2 : ℚ) ^ (Int.log 2 q + 1) := by
    exact_mod_cast Int.lt_zpow_succ_log_self (b := 2) (by norm_num) q
  have hnext : (2 : ℚ) ^ (Int.log 2 q + 1) = 2 ^ 53 * ulp q := by
    rw [zpow_add_one₀ (by norm_num)]
    have hmul := ulp_mul q
    rw [abs_of_pos hq] at hmul
    rw [← hmul]
    ring
  have hround : roundEven (q / ulp q) ≤ (2 ^ 53 : ℤ) := by
    apply roundEven_le
    rw [div_le_iff₀ hulp]
    push_cast
    linarith
  rw [ofRat, if_neg hq.ne', hnext]
  apply mul_le_mul_of_nonneg_right _ hulp.le
  exact_mod_cast hround

theorem ofRat_mono_pos {q r : ℚ} (hq : 0 < q) (h : q ≤ r) : ofRat q ≤ ofRat r := by
  have hr : 0 < r := hq.trans_le h
  rcases (Int.log_mono_right (b := 2) hq h).lt_or_eq with hlt | heq
  · calc ofRat q ≤ 2 ^ (Int.log 2 q + 1) := ofRat_le_zpow_log hq
      _ ≤ 2 ^ Int.log 2 r := zpow_le_zpow_right₀ (by norm_num) hlt
      _ ≤ ofRat r := zpow_log_le_ofRat hr
  · have hulp : ulp q = ulp r := by rw [ulp, ulp, abs_of_pos hq, abs_of_pos hr, heq]
    have hround : roundEven (q / ulp r) ≤ roundEven (r / ulp r) :=
      roundEven_mono (div_le_div_of_nonneg_right h (ulp_pos r).le)
    rw [ofRat, if_neg hq.ne', ofRat, if_neg hr.ne', hulp]
    apply mul_le_mul_of_nonneg_right _ (ulp_pos r).le
    exact_mod_cast hround

/-- Rounding keeps the order. -/
theorem ofRat_mono : Monotone ofRat := by
  intro q r h
  rcases lt_or_ge 0 q with hq | hq
  · exact ofRat_mono_pos hq h
  · rcases lt_or_ge r 0 with hr | hr
    · have hneg := ofRat_mono_pos (neg_pos.mpr hr) (neg_le_neg h)
      rw [ofRat_neg, ofRat_neg] at hneg
      exact neg_le_neg_iff.mp hneg
    · exact (ofRat_nonpos hq).trans (ofRat_nonneg hr)

end Double
