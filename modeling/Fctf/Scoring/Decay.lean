import Fctf.Scoring.Dynamic

/-!
The decay of a dynamic value, for itself. The curve is stated for an arbitrary
rounding `fl` of its floating-point operations: with `id` it is the curve over
exact rationals, with `Double.ofRat` the one that both servers run. The backend's
arithmetic is stated once more with every result checked against its type.
-/

namespace Fctf

/-- `CalculateValue`, where `fl` rounds a result of type `double`. -/
def calculateValueBy (fl : ℚ → ℚ) (config : DynamicConfig) (solveCount : Nat) : Option Int :=
  match config.initial, config.minimum, config.decay with
  | some initial, some minimum, some decay =>
    if initial < 0 ∨ minimum < 0 ∨ initial < minimum ∨ decay < 1 ∨
        (config.function ≠ some "linear" ∧ config.function ≠ some "logarithmic") then none
    else
      let n := max 0 ((solveCount : Int) - 1)
      if config.function = some "linear" then some (max minimum (initial - decay * n))
      else
        let value := fl (initial +
          fl (fl (fl ((minimum : ℚ) - initial) / fl ((decay : ℚ) * decay)) * fl ((n : ℚ) * n)))
        some ⌈max (minimum : ℚ) (min value initial)⌉
  | _, _, _ => none

/-- `logarithmic` of `decay.py`, where `fl` rounds a float. -/
def logarithmicBy (fl : ℚ → ℚ) (initial minimum decay : Int) (solveCount : Nat) : Int :=
  let solveCount := if solveCount ≠ 0 then solveCount - 1 else solveCount
  let value := ⌈fl (fl (fl (((minimum - initial : Int) : ℚ) / ((decay ^ 2 : Int) : ℚ)) *
    fl ((solveCount ^ 2 : Nat) : ℚ)) + initial)⌉
  if value < minimum then minimum else value

theorem calculateValueBy_ofRat : calculateValueBy Double.ofRat = calculateValue := rfl

/-- `DECAY_FUNCTIONS`. -/
def decayFunctions (fl : ℚ → ℚ) (name : String) : Option (Int → Int → Int → Nat → Int) :=
  if name = "linear" then some linear
  else if name = "logarithmic" then some (logarithmicBy fl)
  else none

/-- A configuration that both sides take. -/
structure ValidConfig where
  initial : Int
  minimum : Int
  decay : Int
  function : String
  minimum_nonneg : 0 ≤ minimum
  minimum_le : minimum ≤ initial
  decay_pos : 1 ≤ decay
  known : function = "linear" ∨ function = "logarithmic"

namespace ValidConfig

variable (config : ValidConfig)

/-- The row of `dynamic_challenge`. -/
def toConfig : DynamicConfig :=
  ⟨some config.initial, some config.minimum, some config.decay, some config.function⟩

/-- The solves after the first one, as both sides count them. -/
def later (solveCount : Nat) : Int := max 0 ((solveCount : Int) - 1)

/-- The backend's curve, before it is clamped. -/
def curve (fl : ℚ → ℚ) (n : Int) : ℚ :=
  fl (config.initial + fl (fl (fl ((config.minimum : ℚ) - config.initial) /
    fl ((config.decay : ℚ) * config.decay)) * fl ((n : ℚ) * n)))

/-- The checks of `CalculateValue` do not refuse. -/
theorem not_refused : ¬ (config.initial < 0 ∨ config.minimum < 0 ∨
    config.initial < config.minimum ∨ config.decay < 1 ∨
    (some config.function ≠ some "linear" ∧ some config.function ≠ some "logarithmic")) := by
  have hnonneg := config.minimum_nonneg
  have hle := config.minimum_le
  have hdecay := config.decay_pos
  rintro (h | h | h | h | ⟨hlinear, hlogarithmic⟩)
  · omega
  · omega
  · omega
  · omega
  · rcases config.known with hknown | hknown
    · exact hlinear (congrArg some hknown)
    · exact hlogarithmic (congrArg some hknown)

theorem calculateValueBy_linear (fl : ℚ → ℚ) (solveCount : Nat)
    (hfunction : config.function = "linear") :
    calculateValueBy fl config.toConfig solveCount =
      some (max config.minimum (config.initial - config.decay * later solveCount)) := by
  have hlinear : some config.function = some "linear" := congrArg some hfunction
  unfold calculateValueBy toConfig
  dsimp only
  rw [if_neg config.not_refused, if_pos hlinear]
  rfl

theorem calculateValueBy_curve (fl : ℚ → ℚ) (solveCount : Nat)
    (hfunction : config.function ≠ "linear") :
    calculateValueBy fl config.toConfig solveCount =
      some ⌈max (config.minimum : ℚ)
        (min (config.curve fl (later solveCount)) config.initial)⌉ := by
  have hother : some config.function ≠ some "linear" := fun h => hfunction (Option.some.inj h)
  unfold calculateValueBy toConfig
  dsimp only
  rw [if_neg config.not_refused, if_neg hother]
  rfl

end ValidConfig

/-! ### The same value in both languages -/

section Agreement

variable (config : ValidConfig)

/-- Over exact rationals the curve never rises above the initial value. -/
theorem ValidConfig.curve_id_le (n : Int) : config.curve id n ≤ config.initial := by
  have hdiff : (config.minimum : ℚ) - config.initial ≤ 0 := by
    have hle : (config.minimum : ℚ) ≤ config.initial := by exact_mod_cast config.minimum_le
    linarith
  have hsquare : (0 : ℚ) ≤ (config.decay : ℚ) * config.decay := mul_self_nonneg _
  have hdrop := mul_nonpos_of_nonpos_of_nonneg (div_nonpos_of_nonpos_of_nonneg hdiff hsquare)
    (mul_self_nonneg (n : ℚ))
  simp only [ValidConfig.curve, id_eq]
  linarith

/-- What the management platform computes with exact rationals. -/
theorem logarithmicBy_id (initial minimum decay : Int) (solveCount : Nat) :
    logarithmicBy id initial minimum decay solveCount =
      max minimum ⌈((minimum : ℚ) - initial) / ((decay : ℚ) * decay) *
        ((ValidConfig.later solveCount : ℚ) * ValidConfig.later solveCount) + initial⌉ := by
  have hcount : ((if solveCount ≠ 0 then solveCount - 1 else solveCount : Nat) : ℚ) =
      ValidConfig.later solveCount := by
    rw [ValidConfig.later, ← solves_after_first]
    norm_cast
  unfold logarithmicBy
  simp only [id_eq]
  rw [Nat.cast_pow, hcount, pow_two, Int.cast_sub, Int.cast_mul, pow_two]
  split <;> omega

/-- The backend and the management platform compute the same value. -/
theorem decay_agrees (config : ValidConfig) (solveCount : Nat) :
    ∃ decayed, decayFunctions id config.function = some decayed ∧
      calculateValueBy id config.toConfig solveCount =
        some (decayed config.initial config.minimum config.decay solveCount) := by
  rcases config.known with hlinear | hlogarithmic
  · refine ⟨linear, by simp [decayFunctions, hlinear], ?_⟩
    rw [config.calculateValueBy_linear id solveCount hlinear, linear_eq]
    rfl
  · have hother : config.function ≠ "linear" := by simp [hlogarithmic]
    refine ⟨logarithmicBy id, by simp [decayFunctions, hlogarithmic], ?_⟩
    rw [config.calculateValueBy_curve id solveCount hother, logarithmicBy_id,
      ceil_clamp (config.curve_id_le _)]
    simp only [ValidConfig.curve, id_eq]
    rw [add_comm]

end Agreement

/-! ### Results that fit their types -/

inductive ScoringFault
  /-- `ScoringConfigurationException`. -/
  | configuration
  /-- A result that its type cannot hold: it would wrap around. -/
  | overflow
  deriving DecidableEq, Repr

def int32 (z : Int) : Except ScoringFault Int :=
  if -2147483648 ≤ z ∧ z ≤ 2147483647 then .ok z else .error .overflow

def int64 (z : Int) : Except ScoringFault Int :=
  if -9223372036854775808 ≤ z ∧ z ≤ 9223372036854775807 then .ok z else .error .overflow

/-- `CalculateValue` with each integer result checked against the type that it has there. -/
def calculateValueChecked (config : DynamicConfig) (solveCount : Int32) :
    Except ScoringFault Int :=
  match config.initial, config.minimum, config.decay with
  | some initial, some minimum, some decay =>
    if initial < 0 ∨ minimum < 0 ∨ initial < minimum ∨ decay < 1 ∨
        (config.function ≠ some "linear" ∧ config.function ≠ some "logarithmic") then
      .error .configuration
    else do
      let n := max 0 (← int64 (solveCount.toInt - 1))
      if config.function = some "linear" then
        let drop ← int64 (decay * n)
        let value ← int64 (initial - drop)
        int32 (max minimum value)
      else
        let value := Double.ofRat (initial +
          Double.ofRat (Double.ofRat (Double.ofRat ((minimum : ℚ) - initial) /
            Double.ofRat ((decay : ℚ) * decay)) * Double.ofRat ((n : ℚ) * n)))
        int32 ⌈max (minimum : ℚ) (min value initial)⌉
  | _, _, _ => .error .configuration

theorem int32_ok {z : Int} (hlow : -2147483648 ≤ z) (hhigh : z ≤ 2147483647) :
    int32 z = .ok z := if_pos ⟨hlow, hhigh⟩

theorem int64_ok {z : Int} (hlow : -9223372036854775808 ≤ z) (hhigh : z ≤ 9223372036854775807) :
    int64 z = .ok z := if_pos ⟨hlow, hhigh⟩

namespace ValidConfig

variable (config : ValidConfig)

/-- The value after the given number of solves. -/
def value (solveCount : Nat) : Int :=
  if config.function = "linear" then
    max config.minimum (config.initial - config.decay * later solveCount)
  else ⌈max (config.minimum : ℚ)
    (min (config.curve Double.ofRat (later solveCount)) config.initial)⌉

theorem calculateValue_eq (solveCount : Nat) :
    calculateValue config.toConfig solveCount = some (config.value solveCount) := by
  rw [← calculateValueBy_ofRat]
  unfold value
  split
  · rename_i hlinear
    exact config.calculateValueBy_linear _ _ hlinear
  · rename_i hother
    exact config.calculateValueBy_curve _ _ hother

theorem later_mono {m n : Nat} (hmn : m ≤ n) : later m ≤ later n := by
  unfold later
  omega

theorem later_nonneg (n : Nat) : 0 ≤ later n := le_max_left _ _

/-- The curve falls, whatever the roundings do between its operations. -/
theorem curve_antitone {fl : ℚ → ℚ} (hmono : Monotone fl) (hzero : fl 0 = 0) {m n : Int}
    (hm : 0 ≤ m) (hmn : m ≤ n) : config.curve fl n ≤ config.curve fl m := by
  have hnonpos {q : ℚ} (hq : q ≤ 0) : fl q ≤ 0 := hzero ▸ hmono hq
  have hnonneg {q : ℚ} (hq : 0 ≤ q) : 0 ≤ fl q := hzero ▸ hmono hq
  have hdiff : fl ((config.minimum : ℚ) - config.initial) ≤ 0 := by
    apply hnonpos
    have hle : (config.minimum : ℚ) ≤ config.initial := by exact_mod_cast config.minimum_le
    linarith
  have hslope := hnonpos
    (div_nonpos_of_nonpos_of_nonneg hdiff (hnonneg (mul_self_nonneg (config.decay : ℚ))))
  have hsquare : fl ((m : ℚ) * m) ≤ fl ((n : ℚ) * n) := by
    apply hmono
    have hm' : (0 : ℚ) ≤ m := by exact_mod_cast hm
    have hmn' : (m : ℚ) ≤ n := by exact_mod_cast hmn
    exact mul_self_le_mul_self hm' hmn'
  unfold curve
  apply hmono
  have hdrop := hmono (mul_le_mul_of_nonpos_left hsquare hslope)
  linarith

theorem value_antitone {m n : Nat} (hmn : m ≤ n) : config.value n ≤ config.value m := by
  have hlater := later_mono hmn
  unfold value
  split
  · have hdecay : 0 ≤ config.decay := by linarith [config.decay_pos]
    have hdrop := mul_le_mul_of_nonneg_left hlater hdecay
    apply max_le_max_left
    linarith
  · apply Int.ceil_mono
    apply max_le_max_left
    apply min_le_min_right
    exact config.curve_antitone Double.ofRat_mono Double.ofRat_zero (later_nonneg m) hlater

theorem minimum_le_value (n : Nat) : config.minimum ≤ config.value n := by
  unfold value
  split
  · exact le_max_left _ _
  · have hceil : ⌈(config.minimum : ℚ)⌉ = config.minimum := Int.ceil_intCast _
    calc config.minimum = ⌈(config.minimum : ℚ)⌉ := hceil.symm
      _ ≤ _ := Int.ceil_mono (le_max_left _ _)

theorem value_le_initial (n : Nat) : config.value n ≤ config.initial := by
  have hle := config.minimum_le
  unfold value
  split
  · have hdrop := mul_nonneg (by linarith [config.decay_pos] : 0 ≤ config.decay) (later_nonneg n)
    exact max_le hle (by linarith)
  · apply Int.ceil_le.mpr
    apply max_le
    · exact_mod_cast hle
    · exact min_le_right _ _

/-- No result of the backend's arithmetic leaves its type. -/
theorem calculateValueChecked_eq (hinitial : config.initial ≤ 2147483647)
    (hdecay : config.decay ≤ 2147483647) (solveCount : Int32) :
    calculateValueChecked config.toConfig solveCount =
      .ok (config.value solveCount.toInt.toNat) := by
  have hlow := solveCount.le_toInt
  have hhigh := solveCount.toInt_lt
  have hlater : later solveCount.toInt.toNat = max 0 (solveCount.toInt - 1) := by
    unfold later
    omega
  have hvalue := config.value_le_initial solveCount.toInt.toNat
  have hvalue' := config.minimum_le_value solveCount.toInt.toNat
  have hnonneg := config.minimum_nonneg
  have hle := config.minimum_le
  have hdrop : 0 ≤ config.decay * later solveCount.toInt.toNat := by
    apply mul_nonneg _ (later_nonneg _)
    linarith [config.decay_pos]
  have hdrop' : config.decay * later solveCount.toInt.toNat ≤ 2147483647 * 2147483647 := by
    apply mul_le_mul hdecay _ (later_nonneg _) (by norm_num)
    omega
  unfold calculateValueChecked toConfig
  dsimp only
  rw [if_neg config.not_refused, int64_ok (by omega) (by omega)]
  unfold value at hvalue hvalue' ⊢
  simp only [bind, Except.bind, ← hlater]
  by_cases hfunction : config.function = "linear"
  · have hlinear : some config.function = some "linear" := congrArg some hfunction
    rw [if_pos hfunction] at hvalue hvalue' ⊢
    simp only [if_pos hlinear, int64_ok (by omega : -9223372036854775808 ≤ config.decay *
      later solveCount.toInt.toNat) (by omega)]
    rw [int64_ok (by omega) (by omega)]
    exact int32_ok (by omega) (by omega)
  · have hother : some config.function ≠ some "linear" := fun h => hfunction (Option.some.inj h)
    rw [if_neg hfunction] at hvalue hvalue' ⊢
    have hfits := int32_ok (by omega : -2147483648 ≤ ⌈max (config.minimum : ℚ)
      (min (config.curve Double.ofRat (later solveCount.toInt.toNat)) config.initial)⌉) (by omega)
    rw [if_neg hother]
    exact hfits

end ValidConfig

/-- What the validators admit is valid, and its numbers fit in 32 bits. -/
theorem exists_validConfig {data : ScoringData} {challenge : Option DynamicConfig}
    {config : DynamicConfig} (h : dynamicConfig data challenge = some config) :
    ∃ valid : ValidConfig, config = valid.toConfig ∧ valid.initial ≤ 2147483647 ∧
      valid.decay ≤ 2147483647 := by
  obtain ⟨initial, minimum, decay, function, rfl, hminimum, hle, hinitial, hdecay, hdecay',
    hfunction⟩ := dynamicConfig_eq_some h
  exact ⟨⟨initial, minimum, decay, function, hminimum, hle, hdecay, hfunction⟩, rfl, hinitial,
    hdecay'⟩

/-- The value falls with the solves between the initial value and the minimum, and no integer
result of the backend overflows. -/
theorem calculateValue_bounded {data : ScoringData} {challenge : Option DynamicConfig}
    {config : DynamicConfig} (h : dynamicConfig data challenge = some config) :
    ∃ initial minimum, config.initial = some initial ∧ config.minimum = some minimum ∧
      (∀ m n : Nat, m ≤ n → ∃ v w, calculateValue config m = some v ∧
        calculateValue config n = some w ∧ w ≤ v ∧ v ≤ initial ∧ minimum ≤ w) ∧
      ∀ solveCount : Int32, ∃ v, calculateValue config solveCount.toInt.toNat = some v ∧
        calculateValueChecked config solveCount = .ok v := by
  obtain ⟨valid, rfl, hinitial, hdecay⟩ := exists_validConfig h
  refine ⟨valid.initial, valid.minimum, rfl, rfl, ?_, ?_⟩
  · intro m n hmn
    exact ⟨valid.value m, valid.value n, valid.calculateValue_eq m, valid.calculateValue_eq n,
      valid.value_antitone hmn, valid.value_le_initial m, valid.minimum_le_value n⟩
  · intro solveCount
    exact ⟨_, valid.calculateValue_eq _, valid.calculateValueChecked_eq hinitial hdecay solveCount⟩

/-- The largest configuration, where the square of the decay is no double. -/
theorem calculateValue_bounded_largest :
    ∃ v w, calculateValue ⟨some 2147483647, some 0, some 2147483647, some "logarithmic"⟩ 1 =
        some v ∧
      calculateValue ⟨some 2147483647, some 0, some 2147483647, some "logarithmic"⟩ 2147483647 =
        some w ∧ w ≤ v := by
  obtain ⟨_, _, _, _, hvalues, _⟩ := @calculateValue_bounded
    ⟨none, some 2147483647, some 0, some 2147483647, some "logarithmic"⟩ none
    ⟨some 2147483647, some 0, some 2147483647, some "logarithmic"⟩ (by decide)
  obtain ⟨v, w, hv, hw, hle, _⟩ := hvalues 1 2147483647 (by decide)
  exact ⟨v, w, hv, hw, hle⟩

end Fctf
