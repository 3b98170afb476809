import Fctf.Lib.Double
import Fctf.Scoring.Database

/-!
Dynamic values. `calculateValue` is what the contestant backend computes, and
`dynamicValue` what the management platform computes. Both evaluate the same
curve in binary64; they round the square of the decay at different places.
-/

namespace Fctf

/-- `CalculateValue`. An invalid configuration ends with an exception. -/
def calculateValue (config : DynamicConfig) (solveCount : Nat) : Option Int :=
  match config.initial, config.minimum, config.decay with
  | some initial, some minimum, some decay =>
    if initial < 0 ∨ minimum < 0 ∨ initial < minimum ∨ decay < 1 ∨
        (config.function ≠ some "linear" ∧ config.function ≠ some "logarithmic") then none
    else
      let n := max 0 ((solveCount : Int) - 1)
      if config.function = some "linear" then some (max minimum (initial - decay * n))
      else
        let value := Double.ofRat (initial +
          Double.ofRat (Double.ofRat (Double.ofRat ((minimum : ℚ) - initial) /
            Double.ofRat ((decay : ℚ) * decay)) * Double.ofRat ((n : ℚ) * n)))
        some ⌈max (minimum : ℚ) (min value initial)⌉
  | _, _, _ => none

/-- `score_integer` on a value that is an integer. -/
def scoreInteger (minimum : Int) (value : Option Int) : Option Int :=
  value.filter fun v => minimum ≤ v ∧ v ≤ 2147483647

/-- The scoring fields of a request; an absent field is `none`. -/
structure ScoringData where
  value : Option Int := none
  initial : Option Int := none
  minimum : Option Int := none
  decay : Option Int := none
  function : Option String := none

/-- `dynamic_config`: a field comes from the request, else from the stored
challenge, else from the defaults. -/
def dynamicConfig (data : ScoringData) (challenge : Option DynamicConfig) :
    Option DynamicConfig := do
  let stored := challenge.getD ⟨some 100, some 10, some 50, some "logarithmic"⟩
  let initial ← scoreInteger 0 (data.initial <|> stored.initial)
  let minimum ← scoreInteger 0 (data.minimum <|> stored.minimum)
  let decay ← scoreInteger 1 (data.decay <|> stored.decay)
  let function ← (data.function <|> stored.function).filter fun f =>
    f = "linear" ∨ f = "logarithmic"
  if initial < minimum then none
  else some ⟨some initial, some minimum, some decay, some function⟩

/-- `linear` of `decay.py`. -/
def linear (initial minimum decay : Int) (solveCount : Nat) : Int :=
  let solveCount := if solveCount ≠ 0 then solveCount - 1 else solveCount
  let value := initial - decay * solveCount
  if value < minimum then minimum else value

/-- `logarithmic` of `decay.py`. -/
def logarithmic (initial minimum decay : Int) (solveCount : Nat) : Int :=
  let solveCount := if solveCount ≠ 0 then solveCount - 1 else solveCount
  let value := ⌈Double.ofRat (Double.ofRat (Double.ofRat
    (((minimum - initial : Int) : ℚ) / ((decay ^ 2 : Int) : ℚ)) *
      Double.ofRat ((solveCount ^ 2 : Nat) : ℚ)) + initial)⌉
  if value < minimum then minimum else value

/-- What `calculate_value` stores: the configuration is validated and its decay
function is applied. -/
def dynamicValue (config : DynamicConfig) (solveCount : Nat) : Option Int := do
  let config ← dynamicConfig {} (some config)
  let initial ← config.initial
  let minimum ← config.minimum
  let decay ← config.decay
  if config.function = some "linear" then some (linear initial minimum decay solveCount)
  else some (logarithmic initial minimum decay solveCount)

theorem scoreInteger_eq_some {minimum v : Int} {value : Option Int} :
    scoreInteger minimum value = some v ↔ value = some v ∧ minimum ≤ v ∧ v ≤ 2147483647 := by
  simp [scoreInteger, Option.filter_eq_some_iff]

/-- What passes `dynamic_config`. -/
theorem dynamicConfig_eq_some {data : ScoringData} {challenge : Option DynamicConfig}
    {config : DynamicConfig} (h : dynamicConfig data challenge = some config) :
    ∃ initial minimum decay function,
      config = ⟨some initial, some minimum, some decay, some function⟩ ∧
      0 ≤ minimum ∧ minimum ≤ initial ∧ initial ≤ 2147483647 ∧ 1 ≤ decay ∧ decay ≤ 2147483647 ∧
      (function = "linear" ∨ function = "logarithmic") := by
  simp only [dynamicConfig, bind, Option.bind_eq_some_iff, scoreInteger_eq_some] at h
  obtain ⟨initial, ⟨-, -, hinitial⟩, minimum, ⟨-, hminimum, -⟩, decay, ⟨-, hdecay, hdecay'⟩,
    function, hfunction, h⟩ := h
  have hfunction := (Option.filter_eq_some_iff.mp hfunction).2
  split at h
  · cases h
  · rename_i hle
    obtain rfl := Option.some.inj h
    exact ⟨initial, minimum, decay, function, rfl, hminimum, by omega, hinitial, hdecay, hdecay',
      by simpa using hfunction⟩

/-- What the decay functions count. -/
theorem solves_after_first (solveCount : Nat) :
    ((if solveCount ≠ 0 then solveCount - 1 else solveCount : Nat) : Int) =
      max 0 ((solveCount : Int) - 1) := by
  split <;> omega

theorem linear_eq {initial minimum decay : Int} (solveCount : Nat) :
    linear initial minimum decay solveCount =
      max minimum (initial - decay * max 0 ((solveCount : Int) - 1)) := by
  unfold linear
  dsimp only
  rw [solves_after_first]
  split <;> omega

section Agreement

variable {initial minimum decay : Int}

theorem abs_lt_of_score {z : Int} (hlow : -2147483647 ≤ z) (hhigh : z ≤ 2147483647) :
    |(z : ℚ)| < 2 ^ 53 := by
  have hbound : |z| < 2 ^ 53 := abs_lt.mpr ⟨by omega, by omega⟩
  exact_mod_cast hbound

/-- The curve before it is rounded up, when the square of the decay is a double. -/
theorem curve_eq (hminimum : 0 ≤ minimum) (hinitial : minimum ≤ initial)
    (hmax : initial ≤ 2147483647) (hsquare : decay ^ 2 < 2 ^ 53) (n : Nat) :
    Double.ofRat (initial +
        Double.ofRat (Double.ofRat (Double.ofRat ((minimum : ℚ) - initial) /
          Double.ofRat ((decay : ℚ) * decay)) * Double.ofRat (((n : Int) : ℚ) * (n : Int)))) =
      Double.ofRat (Double.ofRat (Double.ofRat
        (((minimum - initial : Int) : ℚ) / ((decay ^ 2 : Int) : ℚ)) *
          Double.ofRat ((n ^ 2 : Nat) : ℚ)) + initial) := by
  have hdiff : Double.ofRat ((minimum : ℚ) - initial) = ((minimum - initial : Int) : ℚ) := by
    rw [← Int.cast_sub]
    exact Double.ofRat_intCast (abs_lt_of_score (by omega) (by omega))
  have hdecay2 : Double.ofRat ((decay : ℚ) * decay) = ((decay ^ 2 : Int) : ℚ) := by
    rw [← Int.cast_mul, ← pow_two]
    apply Double.ofRat_intCast
    have hpos : |decay ^ 2| < 2 ^ 53 := by rwa [abs_of_nonneg (sq_nonneg decay)]
    exact_mod_cast hpos
  have hn : ((n : Int) : ℚ) * (n : Int) = ((n ^ 2 : Nat) : ℚ) := by
    push_cast
    ring
  rw [hdiff, hdecay2, hn, add_comm]

/-- The curve does not rise above the initial value. -/
theorem curve_le (hminimum : 0 ≤ minimum) (hinitial : minimum ≤ initial)
    (hmax : initial ≤ 2147483647) (n : Nat) :
    Double.ofRat (Double.ofRat (Double.ofRat
        (((minimum - initial : Int) : ℚ) / ((decay ^ 2 : Int) : ℚ)) *
          Double.ofRat ((n ^ 2 : Nat) : ℚ)) + initial) ≤ initial := by
  have hslope : Double.ofRat (((minimum - initial : Int) : ℚ) / ((decay ^ 2 : Int) : ℚ)) ≤ 0 := by
    apply Double.ofRat_nonpos
    apply div_nonpos_of_nonpos_of_nonneg
    · exact_mod_cast (by omega : minimum - initial ≤ 0)
    · exact_mod_cast sq_nonneg decay
  have hdrop : Double.ofRat (Double.ofRat
      (((minimum - initial : Int) : ℚ) / ((decay ^ 2 : Int) : ℚ)) *
        Double.ofRat ((n ^ 2 : Nat) : ℚ)) ≤ 0 := by
    apply Double.ofRat_nonpos
    apply mul_nonpos_of_nonpos_of_nonneg hslope
    exact Double.ofRat_nonneg (by positivity)
  apply Double.ofRat_le
  · omega
  · exact (le_abs_self _).trans_lt (abs_lt_of_score (by omega) (by omega))
  · linarith

theorem ceil_clamp {value : ℚ} (hvalue : value ≤ initial) :
    ⌈max (minimum : ℚ) (min value initial)⌉ = max minimum ⌈value⌉ := by
  rw [min_eq_left hvalue, Int.ceil_mono.map_max, Int.ceil_intCast]

end Agreement

/-- Without request data the stored configuration is validated and kept. -/
theorem dynamicConfig_stored {config config' : DynamicConfig}
    (h : dynamicConfig {} (some config) = some config') : config' = config := by
  simp only [dynamicConfig, bind, Option.bind_eq_some_iff, scoreInteger_eq_some,
    Option.getD_some] at h
  obtain ⟨initial, ⟨hinitial, -⟩, minimum, ⟨hminimum, -⟩, decay, ⟨hdecay, -⟩, function, hfunction,
    h⟩ := h
  have hfunction := (Option.filter_eq_some_iff.mp hfunction).1
  split at h
  · cases h
  · obtain rfl := Option.some.inj h
    cases config
    simp_all

/-- The two sides compute the same value on a linear challenge, and on a
logarithmic one whose decay has a square that is a double. -/
theorem calculateValue_eq_dynamicValue {config : DynamicConfig} {solveCount : Nat} {v : Int}
    (h : dynamicValue config solveCount = some v)
    (hexact : config.function = some "linear" ∨ ∀ d ∈ config.decay, d ^ 2 < 2 ^ 53) :
    calculateValue config solveCount = some v := by
  obtain ⟨config', hconfig, hvalue⟩ := Option.bind_eq_some_iff.mp h
  obtain rfl := dynamicConfig_stored hconfig
  obtain ⟨initial, minimum, decay, function, rfl, hminimum, hle, hmax, hdecay, -, hfunction⟩ :=
    dynamicConfig_eq_some hconfig
  have hvalid : ¬ (initial < 0 ∨ minimum < 0 ∨ initial < minimum ∨ decay < 1 ∨
      (some function ≠ some "linear" ∧ some function ≠ some "logarithmic")) := by
    rcases hfunction with rfl | rfl <;> simp <;> omega
  simp only [calculateValue, if_neg hvalid]
  simp only [bind, Option.bind_some] at hvalue
  split at hvalue
  · rename_i hlinear
    rw [if_pos hlinear, ← linear_eq]
    exact hvalue
  · rename_i hcurve
    have hsquare := hexact.resolve_left hcurve decay rfl
    rw [if_neg hcurve, ← hvalue, ← solves_after_first]
    congr 1
    rw [curve_eq hminimum hle hmax hsquare, ceil_clamp (curve_le hminimum hle hmax _)]
    unfold logarithmic
    dsimp only
    split <;> omega

end Fctf
