import Mathlib.Algebra.Order.Field.Power
import Mathlib.Tactic.NormNum
import EventRouting.Proofs.Number.Order

/-!
# The range of binary64 numbers

A quotient has a finite number next to it up to the middle between the greatest of them and the power of two
behind it.

* `roundHalfEven_lt_iff`           when rounding stays below an even number
* `Binary64.exponentFor_bounds`    the exponent of a quotient goes with a mantissa of 53 bits
* `Binary64.isFinite_ofRatio_iff`  the quotients in range
-/

namespace EventRouting

/-- Half-way below an even number is rounded up to it. -/
theorem roundHalfEven_lt_iff {n d k : Nat} (hd : 0 < d) (hk : 0 < k) (even : k % 2 = 0) :
    roundHalfEven n d < k ↔ 2 * n < (2 * k - 1) * d := by
  have division : d * (n / d) + n % d = n := Nat.div_add_mod n d
  have rest : n % d < d := Nat.mod_lt n hd
  have rounded : roundHalfEven n d = n / d + 1 ∨ roundHalfEven n d = n / d := by
    have low := div_le_roundHalfEven n d
    have high := roundHalfEven_le_div_succ n d
    omega
  have expand : (2 * k - 1) * d + d = 2 * (d * k) := by
    rw [Nat.sub_mul, Nat.one_mul, Nat.sub_add_cancel (Nat.le_mul_of_pos_left d (by omega))]
    ring
  rcases lt_trichotomy (n / d + 1) k with below | level | above
  · have room : d * (n / d + 1) + d ≤ d * k := by
      rw [← Nat.mul_succ]
      exact Nat.mul_le_mul_left d below
    rw [Nat.mul_succ] at room
    omega
  · have odd : ¬ (n / d) % 2 = 0 := by omega
    have edge : d * (n / d) + d = d * k := by rw [← Nat.mul_succ, ← level]
    unfold roundHalfEven
    dsimp only
    rw [if_neg odd]
    split
    · omega
    · split <;> omega
  · have beyond : d * k ≤ d * (n / d) := Nat.mul_le_mul_left d (by omega)
    omega

namespace Binary64

/-! ## words -/

theorem isFinite_encode (negative : Bool) (q : Nat) (e : Int) :
    (encode negative q e).isFinite = true ↔ (e + 1074).toNat * fractions + q < infinityMagnitude := by
  unfold encode isFinite
  dsimp only
  rw [decide_eq_true_iff]
  split
  · rw [infinity, magnitude_ofParts negative (Nat.le_refl _)]
    omega
  · rw [magnitude_ofParts negative (by omega)]

/-! ## exponents -/

theorem scaled_div (n d : Nat) (e : Int) :
    ((n * Nat.pow 2 (-e).toNat : Nat) : ℚ) / (d * Nat.pow 2 e.toNat : Nat) = n / d * 2 ^ (-e) := by
  have unit : (2 : ℚ) ^ (-e) = 2 ^ (-e).toNat / 2 ^ e.toNat := by
    rw [eq_div_iff (by positivity), ← zpow_natCast, ← zpow_natCast, ← zpow_add₀ two_ne_zero]
    congr 1
    omega
  rw [unit, div_mul_div_comm, Nat.pow_eq, Nat.pow_eq]
  push_cast
  rfl

/-- The powers of two around a quotient, from the lengths of its parts. -/
theorem quotient_bounds {n d : Nat} (hn : 0 < n) (hd : 0 < d) :
    (2 : ℚ) ^ ((n.log2 : Int) - d.log2 - 1) < n / d ∧ (n / d : ℚ) < 2 ^ ((n.log2 : Int) - d.log2 + 1) := by
  have positive : (0 : ℚ) < d := by exact_mod_cast hd
  have low : (2 : ℚ) ^ (n.log2 : Int) ≤ n := by
    rw [zpow_natCast]
    exact_mod_cast Nat.log2_self_le hn.ne'
  have high : (n : ℚ) < 2 ^ ((n.log2 : Int) + 1) := by
    exact_mod_cast Nat.lt_log2_self
  have least : (2 : ℚ) ^ (d.log2 : Int) ≤ d := by
    rw [zpow_natCast]
    exact_mod_cast Nat.log2_self_le hd.ne'
  have most : (d : ℚ) < 2 ^ ((d.log2 : Int) + 1) := by
    exact_mod_cast Nat.lt_log2_self
  constructor
  · rw [lt_div_iff₀ positive]
    calc (2 : ℚ) ^ ((n.log2 : Int) - d.log2 - 1) * d
        < 2 ^ ((n.log2 : Int) - d.log2 - 1) * 2 ^ ((d.log2 : Int) + 1) := by gcongr
      _ = 2 ^ (n.log2 : Int) := by
        rw [← zpow_add₀ two_ne_zero]
        congr 1
        omega
      _ ≤ n := low
  · rw [div_lt_iff₀ positive]
    calc (n : ℚ) < 2 ^ ((n.log2 : Int) + 1) := high
      _ = 2 ^ ((n.log2 : Int) - d.log2 + 1) * 2 ^ (d.log2 : Int) := by
        rw [← zpow_add₀ two_ne_zero]
        congr 1
        omega
      _ ≤ 2 ^ ((n.log2 : Int) - d.log2 + 1) * d := by gcongr

/-- The exponent of a quotient: its mantissa is below `2 ^ 53`, and at least `2 ^ 52` unless the exponent is the
least one. -/
theorem exponentFor_bounds {n d : Nat} (hn : 0 < n) (hd : 0 < d) :
    -1074 ≤ exponentFor n d ∧ (n / d : ℚ) < 2 ^ (exponentFor n d + 53) ∧
      (-1074 < exponentFor n d → (2 : ℚ) ^ (exponentFor n d + 52) ≤ n / d) := by
  obtain ⟨low, high⟩ := quotient_bounds hn hd
  unfold exponentFor
  dsimp only
  generalize he : (n.log2 : Int) - d.log2 - 53 = e
  rw [show (n.log2 : Int) - d.log2 - 1 = e + 52 by omega] at low
  rw [show (n.log2 : Int) - d.log2 + 1 = e + 1 + 53 by omega] at high
  have fits : n * Nat.pow 2 (-e).toNat / (d * Nat.pow 2 e.toNat) < 2 * fractions ↔ (n / d : ℚ) < 2 ^ (e + 53) := by
    have positive : 0 < d * Nat.pow 2 e.toNat := Nat.mul_pos hd (Nat.two_pow_pos _)
    have units : (n / d : ℚ) < 2 ^ (e + 53) ↔ (n / d * 2 ^ (-e) : ℚ) < 2 ^ 53 := by
      rw [zpow_neg, ← div_eq_mul_inv, div_lt_iff₀ (zpow_pos two_pos _), ← zpow_natCast, ← zpow_add₀ two_ne_zero,
        add_comm e]
      rfl
    rw [Nat.div_lt_iff_lt_mul positive, units, ← scaled_div, div_lt_iff₀ (by exact_mod_cast positive)]
    exact_mod_cast Iff.rfl
  -- the exponent before it is kept from falling under the least one
  obtain ⟨e', chosen, below, above⟩ : ∃ e' : Int,
      (if n * Nat.pow 2 (-e).toNat / (d * Nat.pow 2 e.toNat) < 2 * fractions then e else e + 1) = e' ∧
        (n / d : ℚ) < 2 ^ (e' + 53) ∧ (2 : ℚ) ^ (e' + 52) ≤ n / d := by
    split
    · next h => exact ⟨e, rfl, fits.mp h, low.le⟩
    · next h =>
      refine ⟨e + 1, rfl, high, ?_⟩
      rw [show e + 1 + 52 = e + 53 by omega]
      exact not_lt.mp fun hlt => h (fits.mpr hlt)
  rw [chosen]
  refine ⟨le_max_right _ _, below.trans_le (zpow_le_zpow_right₀ one_le_two (by omega)), fun h => ?_⟩
  rwa [max_eq_left (by omega)]

/-! ## the range -/

/-- The middle between the greatest number of 53 bits, in units of `2 ^ (k + 1)`, and the power of two behind
it. -/
def lastMiddle (k : Nat) : Nat := (2 ^ 54 - 1) * Nat.pow 2 k

theorem lastMiddle_eq (k : Nat) : (lastMiddle k : ℚ) = (2 ^ 53 - 1 / 2) * 2 ^ ((k : Int) + 1) := by
  unfold lastMiddle
  rw [zpow_add_one₀ two_ne_zero, zpow_natCast, Nat.pow_eq]
  push_cast
  ring

/-- The middle between the greatest finite number and `2 ^ 1024`. -/
def rangeEnd : Nat := lastMiddle 970

theorem rangeEnd_eq : (rangeEnd : ℚ) = (2 ^ 53 - 1 / 2) * 2 ^ (971 : Int) := lastMiddle_eq 970

theorem lastMiddle_bounds (k : Nat) : 2 ^ 54 - 1 ≤ lastMiddle k ∧ lastMiddle k < 2 ^ (54 + k) := by
  have positive : 0 < 2 ^ k := Nat.two_pow_pos k
  unfold lastMiddle
  rw [Nat.pow_eq, Nat.pow_add]
  exact ⟨Nat.le_mul_of_pos_right _ positive, Nat.mul_lt_mul_of_pos_right (by decide) positive⟩

theorem le_rangeEnd : 2 ^ 54 - 1 ≤ rangeEnd := (lastMiddle_bounds 970).1

theorem rangeEnd_lt : rangeEnd < 2 ^ (54 + 970) := (lastMiddle_bounds 970).2

/-- **The range**: a quotient is rounded to a finite number exactly if it is below the middle between the
greatest finite number and `2 ^ 1024`. -/
theorem isFinite_ofRatio_iff (negative : Bool) (n : Nat) {d : Nat} (hd : 0 < d) :
    (ofRatio negative n d).isFinite = true ↔ n < rangeEnd * d := by
  have bound : n < rangeEnd * d ↔ (n / d : ℚ) < rangeEnd := by
    rw [div_lt_iff₀ (by exact_mod_cast hd)]
    exact_mod_cast Iff.rfl
  rcases Nat.eq_zero_or_pos n with rfl | hn
  · refine iff_of_true ?_ (Nat.mul_pos (Nat.lt_of_lt_of_le (by decide) le_rangeEnd) hd)
    show decide ((ofParts negative 0).magnitude < infinityMagnitude) = true
    rw [magnitude_ofParts negative (Nat.zero_le _)]
    rfl
  obtain ⟨least, below, above⟩ := exponentFor_bounds hn hd
  unfold ofRatio
  rw [if_neg hn.ne']
  dsimp only
  rw [isFinite_encode, bound, rangeEnd_eq]
  generalize exponentFor n d = e at least below above
  have positive : 0 < d * Nat.pow 2 e.toNat := Nat.mul_pos hd (Nat.two_pow_pos _)
  have rounds (k : Nat) (hk : 0 < k) (even : k % 2 = 0) :
      roundHalfEven (n * Nat.pow 2 (-e).toNat) (d * Nat.pow 2 e.toNat) < k ↔ (n / d * 2 ^ (-e) : ℚ) < k - 1 / 2 := by
    have doubled : ((2 * k - 1 : Nat) : ℚ) = 2 * (k - 1 / 2) := by
      rw [Nat.cast_sub (by omega)]
      push_cast
      ring
    rw [roundHalfEven_lt_iff positive hk even, ← scaled_div, div_lt_iff₀ (by exact_mod_cast positive),
      ← Nat.cast_lt (α := ℚ), Nat.cast_mul, Nat.cast_mul (2 * k - 1), doubled, mul_assoc, Nat.cast_ofNat]
    exact mul_lt_mul_iff_right₀ two_pos
  have units (x : ℚ) : (n / d : ℚ) < x * 2 ^ e ↔ (n / d * 2 ^ (-e) : ℚ) < x := by
    rw [zpow_neg, ← div_eq_mul_inv, div_lt_iff₀ (zpow_pos two_pos _)]
  rw [zpow_add₀ two_ne_zero, mul_comm] at below
  generalize hq : roundHalfEven (n * Nat.pow 2 (-e).toNat) (d * Nat.pow 2 e.toNat) = q at rounds
  unfold infinityMagnitude fractions
  rcases lt_trichotomy e 971 with small | rfl | large
  · -- far below the end of the range, whatever the mantissa is rounded to
    have fits : q < 2 ^ 53 + 2 := (rounds _ (by decide) (by decide)).mpr
      (((units _).mp below).trans (by norm_num))
    have power : (2 : ℚ) ^ (e + 1) ≤ 2 ^ (971 : Int) := zpow_le_zpow_right₀ one_le_two (by omega)
    refine iff_of_true (by omega) (below.trans_le ?_)
    calc (2 : ℚ) ^ (53 : Int) * 2 ^ e
        ≤ (2 ^ 53 - 1 / 2) * 2 ^ (e + 1) := by
          rw [zpow_add_one₀ two_ne_zero, mul_comm _ (2 : ℚ), ← mul_assoc]
          gcongr
          norm_num
      _ ≤ (2 ^ 53 - 1 / 2) * 2 ^ (971 : Int) := mul_le_mul_of_nonneg_left power (by norm_num)
  · have last := rounds (2 ^ 53) (by decide) (by decide)
    rw [Nat.cast_pow, Nat.cast_ofNat] at last
    rw [units, ← last]
    omega
  · -- the mantissa has all of its bits, so the number is at least `2 ^ 1024`
    have least := above (by omega)
    rw [zpow_add₀ two_ne_zero, mul_comm] at least
    have full : ¬ q < 2 ^ 52 := by
      have first := rounds (2 ^ 52) (by decide) (by decide)
      rw [Nat.cast_pow, Nat.cast_ofNat, ← units] at first
      rw [first, not_lt]
      refine le_trans ?_ least
      gcongr
      norm_num
    have power : (2 : ℚ) ^ (972 : Int) ≤ 2 ^ e := zpow_le_zpow_right₀ one_le_two (by omega)
    refine iff_of_false (by omega) (not_lt.mpr ?_)
    calc (2 ^ 53 - 1 / 2 : ℚ) * 2 ^ (971 : Int)
        ≤ 2 ^ (52 : Int) * 2 ^ (972 : Int) := by
          rw [show (972 : Int) = 971 + 1 from rfl, zpow_add_one₀ two_ne_zero, mul_comm _ (2 : ℚ), ← mul_assoc]
          gcongr
          norm_num
      _ ≤ 2 ^ (52 : Int) * 2 ^ e := mul_le_mul_of_nonneg_left power (by norm_num)
      _ ≤ n / d := least

end Binary64

end EventRouting
