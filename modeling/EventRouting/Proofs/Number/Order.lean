import Mathlib.Data.Rat.Cast.Order
import Mathlib.Order.WithBot
import Mathlib.Tactic.Ring
import EventRouting.Number.Basic

/-!
# The order of numbers

* `Scaled.value`                 the rational number that a scaled one is
* `Binary64.position`            where a number that is no NaN stands between the two infinities
* `Number.position`              the same for numbers of either kind
* `Number.compare?_eq`, `Number.same_iff`   numbers compare by where they stand
* `Number.lt_float_iff`, `Number.le_float_iff`   the order of binary64 numbers is that of their positions
* `Binary64.isNaN_add`           a sum in which no negative infinity takes part is no NaN
* `Number.isIntegral_iff`        the numbers that have the value of an integer
-/

namespace EventRouting

namespace Scaled

def value (x : Scaled) : ℚ := x.coefficient * 2 ^ x.exponent

theorem coefficientAt_value {x : Scaled} {e : Int} (h : e ≤ x.exponent) :
    (x.coefficientAt e : ℚ) * 2 ^ e = x.value := by
  have power : (2 : ℚ) ^ (x.exponent - e).toNat * 2 ^ e = 2 ^ x.exponent := by
    rw [← zpow_natCast, ← zpow_add₀ two_ne_zero, Int.toNat_of_nonneg (by omega), Int.sub_add_cancel]
  rw [coefficientAt, value, ← power]
  push_cast
  rw [Nat.pow_eq]
  push_cast
  ring

theorem compare_eq (x y : Scaled) : x.compare y = Ord.compare x.value y.value := by
  have hx := coefficientAt_value (x := x) (Int.min_le_left x.exponent y.exponent)
  have hy := coefficientAt_value (x := y) (Int.min_le_right x.exponent y.exponent)
  have power : (0 : ℚ) < 2 ^ min x.exponent y.exponent := zpow_pos two_pos _
  unfold compare
  dsimp only
  rw [← hx, ← hy]
  generalize x.coefficientAt _ = a
  generalize y.coefficientAt _ = b
  rcases lt_trichotomy a b with h | h | h
  · rw [compare_lt_iff_lt.mpr h, eq_comm, compare_lt_iff_lt]
    exact mul_lt_mul_of_pos_right (by exact_mod_cast h) power
  · rw [h, compare_eq_iff_eq.mpr rfl, compare_eq_iff_eq.mpr rfl]
  · rw [compare_gt_iff_gt.mpr h, eq_comm, compare_gt_iff_gt]
    exact mul_lt_mul_of_pos_right (by exact_mod_cast h) power

theorem compare_coe (p q : ℚ) :
    Ord.compare ((p : WithTop ℚ) : WithBot (WithTop ℚ)) ((q : WithTop ℚ) : WithBot (WithTop ℚ)) =
      Ord.compare p q := by
  rw [← cmp_eq_compare, ← cmp_eq_compare]
  exact (WithBot.coe_strictMono.comp WithTop.coe_strictMono).cmp_map_eq p q

theorem denominator_ne_zero (x : Scaled) : (x.denominator : ℚ) ≠ 0 := by
  have positive : 0 < 2 ^ (-x.exponent).toNat := Nat.two_pow_pos _
  exact_mod_cast positive.ne.symm

theorem value_eq_div (x : Scaled) : x.value = x.numerator / x.denominator := by
  have power : (2 : ℚ) ^ x.exponent * 2 ^ (-x.exponent).toNat = 2 ^ x.exponent.toNat := by
    rw [← zpow_natCast, ← zpow_natCast, ← zpow_add₀ two_ne_zero]
    congr 1
    omega
  rw [eq_div_iff x.denominator_ne_zero]
  unfold value numerator denominator
  push_cast
  rw [Nat.pow_eq, Nat.pow_eq]
  push_cast
  rw [mul_assoc, power]

theorem isIntegral_iff (x : Scaled) : x.isIntegral = true ↔ ∃ i : ℤ, x.value = i := by
  unfold isIntegral
  rw [beq_iff_eq, ← Int.dvd_iff_tmod_eq_zero, value_eq_div]
  constructor
  · rintro ⟨i, hi⟩
    refine ⟨i, ?_⟩
    rw [hi, div_eq_iff x.denominator_ne_zero]
    push_cast
    ring
  · rintro ⟨i, hi⟩
    refine ⟨i, ?_⟩
    rw [div_eq_iff x.denominator_ne_zero] at hi
    rw [mul_comm]
    exact_mod_cast hi

end Scaled

namespace Binary64

/-! ## positions -/

def position (x : Binary64) : WithBot (WithTop ℚ) :=
  match x.scaled? with
  | some a => ((a.value : WithTop ℚ) : WithBot (WithTop ℚ))
  | none => if x.negative then ⊥ else ⊤

theorem isNaN_of_isFinite {x : Binary64} (h : x.isFinite = true) : x.isNaN = false := by
  rw [isFinite, decide_eq_true_iff] at h
  rw [isNaN, decide_eq_false_iff_not]
  omega

theorem position_of_isFinite {x : Binary64} (h : x.isFinite = true) : ⊥ < x.position := by
  rw [position, scaled?, if_pos h]
  exact WithBot.bot_lt_coe _

theorem compare?_eq {x y : Binary64} (hx : x.isNaN = false) (hy : y.isNaN = false) :
    x.compare? y = some (Ord.compare x.position y.position) := by
  have below {p q : WithBot (WithTop ℚ)} (h : p < q) : some Ordering.lt = some (Ord.compare p q) :=
    congrArg some (compare_lt_iff_lt.mpr h).symm
  have above {p q : WithBot (WithTop ℚ)} (h : q < p) : some Ordering.gt = some (Ord.compare p q) :=
    congrArg some (compare_gt_iff_gt.mpr h).symm
  have level (p : WithBot (WithTop ℚ)) : some Ordering.eq = some (Ord.compare p p) :=
    congrArg some (compare_eq_iff_eq.mpr rfl).symm
  unfold compare? position
  rw [hx, hy, Bool.or_self, if_neg Bool.false_ne_true]
  cases x.scaled? with
  | some a =>
    cases y.scaled? with
    | some b =>
      dsimp only
      rw [Scaled.compare_eq, Scaled.compare_coe]
    | none =>
      cases y.negative with
      | true => exact above (WithBot.bot_lt_coe _)
      | false => exact below (WithBot.coe_lt_coe.mpr (WithTop.coe_lt_top _))
  | none =>
    cases y.scaled? with
    | some b =>
      cases x.negative with
      | true => exact below (WithBot.bot_lt_coe _)
      | false => exact above (WithBot.coe_lt_coe.mpr (WithTop.coe_lt_top _))
    | none =>
      cases x.negative <;> cases y.negative
      · exact level _
      · exact above (WithBot.bot_lt_coe _)
      · exact below (WithBot.bot_lt_coe _)
      · exact level _

/-! ## sums -/

theorem magnitude_ofParts (negative : Bool) {m : Nat} (h : m ≤ infinityMagnitude) :
    (ofParts negative m).magnitude = m := by
  unfold ofParts magnitude infinityMagnitude signBit fractions at *
  rw [UInt64.toNat_ofNat']
  cases negative <;> simp only [if_true, if_false, Bool.false_eq_true] <;> omega

theorem isNaN_ofParts (negative : Bool) {m : Nat} (h : m ≤ infinityMagnitude) :
    (ofParts negative m).isNaN = false := by
  rw [isNaN, magnitude_ofParts negative h, decide_eq_false_iff_not]
  omega

theorem isNaN_ofRatio (negative : Bool) (n d : Nat) : (ofRatio negative n d).isNaN = false := by
  unfold ofRatio
  split
  · exact isNaN_ofParts negative (Nat.zero_le _)
  · dsimp only
    unfold encode
    dsimp only
    split
    · exact isNaN_ofParts negative (Nat.le_refl _)
    · exact isNaN_ofParts negative (by omega)

/-- A sum without a NaN or a negative infinity in it is no NaN. -/
theorem isNaN_add {x y : Binary64} (hx : x.isNaN = false) (hy : y.isNaN = false) (px : ⊥ < x.position)
    (py : ⊥ < y.position) : (x.add y).isNaN = false := by
  unfold position at px py
  unfold add
  cases hsx : x.scaled? with
  | some a =>
    cases hsy : y.scaled? with
    | some b =>
      dsimp only
      split
      · exact isNaN_ofParts _ (Nat.zero_le _)
      · exact isNaN_ofRatio _ _ _
    | none => exact hy
  | none =>
    cases hsy : y.scaled? with
    | some b => exact hx
    | none =>
      rw [hsx] at px
      rw [hsy] at py
      dsimp only at px py ⊢
      have positive {z : Bool} (h : (⊥ : WithBot (WithTop ℚ)) < if z then ⊥ else ⊤) : z = false := by
        cases z with
        | true => exact absurd h (lt_irrefl _)
        | false => rfl
      rw [hx, hy, positive px, positive py]
      exact hx

end Binary64

namespace Number

/-- Where a number that is no NaN stands between the two infinities. -/
def position : Number → WithBot (WithTop ℚ)
  | int i => ((i : ℚ) : WithTop ℚ)
  | float x => x.position

def isNaN : Number → Bool
  | int _ => false
  | float x => x.isNaN

theorem compareIntFloat?_eq (i : Int) {x : Binary64} (h : x.isNaN = false) :
    compareIntFloat? i x = some (Ord.compare (int i).position x.position) := by
  have hi : (Scaled.ofInt i).value = i := by simp [Scaled.value]
  unfold compareIntFloat? position Binary64.position
  rw [h, if_neg Bool.false_ne_true]
  cases x.scaled? with
  | some a =>
    dsimp only
    rw [Scaled.compare_eq, hi, Scaled.compare_coe]
  | none =>
    cases x.negative with
    | true => exact congrArg some (compare_gt_iff_gt.mpr (WithBot.bot_lt_coe _)).symm
    | false =>
      exact congrArg some (compare_lt_iff_lt.mpr (WithBot.coe_lt_coe.mpr (WithTop.coe_lt_top _))).symm

theorem compare?_eq {m n : Number} (hm : m.isNaN = false) (hn : n.isNaN = false) :
    m.compare? n = some (Ord.compare m.position n.position) := by
  cases m with
  | int i =>
    cases n with
    | int j =>
      have cast : Ord.compare (i : ℚ) (j : ℚ) = Ord.compare i j := by
        rw [← cmp_eq_compare, ← cmp_eq_compare]
        exact Int.cast_strictMono.cmp_map_eq i j
      rw [compare?_int, position, position, Scaled.compare_coe, cast]
    | float y => exact compareIntFloat?_eq i hn
  | float x =>
    cases n with
    | int j =>
      show (compareIntFloat? j x).map Ordering.swap = _
      rw [compareIntFloat?_eq j hm, Option.map_some, ← cmp_eq_compare, cmp_swap, cmp_eq_compare]
      rfl
    | float y => exact Binary64.compare?_eq hm hn

theorem same_iff {m n : Number} (hm : m.isNaN = false) (hn : n.isNaN = false) :
    m.same n = true ↔ m.position = n.position := by
  rw [same, compare?_eq hm hn, beq_iff_eq, Option.some_inj, compare_eq_iff_eq]

theorem lt_float_iff {x y : Binary64} (hx : x.isNaN = false) (hy : y.isNaN = false) :
    (float x).lt (float y) = true ↔ x.position < y.position := by
  rw [lt, compare?, Binary64.compare?_eq hx hy, beq_iff_eq, Option.some_inj, compare_lt_iff_lt]

theorem le_float_iff {x y : Binary64} (hx : x.isNaN = false) (hy : y.isNaN = false) :
    (float x).le (float y) = true ↔ x.position ≤ y.position := by
  rw [le, Bool.or_eq_true, lt_float_iff hx hy, same, compare?, Binary64.compare?_eq hx hy, beq_iff_eq,
    Option.some_inj, compare_eq_iff_eq, le_iff_lt_or_eq]

theorem isNaN_of_le_float {x y : Binary64} (h : (float x).le (float y) = true) :
    x.isNaN = false ∧ y.isNaN = false := by
  rw [le, lt, same, compare?, Binary64.compare?] at h
  cases hx : x.isNaN <;> cases hy : y.isNaN <;> rw [hx, hy] at h <;> first | exact ⟨rfl, rfl⟩ | cases h

/-- A positive number, if it has a nearest one, is above the negative infinity. -/
theorem position_of_pos {n : Number} (h : (int 0).lt n = true)
    (finite : ∀ i, n = int i → (Binary64.ofInt i).isFinite = true) :
    n.toBinary64.isNaN = false ∧ ⊥ < n.toBinary64.position := by
  cases n with
  | int i => exact ⟨Binary64.isNaN_ofRatio _ _ _, Binary64.position_of_isFinite (finite i rfl)⟩
  | float x =>
    show x.isNaN = false ∧ ⊥ < x.position
    rw [lt, compare?, compareIntFloat?] at h
    unfold Binary64.position
    cases hx : x.isNaN with
    | true =>
      rw [hx] at h
      cases h
    | false =>
      refine ⟨rfl, ?_⟩
      rw [hx, if_neg Bool.false_ne_true] at h
      cases hs : x.scaled? with
      | some a => exact WithBot.bot_lt_coe _
      | none =>
        rw [hs] at h
        cases hn : x.negative with
        | true =>
          rw [hn] at h
          cases h
        | false => exact WithBot.bot_lt_coe _

/-- A binary64 number has the value of an integer where it is finite and exactly that integer. -/
theorem same_float_int_iff (x : Binary64) (i : Int) :
    (float x).same (int i) = true ↔ ∃ a, x.scaled? = some a ∧ a.value = i := by
  have swapped : (float x).same (int i) = true ↔ compareIntFloat? i x = some .eq := by
    rw [same, compare?, beq_iff_eq, Option.map_eq_some_iff]
    constructor
    · rintro ⟨o, ho, heq⟩
      cases o <;> cases heq
      exact ho
    · exact fun h => ⟨.eq, h, rfl⟩
  rw [swapped]
  unfold compareIntFloat?
  cases hs : x.scaled? with
  | none =>
    refine iff_of_false ?_ (by simp)
    cases x.isNaN <;> cases x.negative <;> simp
  | some a =>
    have finite : x.isFinite = true := by
      unfold Binary64.scaled? at hs
      split at hs
      · assumption
      · cases hs
    have hi : (Scaled.ofInt i).value = i := by simp [Scaled.value]
    simp only [Binary64.isNaN_of_isFinite finite, Bool.false_eq_true, if_false, Option.some_inj,
      Scaled.compare_eq, compare_eq_iff_eq, hi, exists_eq_left']
    exact eq_comm

theorem isIntegral_iff (n : Number) : n.isIntegral = true ↔ ∃ i : Int, n.same (int i) = true := by
  cases n with
  | int i => exact iff_of_true rfl ⟨i, by rw [same_int, decide_eq_true rfl]⟩
  | float x =>
    simp only [same_float_int_iff]
    unfold isIntegral
    dsimp only
    cases x.scaled? with
    | none => exact iff_of_false Bool.false_ne_true nofun
    | some a => simp [Scaled.isIntegral_iff]

end Number

end EventRouting
