import EventRouting.Number.Notation
import EventRouting.Number.Reading
import Mathlib.Data.List.Induction

/-!
# Digits that are written and read

* `Text.isBlank_of_visible`    the visible characters of ASCII are no blanks
* `Text.digitsValue_toDigits`  the digits of a natural number spell it
* `Number.ofDigits_intText`    the text of an integer is read as that integer
-/

namespace EventRouting

namespace Text

theorem isBlank_of_visible {c : Char} (h : 33 ≤ c.toNat) (h' : c.toNat < 127) : isBlank c = false := by
  have hn : inRanges blankRanges c.toNat = false := by
    simp only [blankRanges, inRanges_cons, inRanges_nil, Bool.or_eq_false_iff, Bool.and_eq_false_iff,
      decide_eq_false_iff_not, and_true]
    omega
  exact hn

theorem isDigit_bounds {c : Char} (h : c.isDigit = true) : 48 ≤ c.toNat ∧ c.toNat ≤ 57 := by
  rw [Char.isDigit, Bool.and_eq_true, decide_eq_true_iff, decide_eq_true_iff] at h
  exact h

/-! ## digits -/

theorem digitValue?_of_isDigit {c : Char} (h : c.isDigit = true) :
    digitValue? c = some (c.toNat - '0'.toNat) := by
  obtain ⟨h1, h2⟩ := isDigit_bounds h
  have inside : (decide (48 ≤ c.toNat) && decide (c.toNat ≤ 57)) = true := by
    rw [decide_eq_true h1, decide_eq_true h2]
    rfl
  rw [digitValue?, if_pos (show c.toNat < 128 by omega), if_pos inside]
  rfl

theorem isDigit_of_isDigit {c : Char} (h : c.isDigit = true) : isDigit c = true := by
  rw [isDigit, digitValue?_of_isDigit h]
  rfl

theorem digitsValue_eq_ofDigitChars {ds : List Char} (h : ∀ c ∈ ds, c.isDigit = true) :
    digitsValue ds = Nat.ofDigitChars 10 ds 0 := by
  induction ds using List.reverseRecOn with
  | nil => rfl
  | append_singleton ds c ih =>
    have digit := digitValue?_of_isDigit (h c (List.mem_append_right _ (List.mem_singleton_self c)))
    rw [digitsValue_append_singleton ds c _ digit, ih fun d hd => h d (List.mem_append_left _ hd),
      Nat.ofDigitChars_append]
    rfl

theorem isDigit_toDigits {n : Nat} : ∀ c ∈ Nat.toDigits 10 n, c.isDigit = true :=
  fun _ hc => Nat.isDigit_of_mem_toDigits (by decide) (by decide) hc

theorem isDigit_of_mem_toDigits {n : Nat} : ∀ c ∈ Nat.toDigits 10 n, isDigit c = true :=
  fun c hc => isDigit_of_isDigit (isDigit_toDigits c hc)

theorem digitsValue_toDigits (n : Nat) : digitsValue (Nat.toDigits 10 n) = n := by
  rw [digitsValue_eq_ofDigitChars isDigit_toDigits, Nat.ofDigitChars_toDigits (by decide) (by decide)]

/-! ## integers -/

theorem digitRunFrom?_digits {ds : List Char} (h : ∀ c ∈ ds, c.isDigit = true) (total : Nat) :
    digitRunFrom? total false ds = some (Nat.ofDigitChars 10 ds total) := by
  induction ds generalizing total with
  | nil => rfl
  | cons c ds ih =>
    rw [digitRunFrom?, digitValue?_of_isDigit (h c List.mem_cons_self)]
    exact ih (fun d hd => h d (List.mem_cons_of_mem _ hd)) _

/-- Between digits that are written there are no underscores. -/
theorem digitRun?_toDigits (n : Nat) : digitRun? (Nat.toDigits 10 n) = some n := by
  have digits := isDigit_toDigits (n := n)
  have value : Nat.ofDigitChars 10 (Nat.toDigits 10 n) 0 = n :=
    Nat.ofDigitChars_toDigits (by decide) (by decide)
  cases hds : Nat.toDigits 10 n with
  | nil => exact absurd hds Nat.toDigits_ne_nil
  | cons c ds =>
    rw [hds] at digits value
    rw [digitRun?, digitRunFrom?, digitValue?_of_isDigit (digits c List.mem_cons_self)]
    show digitRunFrom? (10 * 0 + _) false ds = some n
    rw [digitRunFrom?_digits fun d hd => digits d (List.mem_cons_of_mem _ hd)]
    exact congrArg some value

theorem trimPadding_eq_self {cs : List Char} (h : ∀ c ∈ cs, isPadding c = false) : trimPadding cs = cs := by
  have stays : ∀ ds : List Char, (∀ c ∈ ds, isPadding c = false) → ds.dropWhile isPadding = ds := by
    intro ds hds
    cases ds with
    | nil => rfl
    | cons c ds => rw [List.dropWhile_cons, hds c List.mem_cons_self, if_neg Bool.false_ne_true]
  rw [trimPadding, stays cs h, stays cs.reverse fun c hc => h c (List.mem_reverse.mp hc),
    List.reverse_reverse]

theorem isPadding_of_visible {c : Char} (h : 33 ≤ c.toNat) (h' : c.toNat < 127) : isPadding c = false := by
  rw [isPadding, isBlank_of_visible h h', Bool.false_and]

theorem mem_intText {i : Int} {c : Char} (h : c ∈ Number.intText i) : c = '-' ∨ c.isDigit = true := by
  unfold Number.intText at h
  split at h
  · rcases List.mem_cons.mp h with h | h
    · exact .inl h
    · exact .inr (isDigit_toDigits c h)
  · exact .inr (isDigit_toDigits c h)

theorem integer?_intText (i : Int) : integer? (Number.intText i) = some i := by
  have plain : trimPadding (Number.intText i) = Number.intText i := by
    refine trimPadding_eq_self fun c hc => ?_
    rcases mem_intText hc with rfl | hd
    · decide
    · have := isDigit_bounds hd
      exact isPadding_of_visible (by omega) (by omega)
  unfold integer?
  rw [plain, Number.intText]
  have run := digitRun?_toDigits i.natAbs
  by_cases hi : i < 0
  · rw [if_pos hi]
    show (digitRun? (Nat.toDigits 10 i.natAbs)).map (fun n => -(n : Int)) = some i
    rw [run]
    exact congrArg some (show -(i.natAbs : Int) = i by omega)
  · rw [if_neg hi]
    have digits := isDigit_toDigits (n := i.natAbs)
    -- a digit is no sign
    cases hds : Nat.toDigits 10 i.natAbs with
    | nil => exact absurd hds Nat.toDigits_ne_nil
    | cons c ds =>
      rw [hds] at digits run
      have hc := digits c List.mem_cons_self
      split
      · next he => cases he; cases hc
      · next he => cases he; cases hc
      · rw [run]
        exact congrArg some (show (i.natAbs : Int) = i by omega)

end Text

theorem Number.ofDigits_intText (i : Int) : ofDigits (intText i) = .int i := by
  rw [ofDigits, Text.integer?_intText]

end EventRouting
