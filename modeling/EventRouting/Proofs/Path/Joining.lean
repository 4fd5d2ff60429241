import EventRouting.Proofs.Json.Place
import EventRouting.Proofs.Path.Reference

/-!
# Paths that are joined

A point between two texts divides their steps, whatever the texts are: brackets that nothing closes and points
in a row are skipped on both sides alike.  A path in two parts is looked up one part after the other.

* `Path.split_append`          the steps of two texts with a point between them
* `Path.split_eq_nil_iff`      the texts that have no steps
* `Json.IsStep`                the values that are steps, texts and integers
* `Json.lookupBy_append`       looking up the second part where the first one leads
* `Json.lookupBy_of_isStep`    steps lead to a value or to none, without a fault
-/

namespace EventRouting

namespace Path

/-! ## splitting -/

theorem takeWhile_append_stop {p : Char → Bool} {d : Char} (hd : p d = false) (cs ds : List Char) :
    (cs ++ d :: ds).takeWhile p = cs.takeWhile p ∧ (cs ++ d :: ds).dropWhile p = cs.dropWhile p ++ d :: ds := by
  induction cs with
  | nil => simp [hd]
  | cons c cs ih =>
    cases hc : p c with
    | true => simp [hc, ih]
    | false => simp [hc]

/-- A bracket that is not closed in front of a point is not closed by what comes behind the point. -/
theorem bracketed?_append_point {cs : List Char} (h : bracketed? cs = none) (ds : List Char) :
    bracketed? (cs ++ '.' :: ds) = none := by
  obtain ⟨front, left⟩ := takeWhile_append_stop (p := Text.isDigit) (d := '.') (by decide) cs ds
  unfold bracketed? at h ⊢
  rw [front, left]
  cases hl : cs.dropWhile Text.isDigit with
  | nil =>
    split
    · next he => cases he
    · rfl
  | cons c left =>
    rw [hl] at h
    split
    · next hd he =>
      cases he
      rw [hd] at h
      cases h
    · rfl

theorem splitChars_append (cs ds : List Char) :
    splitChars (cs ++ '.' :: ds) = splitChars cs ++ splitChars ds := by
  fun_induction splitChars cs with
  | case1 => exact splitChars_point ds
  | case2 rest digits left h ih =>
    obtain ⟨⟨some_digit, all_digits⟩, rfl⟩ := bracketed?_iff.mp h
    rw [List.cons_append, List.append_assoc, List.cons_append, splitChars_index some_digit all_digits, ih,
      List.cons_append]
  | case3 rest h ih =>
    rw [List.cons_append, ← ih, splitChars]
    split
    · next hb =>
      rw [bracketed?_append_point h] at hb
      cases hb
    · rfl
  | case4 c rest bracket hc ih =>
    obtain ⟨front, left⟩ := takeWhile_append_stop (p := isNameChar) (d := '.') (by decide) rest ds
    rw [List.cons_append, splitChars, if_pos hc, front, left, ih, List.cons_append]
    exact bracket
  | case5 c rest bracket hc ih =>
    rw [List.cons_append, splitChars, if_neg hc, ih]
    exact bracket

/-- **A point divides.**  The steps of two texts with a point between them are those of the first one followed
by those of the second one. -/
theorem split_append (a b : String) : split (a ++ "." ++ b) = split a ++ split b := by
  rw [split, String.toList_append, String.toList_append, List.append_assoc]
  exact splitChars_append a.toList b.toList

theorem splitChars_eq_nil_iff (cs : List Char) : splitChars cs = [] ↔ ∀ c ∈ cs, isNameChar c = false := by
  have named {c : Char} {rest : List Char} (hc : isNameChar c = true) :
      ¬ ∀ d ∈ c :: rest, isNameChar d = false := by
    intro h
    rw [h c List.mem_cons_self] at hc
    cases hc
  fun_induction splitChars cs with
  | case1 => simp
  | case2 rest digits left h ih =>
    obtain ⟨⟨some_digit, all_digits⟩, rfl⟩ := bracketed?_iff.mp h
    obtain ⟨d, more, rfl⟩ := List.exists_cons_of_ne_nil some_digit
    refine iff_of_false (List.cons_ne_nil _ _) fun hall => ?_
    exact named (isNameChar_of_isDigit (all_digits d List.mem_cons_self)) (List.forall_mem_cons.mp hall).2
  | case3 rest h ih =>
    rw [List.forall_mem_cons, and_iff_right (show isNameChar '[' = false from rfl)]
    exact ih
  | case4 c rest _ hc ih => exact iff_of_false (List.cons_ne_nil _ _) (named hc)
  | case5 c rest _ hc ih =>
    rw [List.forall_mem_cons, and_iff_right (Bool.eq_false_iff.mpr hc)]
    exact ih

/-- A text has no steps if it has no characters but points and square brackets. -/
theorem split_eq_nil_iff (text : String) : split text = [] ↔ ∀ c ∈ text.toList, c = '.' ∨ c = '[' ∨ c = ']' := by
  rw [split, splitChars_eq_nil_iff]
  refine forall₂_congr fun c _ => ?_
  rw [Bool.eq_false_iff, Ne, isNameChar_iff]
  simp only [not_and_or, not_not]

end Path

/-! ## looking up -/

namespace Json

/-- A step as paths have them: the name of a member, or a position that may count from the end. -/
def IsStep (key : Json) : Prop := (∃ text, key = .str text) ∨ ∃ position : Int, key = .num (.int position)

theorem lookupBy_append (v : Json) (p q : List Json) :
    v.lookupBy (p ++ q) = (v.lookupBy p).bind fun found =>
      match found with
      | none => .ok none
      | some w => w.lookupBy q := by
  induction p generalizing v with
  | nil => rfl
  | cons key p ih =>
    rw [List.cons_append, lookupBy, lookupBy]
    cases v.stepBy? key with
    | error e => rfl
    | ok found =>
      cases found with
      | none => rfl
      | some w => exact ih w

theorem stepBy?_of_isStep (v : Json) {key : Json} (h : key.IsStep) : ∃ found, v.stepBy? key = .ok found := by
  rcases h with ⟨text, rfl⟩ | ⟨position, rfl⟩ <;> cases v <;> exact ⟨_, rfl⟩

theorem lookupBy_of_isStep (v : Json) {p : List Json} (h : ∀ key ∈ p, key.IsStep) :
    ∃ found, v.lookupBy p = .ok found := by
  induction p generalizing v with
  | nil => exact ⟨some v, rfl⟩
  | cons key p ih =>
    obtain ⟨first, more⟩ := List.forall_mem_cons.mp h
    obtain ⟨found, hf⟩ := v.stepBy?_of_isStep first
    rw [lookupBy, hf]
    cases found with
    | none => exact ⟨none, rfl⟩
    | some w => exact ih w more

end Json

end EventRouting
