/-!
# Tables of characters

* `inRanges`   is a code point in one of the ranges of a table?
-/

namespace EventRouting.Text

/-- Is `n` in one of the closed ranges? -/
def inRanges (table : List (Nat × Nat)) (n : Nat) : Bool :=
  table.any fun r => decide (r.1 ≤ n) && decide (n ≤ r.2)

@[simp] theorem inRanges_nil (n : Nat) : inRanges [] n = false := rfl

@[simp] theorem inRanges_cons (a b : Nat) (table : List (Nat × Nat)) (n : Nat) :
    inRanges ((a, b) :: table) n = (decide (a ≤ n) && decide (n ≤ b) || inRanges table n) := rfl

end EventRouting.Text
