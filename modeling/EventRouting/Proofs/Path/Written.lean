import EventRouting.Proofs.Path.Reference
import EventRouting.Proofs.Predicate.Lexing

/-!
# Paths as shorthand writes them

* `Path.written`         names with points before them and positions in brackets
* `Segment.Plain`        the steps whose keys are names
* `Path.spelled_written`  plain steps are written as references write them
* `Path.Writable`        the paths that are one word of shorthand and no reserved one
* `Path.split_written`   a path that is written is split into its steps again
* `Path.lexes_written`, `Path.lower_written`   it is one word, which names a field
-/

namespace EventRouting

open Token (isWordStart isWordChar)

namespace Segment

/-- A step behind the first one. -/
def written : Segment → List Char
  | .name text => '.' :: text.toList
  | .index position => '[' :: (Nat.toDigits 10 position ++ [']'])

/-- The key has characters, and only those of names. -/
def Plain (s : Segment) : Prop := s.key.toList ≠ [] ∧ ∀ c ∈ s.key.toList, Path.isNameChar c = true

def Writable : Segment → Prop
  | .name text => text.toList ≠ [] ∧ ∀ c ∈ text.toList, isWordChar c = true
  | .index _ => True

theorem key_index (n : Nat) : (index n).key.toList = Nat.toDigits 10 n := by
  rw [key, String.toList_ofList, Number.intText, if_neg (by omega), Int.natAbs_natCast]

theorem plain_index (n : Nat) : (index n).Plain := by
  rw [Plain, key_index]
  exact ⟨Nat.toDigits_ne_nil, fun c hc => Path.isNameChar_of_isDigit (Text.isDigit_of_mem_toDigits c hc)⟩

theorem Plain.spelled {s : Segment} (h : s.Plain) : s.Spelled s.written := by
  cases s with
  | name text =>
    have named := Spelled.name h.1 h.2
    rw [show (name text).key.toList = text.toList from rfl, String.ofList_toList] at named
    exact named
  | index n =>
    have spelled := Spelled.index (Nat.toDigits_ne_nil (b := 10) (n := n)) Text.isDigit_of_mem_toDigits
    rw [Text.digitsValue_toDigits] at spelled
    exact spelled

end Segment

namespace Path

def written : Path → String
  | .name first :: rest => String.ofList (first.toList ++ rest.flatMap Segment.written)
  | path => String.ofList (path.flatMap Segment.written)

/-- The first step is a name that starts as a word does.  If it is the only one, it is not reserved,
however it is capitalised. -/
def Writable : Path → Prop
  | .name first :: rest =>
    (∃ c cs, first.toList = c :: cs ∧ isWordStart c = true ∧ ∀ d ∈ cs, isWordChar d = true) ∧
      (∀ s ∈ rest, s.Writable) ∧ (rest = [] → Text.lower first ∉ Predicate.Grammar.reserved)
  | _ => False

theorem isNameChar_of_isWordChar {c : Char} (h : isWordChar c = true) : isNameChar c = true :=
  isNameChar_of_class (by decide) (by decide) (by decide) h

end Path

theorem Segment.Writable.plain {s : Segment} (h : s.Writable) : s.Plain := by
  cases s with
  | name text => exact ⟨h.1, fun c hc => Path.isNameChar_of_isWordChar (h.2 c hc)⟩
  | index n => exact Segment.plain_index n

namespace Path

/-! ## splitting -/

/-- Steps with plain keys are written as references write them. -/
theorem spelled_written {steps : List Segment} (h : ∀ s ∈ steps, s.Plain) :
    Spelled steps (steps.flatMap Segment.written) := by
  induction steps with
  | nil => exact .nil
  | cons s steps ih =>
    rw [List.flatMap_cons]
    exact .cons (h s List.mem_cons_self).spelled (ih fun t ht => h t (List.mem_cons_of_mem _ ht))

/-- **Splitting undoes writing.** -/
theorem split_written {path : Path} (h : path.Writable) : split path.written = path := by
  match path, h with
  | .name first :: rest, ⟨⟨c, cs, hc, start, word⟩, steps, _⟩ =>
    have names : ∀ d ∈ c :: cs, isNameChar d = true := by
      intro d hd
      rcases List.mem_cons.mp hd with rfl | hd
      · exact isNameChar_of_isWordChar (Token.isWordChar_of_isWordStart start)
      · exact isNameChar_of_isWordChar (word d hd)
    have behind := spelled_written fun s hs => (steps s hs).plain
    rw [split, written, String.toList_ofList, hc, List.cons_append, splitChars_name names behind.starts,
      behind.read.1, ← hc, String.ofList_toList]

/-! ## one word -/

theorem tail_written {steps : List Segment} (h : ∀ s ∈ steps, s.Writable) :
    Token.Tail (steps.flatMap Segment.written) := by
  induction steps with
  | nil => exact .nil
  | cons s steps ih =>
    have hs := h s List.mem_cons_self
    have more := ih fun t ht => h t (List.mem_cons_of_mem _ ht)
    rw [List.flatMap_cons]
    cases s with
    | name text => exact .name hs.1 hs.2 more
    | index n =>
      rw [Segment.written, List.cons_append, List.append_assoc, List.singleton_append]
      exact .index ⟨Nat.toDigits_ne_nil, Text.isDigit_of_mem_toDigits⟩ more

/-- **A path is one word.** -/
theorem lexes_written {path : Path} (h : path.Writable) : Token.Lexes .word path.written.toList := by
  match path, h with
  | .name first :: rest, ⟨⟨c, cs, hc, start, word⟩, steps, _⟩ =>
    rw [written, String.toList_ofList, hc, List.cons_append]
    exact Token.lexes_word start word (tail_written steps)

/-! ## small letters -/

theorem mem_lowerFrom {c : Char} (small : Text.lowerChar c = [c]) (sigma : c.toNat ≠ 931) {cs : List Char}
    (h : c ∈ cs) (passed : List Char) : c ∈ Text.lowerFrom passed cs := by
  induction cs generalizing passed with
  | nil => cases h
  | cons d cs ih =>
    rw [Text.lowerFrom]
    rcases List.mem_cons.mp h with rfl | h
    · rw [if_neg sigma, small]
      exact List.mem_append_left _ List.mem_cons_self
    · exact List.mem_append_right _ (ih h _)

/-- No reserved word has a point or a bracket in it. -/
theorem not_reserved {text : String} {c : Char} (hc : c = '.' ∨ c = '[') (h : c ∈ text.toList) :
    Text.lower text ∉ Predicate.Grammar.reserved := by
  have free : ∀ w ∈ Predicate.Grammar.reserved, '.' ∉ w.toList ∧ '[' ∉ w.toList := by decide
  have found : c ∈ (Text.lower text).toList := by
    rw [Text.lower, String.toList_ofList]
    rcases hc with rfl | rfl <;> exact mem_lowerFrom (by decide) (by decide) h []
  intro hm
  rcases hc with rfl | rfl
  · exact (free _ hm).1 found
  · exact (free _ hm).2 found

/-- **A path names a field.** -/
theorem lower_written {path : Path} (h : path.Writable) :
    Text.lower path.written ∉ Predicate.Grammar.reserved := by
  match path, h with
  | [.name first], ⟨_, _, free⟩ =>
    rw [written, List.flatMap_nil, List.append_nil, String.ofList_toList]
    exact free rfl
  | .name first :: s :: rest, _ =>
    have sign : ∃ c, (c = '.' ∨ c = '[') ∧ c ∈ s.written := by
      cases s with
      | name text => exact ⟨'.', .inl rfl, List.mem_cons_self⟩
      | index n => exact ⟨'[', .inr rfl, List.mem_cons_self⟩
    obtain ⟨c, hc, hm⟩ := sign
    refine not_reserved hc ?_
    rw [written, String.toList_ofList, List.flatMap_cons]
    exact List.mem_append_right _ (List.mem_append_left _ hm)

end Path

end EventRouting
