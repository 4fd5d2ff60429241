import EventRouting.Path.Lookup
import EventRouting.Proofs.Path.Written
import Mathlib.Data.List.TakeWhile

/-!
# Paths as one name

The keys of a path with points between them are a name again, in which a position is no more than its
digits.

* `Segment.named`       a step as a name
* `Path.split_plain`    splitting comes to plain steps
* `Path.split_dotted`   a dotted name is split into the steps as names
* `Json.lookup_named`   names lead where positions lead
-/

namespace EventRouting

namespace Segment

def named (s : Segment) : Segment := .name s.key

theorem plain_name {c : Char} {cs : List Char} (h : ∀ d ∈ c :: cs, Path.isNameChar d = true) :
    (name (String.ofList (c :: cs))).Plain := by
  rw [Plain, key, String.toList_ofList]
  exact ⟨List.cons_ne_nil c cs, h⟩

theorem position?_named (s : Segment) : s.named.position? = s.position? := by
  cases s with
  | name text => rfl
  | index n =>
    show Text.integer? (index n).key.toList = some (n : Int)
    rw [key, String.toList_ofList, Text.integer?_intText]

end Segment

namespace Json

theorem step?_named (v : Json) (s : Segment) : v.step? s.named = v.step? s := by
  cases v with
  | arr items =>
    show s.named.position?.bind _ = s.position?.bind _
    rw [s.position?_named]
  | obj | null | bool | num | str => rfl

theorem lookup_named (v : Json) (path : Path) : v.lookup (path.map Segment.named) = v.lookup path := by
  induction path generalizing v with
  | nil => rfl
  | cons s path ih =>
    rw [List.map_cons, lookup_cons, lookup_cons, step?_named]
    exact congrArg _ (funext ih)

end Json

namespace Path

theorem splitChars_plain (cs : List Char) : ∀ s ∈ splitChars cs, s.Plain := by
  fun_induction splitChars cs with
  | case1 => exact fun _ hs => absurd hs List.not_mem_nil
  | case2 rest ds left _ ih => exact List.forall_mem_cons.mpr ⟨Segment.plain_index _, ih⟩
  | case3 _ _ ih => exact ih
  | case4 c rest _ hc ih =>
    have name : ∀ d ∈ c :: rest.takeWhile isNameChar, isNameChar d = true :=
      List.forall_mem_cons.mpr ⟨hc, fun _ => List.mem_takeWhile_imp⟩
    exact List.forall_mem_cons.mpr ⟨Segment.plain_name name, ih⟩
  | case5 _ _ _ _ ih => exact ih

theorem split_plain (text : String) : ∀ s ∈ split text, s.Plain := splitChars_plain text.toList

theorem dotted_named (path : Path) : dotted (path.map Segment.named) = dotted path := by
  rw [dotted, List.map_map]
  rfl

theorem splitChars_key {s : Segment} (h : s.Plain) {rest : List Char}
    (hr : ∀ c cs, rest = c :: cs → isNameChar c = false) :
    splitChars (s.key.toList ++ rest) = s.named :: splitChars rest := by
  obtain ⟨c, cs, hc⟩ := List.exists_cons_of_ne_nil h.1
  rw [hc, List.cons_append, splitChars_name (fun d hd => h.2 d (hc ▸ hd)) hr, ← hc, String.ofList_toList]
  rfl

/-- **Splitting undoes dotting** but for the positions, which come back as names. -/
theorem split_dotted {path : Path} (h : ∀ s ∈ path, s.Plain) : split path.dotted = path.map Segment.named := by
  rw [split, dotted, String.toList_intercalate]
  induction path with
  | nil => exact splitChars.eq_1
  | cons s path ih =>
    have hs := h s List.mem_cons_self
    have more := ih fun t ht => h t (List.mem_cons_of_mem _ ht)
    cases path with
    | nil =>
      have alone := splitChars_key hs fun c cs (he : [] = c :: cs) => absurd he.symm (List.cons_ne_nil c cs)
      rw [List.append_nil, splitChars] at alone
      simp only [List.map_cons, List.map_nil, List.intercalate_singleton]
      exact alone
    | cons t path =>
      have point : ∀ ds c cs, '.' :: ds = c :: cs → isNameChar c = false := by
        rintro _ _ _ ⟨⟩
        rfl
      simp only [List.map_cons, List.intercalate_cons_cons] at more ⊢
      rw [List.append_assoc]
      show splitChars (s.key.toList ++ '.' :: ".".toList.intercalate (t.key.toList :: _)) = _
      rw [splitChars_key hs (point _), splitChars_point, more]

theorem dotted_ne_empty {path : Path} (nonempty : path ≠ []) (h : ∀ s ∈ path, s.Plain) :
    path.dotted ≠ "" := by
  intro he
  have parts := split_dotted h
  rw [he, split, String.toList_empty, splitChars] at parts
  exact nonempty (List.map_eq_nil_iff.mp parts.symm)

end Path

end EventRouting
