import Mathlib.Data.List.Forall2
import EventRouting.Proofs.Path.Reference
import EventRouting.Proofs.Template.Validity

/-!
# Texts with references

A text is filled in one pass from left to right: what a reference leads to is put in its place as it is, braces
and all.  A name between braces leads where the same name leads as the path of a directive.

* `Template.Renders`      what a value is as a text
* `Template.Slot`         a reference in writing, blanks around its name
* `Template.Writing`      a text with references, and characters without opening braces between them
* `Template.reference?_written`, `Template.pieces_literal`   what is found at the front of a text
* `Template.transform_interpolation`   what a text comes to
-/

namespace EventRouting.Template

/-! ## values as texts -/

/-- What a value is as a text: nothing if it is missing or null, the characters of a text themselves, and
otherwise its document without spaces. -/
inductive Renders : Option Json → List Char → Prop where
  | missing : Renders none []
  | null : Renders (some .null) []
  | yes : Renders (some (.bool true)) "true".toList
  | no : Renders (some (.bool false)) "false".toList
  | number (n : Number) : Renders (some (.num n)) n.text
  | text (s : String) : Renders (some (.str s)) s.toList
  | list (vs : List Json) : Renders (some (.arr vs)) (Json.write Json.compactAscii (.arr vs)).toList
  | object (ms : Members Json) : Renders (some (.obj ms)) (Json.write Json.compactAscii (.obj ms)).toList

theorem renders_iff (v : Option Json) (cs : List Char) : Renders v cs ↔ cs = render v := by
  constructor
  · intro h
    cases h with
    | list | object => exact String.toList_ofList
    | missing | null | yes | no | number | text => rfl
  · rintro rfl
    match v with
    | none => exact .missing
    | some .null => exact .null
    | some (.bool true) => exact .yes
    | some (.bool false) => exact .no
    | some (.num n) => exact .number n
    | some (.str s) => exact .text s
    | some (.arr vs) =>
      have h := Renders.list vs
      rwa [Json.write, String.toList_ofList] at h
    | some (.obj ms) =>
      have h := Renders.object ms
      rwa [Json.write, String.toList_ofList] at h

/-! ## texts in writing -/

/-- A reference in writing: a name without blanks and braces, and the blanks around it. -/
structure Slot where
  before : List Char
  name : List Char
  after : List Char
  nonempty : name ≠ []
  plain : ∀ c ∈ name, c ≠ '\x7b' ∧ c ≠ '\x7d' ∧ Text.isBlank c = false
  blank : ∀ c ∈ before ++ after, Text.isBlank c = true

def withoutRoot : List Char → List Char
  | '$' :: rest => rest
  | name => name

namespace Slot

def written (s : Slot) : List Char :=
  '\x7b' :: '\x7b' :: (s.before ++ (s.name ++ (s.after ++ ['\x7d', '\x7d'])))

def path (s : Slot) : Path := Path.split (String.ofList (withoutRoot s.name))

end Slot

/-- A text with references, and characters that are no opening braces in front of the first one and behind each. -/
structure Writing where
  first : List Char
  slots : List (Slot × List Char)
  literal : ∀ chunk ∈ first :: slots.map Prod.snd, '\x7b' ∉ chunk

namespace Writing

def text (w : Writing) : String :=
  String.ofList (w.first ++ w.slots.flatMap fun part => part.1.written ++ part.2)

/-- The text with values in the place of the references. -/
def filled (w : Writing) (values : List (List Char)) : String :=
  String.ofList (w.first ++ (List.zipWith (fun part value => value ++ part.2) w.slots values).flatten)

end Writing

/-! ## one pass -/

theorem referencePath_eq (name : List Char) : referencePath name = Path.splitChars (withoutRoot name) := by
  unfold referencePath
  split
  · rfl
  · next other =>
    rw [withoutRoot]
    exact other

theorem Slot.path_eq (s : Slot) : s.path = referencePath s.name := by
  rw [Slot.path, Path.split, String.toList_ofList, referencePath_eq]

/-- The name is found between the blanks, and the text goes on behind the braces. -/
theorem reference?_written (s : Slot) (rest : List Char) :
    reference? (s.before ++ (s.name ++ (s.after ++ '\x7d' :: '\x7d' :: rest))) = some (s.name, rest) := by
  obtain ⟨before, name, after, nonempty, plain, blank⟩ := s
  obtain ⟨blank_before, blank_after⟩ := List.forall_mem_append.mp blank
  have named : ∀ c ∈ name, isReferenceChar c = true := by
    intro c hc
    obtain ⟨opening, closing, visible⟩ := plain c hc
    simp [isReferenceChar, opening, closing, visible]
  have name_stops : ∀ c ds, name ++ (after ++ '\x7d' :: '\x7d' :: rest) = c :: ds → Text.isBlank c = false := by
    intro c ds he
    obtain ⟨d, more, rfl⟩ := List.exists_cons_of_ne_nil nonempty
    cases he
    exact (plain c List.mem_cons_self).2.2
  have after_stops : ∀ c ds, after ++ '\x7d' :: '\x7d' :: rest = c :: ds → isReferenceChar c = false := by
    intro c ds he
    cases after with
    | nil =>
      cases he
      rfl
    | cons d more =>
      cases he
      simp [isReferenceChar, blank_after c List.mem_cons_self]
  have brace_stops : ∀ c ds, '\x7d' :: '\x7d' :: rest = c :: ds → Text.isBlank c = false := by
    rintro _ _ ⟨⟩
    decide
  unfold reference?
  dsimp only
  rw [(Path.takeWhile_stop blank_before name_stops).2, (Path.takeWhile_stop named after_stops).1,
    (Path.takeWhile_stop named after_stops).2, (Path.takeWhile_stop blank_after brace_stops).2]
  exact if_neg (by simpa using nonempty)

theorem pieces_literal {cs : List Char} (h : '\x7b' ∉ cs) (rest : List Char) :
    pieces (cs ++ rest) = cs.map (fun c => .text [c]) ++ pieces rest := by
  induction cs with
  | nil => rfl
  | cons c cs ih =>
    have hc : c ≠ '\x7b' := fun he => h (he ▸ List.mem_cons_self)
    have more := ih fun hm => h (List.mem_cons_of_mem c hm)
    rw [List.cons_append, pieces, more]
    · rfl
    · exact fun _ he _ => hc he

theorem pieces_slot (s : Slot) (rest : List Char) :
    pieces (s.written ++ rest) = .reference s.path :: pieces rest := by
  have found := reference?_written s rest
  have whole : s.written ++ rest = '\x7b' :: '\x7b' ::
      (s.before ++ (s.name ++ (s.after ++ '\x7d' :: '\x7d' :: rest))) := by
    simp [Slot.written]
  rw [whole, pieces]
  split
  · next h =>
    rw [found] at h
    cases h
    rw [s.path_eq]
  · next h =>
    rw [found] at h
    cases h

theorem interpolate_literal (root : Json) {cs : List Char} (h : '\x7b' ∉ cs) (rest : List Char) :
    interpolate root (pieces (cs ++ rest)) = cs ++ interpolate root (pieces rest) := by
  rw [pieces_literal h, interpolate, List.flatMap_append, List.flatMap_map]
  congr 1
  exact List.flatMap_singleton' cs

theorem interpolate_slot (root : Json) (s : Slot) (rest : List Char) :
    interpolate root (pieces (s.written ++ rest)) =
      render (root.lookup s.path) ++ interpolate root (pieces rest) := by
  rw [pieces_slot, interpolate, List.flatMap_cons]
  rfl

/-- Every reference has its value in its place, and nothing of a value is read again. -/
theorem interpolate_slots (root : Json) (slots : List (Slot × List Char))
    (h : ∀ chunk ∈ slots.map Prod.snd, '\x7b' ∉ chunk) :
    interpolate root (pieces (slots.flatMap fun part => part.1.written ++ part.2)) =
      (List.zipWith (fun part value => value ++ part.2) slots
        (slots.map fun part => render (root.lookup part.1.path))).flatten := by
  induction slots with
  | nil =>
    rw [List.flatMap_nil, pieces]
    rfl
  | cons part slots ih =>
    obtain ⟨here, more⟩ := List.forall_mem_cons.mp h
    rw [List.flatMap_cons, List.append_assoc, interpolate_slot, interpolate_literal root here, ih more,
      List.map_cons, List.zipWith_cons_cons, List.flatten_cons, List.append_assoc]

/-! ## directives -/

theorem transform_text (text : String) (root : Json) :
    Json.transform (.obj [("@template", .str text)]) root =
      .ok (.str (String.ofList (interpolate root (pieces text.toList)))) := by
  have read : parse (.obj [("@template", .str text)]) = .ok (.text (pieces text.toList)) := by
    rw [parse, show "@template" = Directive.text.name from rfl, parseAt_directive, parseDirective]
  rw [Json.transform, read]
  rfl

theorem transform_path {text : String} {path : Path} (h : Path.ofReference? text = some path) (root : Json) :
    Json.transform (.obj [("@path", .str text)]) root = .ok ((root.lookup path).getD .null) := by
  have read : parse (.obj [("@path", .str text)]) = .ok (.path path) := by
    rw [parse, show "@path" = Directive.path.name from rfl, parseAt_directive, parseDirective_path _ h]
  rw [Json.transform, read]
  dsimp only [apply, resolve]
  cases root.lookup path <;> rfl

theorem Slot.ofReference? {s : Slot} (h : Path.isReference (String.ofList s.name) = true) :
    Path.ofReference? (String.ofList s.name) = some s.path := by
  obtain ⟨path, hp⟩ := (Path.isReference_iff _).mp h
  obtain ⟨cs, hcs, _, rfl⟩ := (Path.ofReference?_eq_some_iff _ _).mp hp
  rw [hp, s.path_eq, referencePath_eq]
  rw [String.toList_ofList] at hcs
  rw [hcs]
  rfl

theorem render_getD (v : Option Json) : render (some (v.getD .null)) = render v := by
  cases v <;> rfl

/-- **Filling a text.**  Whatever the root is, a text with references comes to its own characters with the values
of the references between them, each rendered in its place as it is.  A reference whose name is a path from the
root on renders what the directive for that path gives. -/
theorem transform_interpolation (w : Writing) (root : Json) :
    (∃ values, List.Forall₂ (fun part value => Renders (root.lookup part.1.path) value) w.slots values ∧
      Json.transform (.obj [("@template", .str w.text)]) root = .ok (.str (w.filled values))) ∧
    ∀ s : Slot, Path.isReference (String.ofList s.name) = true →
      Path.parse (.str (String.ofList s.name)) = .ok s.path ∧
      ∃ value cs, Json.transform (.obj [("@path", .str (String.ofList s.name))]) root = .ok value ∧
        Renders (some value) cs ∧ Renders (root.lookup s.path) cs ∧
        Json.transform (.obj [("@template", .str (String.ofList s.written))]) root = .ok (.str (String.ofList cs)) := by
  refine ⟨⟨w.slots.map fun part => render (root.lookup part.1.path), ?_, ?_⟩, fun s h => ?_⟩
  · rw [List.forall₂_map_right_iff, List.forall₂_same]
    exact fun part _ => (renders_iff _ _).mpr rfl
  · obtain ⟨first, more⟩ := List.forall_mem_cons.mp w.literal
    rw [transform_text, Writing.text, String.toList_ofList, interpolate_literal root first,
      interpolate_slots root w.slots more]
    rfl
  · have found := s.ofReference? h
    have alone := interpolate_slot root s []
    rw [List.append_nil, pieces] at alone
    refine ⟨(Path.parse_str_iff _ _).mpr found, _, render (root.lookup s.path), transform_path found root, ?_, ?_, ?_⟩
    · exact (renders_iff _ _).mpr (render_getD _).symm
    · exact (renders_iff _ _).mpr rfl
    · rw [transform_text, String.toList_ofList, alone]
      exact congrArg (fun cs => Except.ok (Json.str (String.ofList cs))) (List.append_nil _)

/-- Braces in a value stay what they are, and blanks around a name do not count. -/
theorem transform_interpolation_bracesInside :
    ∃ w : Writing, w.text = "<\x7b\x7b $.a\t\x7d\x7d\x7b\x7bb\x7d\x7d>" ∧
      let root : Json := .obj [("a", .str "\x7b\x7bb\x7d\x7d"), ("b", .arr [.null, .str "é"])]
      (∃ values, List.Forall₂ (fun part value => Renders (root.lookup part.1.path) value) w.slots values ∧
        Json.transform (.obj [("@template", .str w.text)]) root = .ok (.str (w.filled values))) ∧
      Json.transform (.obj [("@template", .str w.text)]) root =
        .ok (.str "<\x7b\x7bb\x7d\x7d[null,\"\\u00e9\"]>") := by
  have plain {name : List Char}
      (h : name.all (fun c => c != '\x7b' && (c != '\x7d' && !Text.isBlank c)) = true) :
      ∀ c ∈ name, c ≠ '\x7b' ∧ c ≠ '\x7d' ∧ Text.isBlank c = false := by
    intro c hc
    have allowed := List.all_eq_true.mp h c hc
    rwa [Bool.and_eq_true, Bool.and_eq_true, bne_iff_ne, bne_iff_ne, Bool.not_eq_true'] at allowed
  let rooted : Slot := ⟨[' '], ['$', '.', 'a'], ['\t'], by decide, plain rfl, List.all_eq_true.mp rfl⟩
  let bare : Slot := ⟨[], ['b'], [], by decide, plain rfl, List.all_eq_true.mp rfl⟩
  have literal : ∀ chunk ∈ [['<'], [], ['>']], '\x7b' ∉ chunk := by decide
  let w : Writing := ⟨['<'], [(rooted, []), (bare, ['>'])], literal⟩
  have written : w.text = "<\x7b\x7b $.a\t\x7d\x7d\x7b\x7bb\x7d\x7d>" := rfl
  refine ⟨w, written, (transform_interpolation w _).1, ?_⟩
  rw [written, transform_text]
  with_unfolding_all rfl

end EventRouting.Template
