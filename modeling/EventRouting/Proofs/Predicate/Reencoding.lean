import EventRouting.Proofs.Path.Dotted
import EventRouting.Proofs.Predicate.Clash
import EventRouting.Proofs.Predicate.Reading

/-!
# Predicates that are encoded and decoded

An encoded predicate tells its fields by dotted names, in which a position is no more than its digits.  It is
decoded to a predicate that means the same.

* `Predicate.named`           a predicate with names in the place of positions
* `Predicate.holds_named`     it means the same
* `Predicate.WellFormed`      groups have parts, and the keys of fields are names
* `Predicate.wellFormed_of_parse`   what is read is well-formed
* `Predicate.WellFormed.decodeAt`   encoding a well-formed predicate and decoding it names its positions
-/

namespace EventRouting.Predicate

open Shorthand (join)

/-! ## positions as names -/

mutual

/-- The predicate with names in the place of positions. -/
def named : Predicate → Predicate
  | all => all
  | field path test => field (path.map Segment.named) test
  | group c parts => group c (namedAll parts)
  | not part => not (named part)

def namedAll : List Predicate → List Predicate
  | [] => []
  | p :: rest => named p :: namedAll rest

end

theorem namedAll_eq (parts : List Predicate) : namedAll parts = parts.map named := by
  induction parts with
  | nil => rfl
  | cons p rest ih => rw [namedAll, ih, List.map_cons]

theorem encodeAll_eq (parts : List Predicate) : encodeAll parts = parts.map encode := by
  induction parts with
  | nil => rfl
  | cons p rest ih => rw [encodeAll, ih, List.map_cons]

theorem holds_named (event : Json) (p : Predicate) : p.named.holds event = p.holds event := by
  induction p using induct with
  | all => rfl
  | field path test => exact congrArg test.holds (event.lookup_named path)
  | group c parts ih =>
    have same : (namedAll parts).map (holds event) = parts.map (holds event) := by
      rw [namedAll_eq, List.map_map]
      exact List.map_congr_left ih
    rw [named, holds_group, holds_group, same]
  | not part ih => exact congrArg (! ·) ih

theorem encode_named (p : Predicate) : p.named.encode = p.encode := by
  induction p using induct with
  | all => rfl
  | field path test => cases test <;> simp only [named, encode, encodeTest, Path.dotted_named]
  | group c parts ih =>
    have same : encodeAll (namedAll parts) = encodeAll parts := by
      rw [encodeAll_eq, encodeAll_eq, namedAll_eq, List.map_map]
      exact List.map_congr_left ih
    rw [named, encode, encode, same]
  | not part ih => rw [named, encode, encode, ih]

theorem paths_named (p : Predicate) : p.named.paths = p.paths.map (List.map Segment.named) := by
  induction p using induct with
  | all => rfl
  | field path test => rfl
  | group c parts ih =>
    show pathsAll (namedAll parts) = (pathsAll parts).map _
    rw [pathsAll_eq, pathsAll_eq, namedAll_eq, List.flatMap_map, List.map_flatMap]
    exact List.flatMap_congr ih
  | not part ih => exact ih

/-! ## what is read -/

/-- Groups have parts, and the keys of fields are names. -/
inductive WellFormed : Predicate → Prop where
  | all : WellFormed .all
  | field {path : Path} {test : Test} (plain : ∀ s ∈ path, s.Plain) : WellFormed (.field path test)
  | group {c : Connective} {parts : List Predicate} (nonempty : parts ≠ []) (h : ∀ p ∈ parts, WellFormed p) :
      WellFormed (.group c parts)
  | not {part : Predicate} (h : WellFormed part) : WellFormed (.not part)

theorem WellFormed.join {c : Connective} {ps : List Predicate} (nonempty : ps ≠ []) (h : ∀ p ∈ ps, WellFormed p) :
    WellFormed (Shorthand.join c ps) := by
  match ps, nonempty, h with
  | [p], _, h => exact h p (List.mem_singleton_self p)
  | _ :: _ :: _, nonempty, h => exact .group nonempty h

namespace Grammar

theorem Field.plain {t : Token} {path : Path} (h : Field t path) : ∀ s ∈ path, s.Plain := by
  cases h with
  | mk => exact Path.split_plain t.text

mutual

theorem Expr.wellFormed {ts : List Token} {p : Predicate} : Expr ts p → WellFormed p
  | .mk h => .join h.wellFormed.1 h.wellFormed.2

theorem OrChain.wellFormed {ts : List Token} {ps : List Predicate} :
    OrChain ts ps → ps ≠ [] ∧ ∀ p ∈ ps, WellFormed p
  | .one h => ⟨List.cons_ne_nil _ _, List.forall_mem_singleton.mpr h.wellFormed⟩
  | .more h _ rest => ⟨List.cons_ne_nil _ _, List.forall_mem_cons.mpr ⟨h.wellFormed, rest.wellFormed.2⟩⟩

theorem AndExpr.wellFormed {ts : List Token} {p : Predicate} : AndExpr ts p → WellFormed p
  | .mk h => .join h.wellFormed.1 h.wellFormed.2

theorem AndChain.wellFormed {ts : List Token} {ps : List Predicate} :
    AndChain ts ps → ps ≠ [] ∧ ∀ p ∈ ps, WellFormed p
  | .one h => ⟨List.cons_ne_nil _ _, List.forall_mem_singleton.mpr h.wellFormed⟩
  | .more h _ rest => ⟨List.cons_ne_nil _ _, List.forall_mem_cons.mpr ⟨h.wellFormed, rest.wellFormed.2⟩⟩

theorem Unary.wellFormed {ts : List Token} {p : Predicate} : Unary ts p → WellFormed p
  | .not _ h => .not h.wellFormed
  | .parens _ h _ => h.wellFormed
  | .compare f _ _ => .field f.plain
  | .ask f _ => .field f.plain

end

theorem Derives.wellFormed {ts : List Token} {p : Predicate} (h : Derives ts p) : WellFormed p := by
  cases h with
  | all => exact .all
  | expr h => exact h.wellFormed

end Grammar

theorem known_plain {word : String} {path : Path} (known : (word, path) ∈ fixedFields ++ scopes) :
    ∀ s ∈ path, s.Plain := by
  have each : ∀ entry ∈ fixedFields ++ scopes, ∀ s ∈ entry.2,
      s.key.toList ≠ [] ∧ s.key.toList.all Path.isNameChar = true := by
    decide
  exact fun s hs => (each _ known s hs).imp_right List.all_eq_true.mp

theorem AsksField.plain {members : Members Json} {path : Path} (h : AsksField members path) :
    ∀ s ∈ path, s.Plain := by
  cases h with
  | fixed type known => exact known_plain (List.mem_append_left _ known)
  | named type known given nonempty =>
    exact List.forall_mem_append.mpr ⟨known_plain (List.mem_append_right _ known), Path.split_plain _⟩

theorem length_decodeParts {location : String} {i : Nat} {parts : List Json} {ps : List Predicate}
    (h : decodeParts location i parts = .ok ps) : ps.length = parts.length := by
  induction parts generalizing i ps with
  | nil =>
    cases (decodeParts_itemwise.nil (location, i)).symm.trans h
    rfl
  | cons v parts ih =>
    obtain ⟨p, _, h⟩ := exists_of_bind_eq_ok ((decodeParts_itemwise.cons (location, i) v parts).symm.trans h)
    obtain ⟨rest, hrest, h⟩ := exists_of_bind_eq_ok h
    cases h
    exact congrArg (· + 1) (ih hrest)

theorem mem_of_decodeParts {location : String} {i : Nat} {parts : List Json} {ps : List Predicate}
    (h : decodeParts location i parts = .ok ps) :
    ∀ p ∈ ps, ∃ v ∈ parts, ∃ place, decodeAt place v = .ok p := by
  induction parts generalizing i ps with
  | nil =>
    cases (decodeParts_itemwise.nil (location, i)).symm.trans h
    exact fun _ hp => absurd hp List.not_mem_nil
  | cons v parts ih =>
    obtain ⟨p, hp, h⟩ := exists_of_bind_eq_ok ((decodeParts_itemwise.cons (location, i) v parts).symm.trans h)
    obtain ⟨rest, hrest, h⟩ := exists_of_bind_eq_ok h
    cases h
    refine List.forall_mem_cons.mpr ⟨⟨v, List.mem_cons_self, _, hp⟩, fun q hq => ?_⟩
    obtain ⟨w, hw, place, hd⟩ := ih hrest q hq
    exact ⟨w, List.mem_cons_of_mem _ hw, place, hd⟩

theorem wellFormed_of_decodeAt {location : String} {node : Json} {p : Predicate}
    (h : decodeAt location node = .ok p) : WellFormed p := by
  match node with
  | .obj members =>
    rw [decodeAt_obj] at h
    obtain ⟨f, hf, h⟩ := exists_of_bind_eq_ok h
    cases (form_closed location).good_of_ok hf with
    | all type =>
      cases h
      exact .all
    | field hp ht =>
      cases h
      exact .field hp.plain
    | @group c parts hg =>
      obtain ⟨ps, hps, h⟩ := exists_of_bind_eq_ok h
      cases h
      have nonempty : ps ≠ [] := by
        rintro rfl
        exact hg.nonempty (List.eq_nil_of_length_eq_zero (length_decodeParts hps).symm)
      refine .group nonempty fun q hq => ?_
      obtain ⟨v, hv, place, hd⟩ := mem_of_decodeParts hps q hq
      exact wellFormed_of_decodeAt hd
    | @not part hn =>
      obtain ⟨q, hq, h⟩ := exists_of_bind_eq_ok h
      cases h
      exact .not (wellFormed_of_decodeAt hq)
  | .null | .bool _ | .num _ | .str _ | .arr _ =>
    rw [decodeAt] at h
    · cases h
    · exact fun _ => Json.noConfusion
termination_by sizeOf node
decreasing_by
  · have hparts := hg.sizeOf
    have hv := List.sizeOf_lt_of_mem hv
    simp only [Json.obj.sizeOf_spec]
    omega
  · have hpart := hn.sizeOf
    simp only [Json.obj.sizeOf_spec]
    omega

theorem wellFormed_of_parse {v : Json} {p : Predicate} (h : parse v = .ok p) : WellFormed p := by
  cases v with
  | str source =>
    cases scanned : Token.scan source with
    | ok tokens => exact ((parseText_ok_iff scanned p).mp h).wellFormed
    | error u =>
      rw [parse, parseText, ofText, scanned] at h
      cases h
  | obj members => exact wellFormed_of_decodeAt h
  | null | bool | num | arr => cases h

/-! ## encoding and decoding -/

theorem decodeAt_encodeTest (location : String) {path : Path} (nonempty : path ≠ [])
    (plain : ∀ s ∈ path, s.Plain) (test : Test) :
    decodeAt location (encodeTest path test) = .ok (.field (path.map Segment.named) test) := by
  have asks : ∀ {members : Members Json}, members.get? "type" = some (.str "field") →
      members.get? "name" = some (.str path.dotted) → AsksField members (path.map Segment.named) := by
    intro members type name
    have known : ("field", []) ∈ scopes := by decide
    rw [← Path.split_dotted plain]
    exact .named type known name (Path.dotted_ne_empty nonempty plain)
  cases test with
  | present =>
    rw [encodeTest, decodeAt_obj, (Stands.field (asks rfl rfl) (.present rfl)).form]
    rfl
  | absent =>
    rw [encodeTest, decodeAt_obj, (Stands.field (asks rfl rfl) (.absent rfl)).form]
    rfl
  | compare relation value =>
    have test : AsksTest [("type", .str "field"), ("name", .str path.dotted),
        ("operator", .str relation.sign), ("value", value)] (.compare relation value) :=
      .compare rfl (Relation.ofSign?_sign relation) rfl
    rw [encodeTest, decodeAt_obj, (Stands.field (asks rfl rfl) test).form]
    rfl

theorem decodeParts_encodeAll {parts : List Predicate}
    (h : ∀ p ∈ parts, ∀ place, decodeAt place p.encode = .ok p.named) (location : String) (i : Nat) :
    decodeParts location i (encodeAll parts) = .ok (namedAll parts) := by
  induction parts generalizing i with
  | nil => exact decodeParts_itemwise.nil (location, i)
  | cons p rest ih =>
    have more := ih (fun q hq => h q (List.mem_cons_of_mem _ hq)) (i + 1)
    rw [encodeAll, namedAll, decodeParts, h p List.mem_cons_self, more]

theorem WellFormed.decodeAt {p : Predicate} (h : WellFormed p) (nonempty : ∀ path ∈ p.paths, path ≠ [])
    (location : String) : Predicate.decodeAt location p.encode = .ok p.named := by
  induction h generalizing location with
  | all =>
    rw [encode, decodeAt_obj, form_all location rfl]
    rfl
  | @field path test plain => exact decodeAt_encodeTest location (nonempty path List.mem_cons_self) plain test
  | @group c parts some _ ih =>
    have inside : ∀ q ∈ parts, ∀ place, Predicate.decodeAt place q.encode = .ok q.named := by
      intro q hq
      refine ih q hq fun path hpath => nonempty path ?_
      rw [paths, pathsAll_eq]
      exact List.mem_flatMap.mpr ⟨q, hq, hpath⟩
    have groups : Groups [("type", .str "group"), ("operator", .str c.word), ("children", .arr (encodeAll parts))]
        c (encodeAll parts) := by
      have small : Text.lower c.word = c.word := by cases c <;> decide +kernel
      refine ⟨rfl, ?_, rfl, ?_⟩
      · show Connective.ofWord? (Text.lower c.word) = Option.some c
        rw [small, Connective.ofWord?_word]
      · rw [encodeAll_eq]
        exact List.map_eq_nil_iff.not.mpr some
    rw [encode, groups.decodeAt, decodeParts_encodeAll inside]
    rfl
  | @not part _ ih =>
    have negates : Negates [("type", .str "not"), ("children", .arr [part.encode])] part.encode :=
      ⟨rfl, .inr ⟨rfl, rfl⟩⟩
    rw [encode, negates.decodeAt, ih nonempty]
    rfl

/-- **Encoding keeps the meaning.**  A predicate that was read and asks about no empty path is encoded to an
object which is decoded: to a predicate that gives every event the same answer and has the same encoding, with
the keys of steps in the place of positions. -/
theorem decode_encode {v : Json} {p : Predicate} (read : parse v = .ok p)
    (nonempty : ∀ path ∈ p.paths, path ≠ []) :
    ∃ q, decode p.encode = .ok q ∧
      (∀ members, q.accepts (.obj members) = p.accepts (.obj members)) ∧ q.encode = p.encode ∧
      q.paths = p.paths.map (List.map fun s => .name s.key) := by
  refine ⟨p.named, (wellFormed_of_parse read).decodeAt nonempty "$", fun members => ?_, encode_named p,
    paths_named p⟩
  rw [accepts_obj, accepts_obj, holds_named]

/-- Leading zeros are lost, and the digits of other scripts become plain ones. -/
theorem decode_encode_positions :
    ∃ p, parse (.str "not items[007].tags[٣] exists") = .ok p ∧
      p.paths = [[.name "items", .index 7, .name "tags", .index 3]] ∧
      ∃ q, decode p.encode = .ok q ∧
        (∀ members, q.accepts (.obj members) = p.accepts (.obj members)) ∧ q.encode = p.encode ∧
        q.paths = p.paths.map (List.map fun s => .name s.key) := by
  have scanned : Token.scan "not items[007].tags[٣] exists" =
      .ok [⟨.word, "not", 0⟩, ⟨.word, "items[007].tags[٣]", 4⟩, ⟨.word, "exists", 23⟩] := by
    with_unfolding_all rfl
  have steps : Path.split "items[007].tags[٣]" = [.name "items", .index 7, .name "tags", .index 3] := by with_unfolding_all rfl
  have negated : Grammar.Spells ⟨.word, "not", 0⟩ "not" := ⟨rfl, by with_unfolding_all rfl⟩
  have field : Grammar.Field ⟨.word, "items[007].tags[٣]", 4⟩ _ :=
    .mk rfl (Path.not_reserved (c := '[') (.inr rfl) (by decide))
  rw [steps] at field
  have small : Text.lower "exists" = "exists" := by with_unfolding_all rfl
  have question : Grammar.Question ⟨.word, "exists", 23⟩ .present := .mk rfl (small ▸ List.mem_cons_self)
  have read : parse (.str "not items[007].tags[٣] exists") = .ok (.not (.field _ .present)) :=
    (parseText_ok_iff scanned _).mpr (.expr (.mk (.one (.mk (.one (.not negated (.ask field question)))))))
  exact ⟨_, read, rfl, decode_encode read (by decide)⟩

end EventRouting.Predicate
