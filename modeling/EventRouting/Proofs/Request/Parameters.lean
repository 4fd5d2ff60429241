import EventRouting.Proofs.Request.Layers
import Mathlib.Data.List.Find

/-!
# Layers of query parameters

Parameters are layered as headers are, so a parameter takes away those of its name in any case.

* `Headers.get?_put`       what one more entry does to each name
* `Headers.under?`         what is under a name once entries are put on top
* `Options.ParamsOf`       the parameters of a base with layers on top
* `Options.compose_params`   the parameters of all layers
-/

namespace EventRouting

namespace Headers

/-! ## one more entry -/

theorem sameName_self (a : String) : sameName a a = true := beq_self_eq_true _

/-- An entry is under its own name, takes away what is there under its name in another case, and leaves the
rest. -/
theorem get?_put (hs : Members Json) (name key : String) (value : Json) :
    Members.get? (put hs name value) key =
      if sameName name key then if name = key then some value else none else Members.get? hs key := by
  unfold put
  rw [Members.get?_append, Members.get?_filter hs (fun k => !sameName k name), sameName_comm key name,
    Members.get?_cons, Members.get?_nil]
  cases hs : sameName name key with
  | true => simp
  | false =>
    have hne : name ≠ key := by
      rintro rfl
      rw [sameName_self] at hs
      cases hs
    rw [if_neg hne, Option.or_none]
    simp

theorem distinct_put {hs : Members Json} (h : hs.Distinct) (name : String) (value : Json) :
    Members.Distinct (put hs name value) := by
  have kept : ∀ k ∈ Members.names (hs.filter fun h => !sameName h.1 name), k ≠ name := by
    rintro _ hk rfl
    obtain ⟨m, hm, rfl⟩ := List.mem_map.mp hk
    have hs := (List.mem_filter.mp hm).2
    rw [sameName_self] at hs
    cases hs
  unfold put Members.Distinct Members.names
  rw [List.map_append, List.nodup_append]
  refine ⟨(List.filter_sublist.map _).nodup h, by simp, fun a ha b hb => ?_⟩
  rw [List.mem_singleton.mp hb]
  exact kept a ha

/-! ## entries on top -/

/-- What is under a name once entries are put one after the other on what was below: the value of the last of
that name in any case where it is spelled alike, and nothing where it is not. -/
def under? (below entries : Members Json) (name : String) : Option Json :=
  match last? entries name with
  | some e => if e.1 = name then some e.2 else none
  | none => below.get? name

theorem get?_foldl_put (entries below : Members Json) (name : String) :
    Members.get? (entries.foldl (fun acc h => put acc h.1 h.2) below) name = under? below entries name := by
  unfold under?
  induction entries generalizing below with
  | nil => rfl
  | cons e rest ih =>
    rw [List.foldl_cons, ih, last?_cons]
    cases last? rest name with
    | some l => rfl
    | none =>
      rw [Option.none_or]
      show Members.get? (put below e.1 e.2) name = _
      rw [get?_put]
      cases sameName e.1 name <;> rfl

theorem distinct_foldl_put (entries : Members Json) {below : Members Json} (h : below.Distinct) :
    Members.Distinct (entries.foldl (fun acc h => put acc h.1 h.2) below) := by
  induction entries generalizing below with
  | nil => exact h
  | cons e rest ih => exact ih (distinct_put h e.1 e.2)

theorem get?_present {hs : Members Json} (h : hs.Distinct) (name : String) :
    Members.get? (present hs) name = (Members.get? hs name).filter (· != .null) := by
  unfold present
  induction hs with
  | nil => rfl
  | cons m hs ih =>
    obtain ⟨k, v⟩ := m
    obtain ⟨hk, hd⟩ := List.nodup_cons.mp h
    by_cases he : k = name
    · subst he
      have hn : Members.get? hs k = none := (Members.get?_eq_none_iff hs k).mpr hk
      rw [Members.get?_cons_self, Option.filter_some, List.filter_cons]
      split
      · exact Members.get?_cons_self k v _
      · rw [ih hd, hn]
        rfl
    · rw [Members.get?_cons_ne v hs he, ← ih hd, List.filter_cons]
      split
      · exact Members.get?_cons_ne v _ he
      · rfl

/-- Where entries of a name in any case are spelled alike, the last of them is under the name, else what was
below. -/
theorem under?_of_spelled {below entries : Members Json} (h : below.Distinct) {name : String}
    (spelled : ∀ e ∈ entries, sameName e.1 name = true → e.1 = name) :
    under? below entries name = Members.get? (below ++ entries).reverse name := by
  have alike : ∀ e ∈ entries.reverse, sameName e.1 name = decide (e.1 = name) := by
    intro e he
    rw [Bool.eq_iff_iff, decide_eq_true_iff]
    refine ⟨spelled e (List.mem_reverse.mp he), ?_⟩
    rintro rfl
    exact sameName_self e.1
  rw [List.reverse_append, Members.get?_append, h.get?_reverse, Members.get?_eq_find? entries.reverse,
    ← List.find?_congr alike]
  unfold under? last?
  cases hl : entries.reverse.find? fun e => sameName e.1 name with
  | none => rfl
  | some e =>
    have named := List.find?_some hl
    have he : e.1 = name := spelled e (List.mem_reverse.mp (List.mem_of_find?_eq_some hl)) named
    show (if e.1 = name then some e.2 else none) = some e.2
    rw [if_pos he]

end Headers

namespace Options

/-- `ParamsOf base layers o`: the parameters are those of the base with the entries of all layers on top -/
def ParamsOf (base : Options) (layers : List Options) (o : Options) : Prop :=
  Headers.present o.params = Headers.present
    ((layers.flatMap (·.params)).foldl (fun acc h => Headers.put acc h.1 h.2) base.params)

theorem ParamsOf.layer {base : Options} {layers : List Options} {below : Options} (h : ParamsOf base layers below)
    (above : Options) : ParamsOf base (layers ++ [above]) (above.layeredOver below) := by
  have row : (layers ++ [above]).flatMap (·.params) = layers.flatMap (·.params) ++ above.params := by
    rw [List.flatMap_append]
    exact congrArg (_ ++ ·) (List.append_nil _)
  unfold ParamsOf at h ⊢
  show Headers.present (Headers.layer below.params above.params) = _
  unfold Headers.layer
  rw [Headers.present_present, ← Headers.present_foldl_put, h, Headers.present_foldl_put, row, List.foldl_append]

/-- **Parameters** of a base and of layers, none of which fails.  The last entry of a name in any case that a
layer sets decides about the name: its value is sent where it is spelled alike and not null, and nothing where
it is spelled otherwise.  A name that no layer sets in any case is sent as the base has it.  So a name that no
layer spells otherwise has the value of its last entry in the row of the base and all layers, unless that is
null. -/
theorem compose_params (base : Options) (i : Invocation) (extensions : List Extension) (layers : List Options)
    (distinct : base.params.Distinct) (given : extensions.map (fun e => e i) = layers.map .ok) :
    ∃ o, compose base i extensions = .ok o ∧
      (∀ name, o.resolvedParams.get? name =
        (Headers.under? base.params (layers.flatMap (·.params)) name).filter (· != .null)) ∧
      ∀ name, (∀ e ∈ layers.flatMap (·.params), Headers.sameName e.1 name = true → e.1 = name) →
        o.resolvedParams.get? name =
          (Members.get? ((base :: layers).flatMap (·.params)).reverse name).filter (· != .null) := by
  have start : ParamsOf base [] base := rfl
  obtain ⟨o, ho, sent⟩ := compose_induct ParamsOf.layer start i given
  have under (name : String) : o.resolvedParams.get? name =
      (Headers.under? base.params (layers.flatMap (·.params)) name).filter (· != .null) := by
    show Members.get? (Headers.present o.params) name = _
    rw [show Headers.present o.params = _ from sent, List.nil_append,
      Headers.get?_present (Headers.distinct_foldl_put _ distinct), Headers.get?_foldl_put]
  refine ⟨o, ho, under, fun name spelled => ?_⟩
  rw [under, Headers.under?_of_spelled distinct spelled]
  rfl

/-- A layer that takes a parameter away, and one that sets another parameter. -/
theorem compose_params_removed :
    let base : Options := { empty with params := [("page", .int 1), ("q", .str "a")] }
    let first : Options := { empty with params := [("q", .null), ("sort", .str "asc")] }
    let second : Options := { empty with params := [("page", .int 2)] }
    Members.Distinct base.params ∧
      ∃ o, compose base default [fun _ => .ok first, fun _ => .ok second] = .ok o ∧
        o.resolvedParams.get? "q" = none ∧ o.resolvedParams.get? "page" = some (.int 2) := by
  intro base first second
  have distinct : Members.Distinct base.params := by simp [base, Members.Distinct]
  obtain ⟨o, ho, _, sent⟩ :=
    compose_params base default [fun _ => .ok first, fun _ => .ok second] [first, second] distinct rfl
  refine ⟨distinct, o, ho, ?_, ?_⟩
  · rw [sent "q" (by decide +kernel)]
    decide +kernel
  · rw [sent "page" (by decide +kernel)]
    decide +kernel

/-- A parameter is dropped where another one is set that differs from it in case. -/
theorem compose_params_dropsOther :
    let base : Options := { empty with params := [("q", .str "1")] }
    let above : Options := { empty with params := [("Q", .str "2")] }
    Members.get? ([base, above].flatMap (·.params)).reverse "q" = some (.str "1") ∧
      ∃ o, compose base default [fun _ => .ok above] = .ok o ∧ o.resolvedParams = [("Q", .str "2")] := by
  refine ⟨by decide, _, rfl, by decide +kernel⟩

end Options

end EventRouting
