import Mathlib.Data.List.Permutation
import EventRouting.Proofs.Json.Place
import EventRouting.Proofs.Template.Compositional

/-!
# Merged objects

What `@merge` comes to, told by what its objects are transformed into.

* `Draft.named?`            what a draft of an object has under a key
* `Template.Leaves`         a template names a key and gives it no value
* `Template.Wins`           what a key gets from objects, the strongest of them first
* `Template.walk_distinct`  a template without doubled names comes to a draft without doubled names
* `Template.transform_merge`   the members of the merged object

Drafts are merged before they settle, so a name without a value hides the value that a weaker object has
under it.
-/

namespace EventRouting

/-! ## what a draft has under a key -/

namespace Draft

/-- What a draft of an object has under a key, a hole where it names the key and nothing more. -/
def named? (d : Draft) (key : String) : Option Draft := d.members?.bind fun members => Members.get? members key

/-- A draft of an object has no name twice. -/
def Distinct (d : Draft) : Prop := ∀ members, d.members? = some members → Members.Distinct members

theorem distinct_of_members? {d : Draft} (h : d.members? = none) : d.Distinct := fun members hm => by
  rw [h] at hm
  cases hm

theorem distinct_object {members : Members Draft} (h : members.Distinct) : (object members).Distinct :=
  fun _ hm => Option.some.inj hm ▸ h

theorem distinct_value {v : Json} (h : v.WellFormed) : (value v).Distinct := by
  cases v with
  | obj members =>
    intro ds hm
    cases hm
    have names : (members.map fun m => (m.1, value m.2)).map (·.1) = members.map (·.1) := by
      rw [List.map_map]
      rfl
    show ((members.map fun m => (m.1, value m.2)).map (·.1)).Nodup
    rw [names]
    exact ((Json.wellFormed_obj_iff members).mp h).1
  | null | bool | num | str | arr => exact distinct_of_members? rfl

theorem get?_settleMembers {members : Members Draft} (h : members.Distinct) (key : String) :
    Members.get? (settleMembers members) key = (Members.get? members key).bind settle := by
  induction members with
  | nil => rfl
  | cons m rest ih =>
    obtain ⟨k, d⟩ := m
    obtain ⟨hk, hd⟩ := List.nodup_cons.mp h
    rw [settleMembers]
    by_cases he : k = key
    · subst he
      rw [Members.get?_cons_self, Option.bind_some]
      cases hs : d.settle with
      | some v => exact Members.get?_cons_self k v _
      | none =>
        have hr : Members.get? rest k = none := (Members.get?_eq_none_iff rest k).mpr hk
        show Members.get? (settleMembers rest) k = none
        rw [ih hd, hr]
        rfl
    · rw [Members.get?_cons_ne d rest he, ← ih hd]
      cases d.settle with
      | some v => exact Members.get?_cons_ne v _ he
      | none => rfl

theorem names_settleMembers_sublist (members : Members Draft) :
    (Members.names (settleMembers members)).Sublist members.names := by
  induction members with
  | nil => exact List.Sublist.refl _
  | cons m rest ih =>
    obtain ⟨k, d⟩ := m
    rw [settleMembers]
    cases d.settle with
    | none => exact ih.cons k
    | some v => exact ih.cons_cons k

theorem member?_final {d : Draft} (h : d.Distinct) (key : String) :
    d.final.member? key = (d.named? key).bind settle := by
  cases d with
  | absent | list => rfl
  | object members => exact get?_settleMembers (h members rfl) key
  | value v =>
    cases v with
    | obj members =>
      show Members.get? members key = (Members.get? (members.map fun m => (m.1, value m.2)) key).bind settle
      clear h
      induction members with
      | nil => rfl
      | cons m rest ih =>
        obtain ⟨k, v⟩ := m
        rw [List.map_cons, Members.get?_cons, Members.get?_cons]
        split
        · rfl
        · exact ih
    | null | bool | num | str | arr => rfl

end Draft

namespace Template

theorem walk_of_parse {v : Json} {t : Template} (valid : parse v = .ok t) (root : Json) :
    walk v root = .ok (t.resolve root) := by
  have read := parseAt_justified "$" v
  rw [show parseAt "$" v = .ok t from valid] at read
  exact read.good.1 root

/-! ## merged drafts -/

theorem get?_mergeDrafts {drafts : List Draft} (h : ∀ d ∈ drafts, d.Distinct) (key : String) :
    Members.get? (mergeDrafts drafts) key = drafts.reverse.findSome? fun d => d.named? key := by
  unfold mergeDrafts
  induction drafts using List.reverseRecOn with
  | nil => rfl
  | append_singleton drafts d ih =>
    have hd : Members.Distinct (d.members?.getD []) := by
      cases hm : d.members? with
      | none => exact List.nodup_nil
      | some members => exact h d (by simp) members hm
    have named : Members.get? (d.members?.getD []) key = d.named? key := by
      unfold Draft.named?
      cases d.members? <;> rfl
    rw [List.foldl_append, List.foldl_cons, List.foldl_nil, Members.get?_update _ hd, named,
      ih fun x hx => h x (List.mem_append_left _ hx), List.reverse_append]
    cases hk : d.named? key with
    | none =>
      show none.or _ = List.findSome? _ (d :: drafts.reverse)
      rw [List.findSome?_cons, hk, Option.none_or]
    | some e =>
      show (some e).or _ = List.findSome? _ (d :: drafts.reverse)
      rw [List.findSome?_cons, hk, Option.some_or]

theorem distinct_mergeDrafts (drafts : List Draft) : Members.Distinct (mergeDrafts drafts) := by
  unfold mergeDrafts
  induction drafts using List.reverseRecOn with
  | nil => exact List.nodup_nil
  | append_singleton drafts d ih =>
    rw [List.foldl_append]
    exact ih.update _

/-! ## walks without doubled names -/

variable {root : Json}

/-- `WalkedMembers root members drafts`: the members one by one, each walked through and under its own name -/
def WalkedMembers (root : Json) (members : Members Json) (drafts : Members Draft) : Prop :=
  List.Forall₂ (fun m n => m.1 = n.1 ∧ walk m.2 root = .ok n.2) members drafts

theorem walkedMembers_of_walk {members : Members Json} {drafts : Members Draft}
    (h : walkMembers members root = .ok drafts) : WalkedMembers root members drafts := by
  unfold WalkedMembers
  induction members generalizing drafts with
  | nil =>
    rw [walkMembers] at h
    cases h
    exact .nil
  | cons m rest ih =>
    obtain ⟨k, v⟩ := m
    rw [walkMembers] at h
    cases hv : walk v root with
    | error e =>
      rw [hv] at h
      cases h
    | ok d =>
      rw [hv] at h
      cases hr : walkMembers rest root <;> rw [hr] at h <;> cases h
      exact .cons ⟨rfl, hv⟩ (ih hr)

namespace WalkedMembers

variable {members : Members Json} {drafts : Members Draft} (h : WalkedMembers root members drafts)
include h

theorem names_eq : drafts.names = members.names := by
  induction h with
  | nil => rfl
  | @cons m n _ _ hm _ ih => rw [Members.names_cons, Members.names_cons, hm.1, ih]

theorem get?_eq_some_iff (key : String) (d : Draft) :
    drafts.get? key = some d ↔ ∃ v, members.get? key = some v ∧ walk v root = .ok d := by
  induction h with
  | nil => simp
  | @cons m n members drafts hm _ ih =>
    obtain ⟨k, v⟩ := m
    obtain ⟨l, e⟩ := n
    obtain ⟨rfl : k = l, hw : walk v root = .ok e⟩ := hm
    rw [Members.get?_cons, Members.get?_cons]
    split
    · simp [hw]
    · exact ih

end WalkedMembers

/-- `DistinctBelow root n`: below a size, what has no doubled names is known to come to a draft without them -/
def DistinctBelow (root : Json) (n : Nat) : Prop :=
  ∀ v d, sizeOf v < n → ¬ Faulty v → v.WellFormed → walk v root = .ok d → d.Distinct

variable {d : Draft} {argument : Json}

theorem distinct_path (rootSingle : root.WellFormed) (sound : ¬ Faulty (.obj [("@path", argument)]))
    (h : walk (.obj [("@path", argument)]) root = .ok d) : d.Distinct := by
  cases ((sound_directive_iff .path argument).mp sound).1 with
  | path hs =>
    obtain ⟨s, rfl, hs⟩ := hs
    obtain ⟨p, hp⟩ := (Path.isReference_iff s).mp hs
    rw [walk_path_eq hp] at h
    cases h
    cases hl : root.lookup p with
    | none => exact Draft.distinct_of_members? rfl
    | some v => exact Draft.distinct_value (rootSingle.lookup hl)

theorem distinct_items (sound : ¬ Faulty (.obj [("@arrayPath", argument)]))
    (h : walk (.obj [("@arrayPath", argument)]) root = .ok d) : d.Distinct := by
  obtain ⟨s, p, _, ⟨_, hw⟩ | ⟨item, _, _, hw⟩⟩ := walk_items sound root
  · rw [hw] at h
    cases hi : itemsAt root p <;> rw [hi] at h <;> cases h <;> exact Draft.distinct_of_members? rfl
  · rw [hw] at h
    cases hi : itemsAt root p with
    | none =>
      rw [hi] at h
      cases h
      exact Draft.distinct_of_members? rfl
    | some vs =>
      rw [hi, Option.elim_some] at h
      cases hm : vs.mapM fun v => walk item v <;> rw [hm] at h <;> cases h
      exact Draft.distinct_of_members? rfl

theorem distinct_choice (ih : DistinctBelow root (sizeOf argument)) (single : argument.WellFormed)
    (sound : ¬ Faulty (.obj [("@if", argument)])) (h : walk (.obj [("@if", argument)]) root = .ok d) :
    d.Distinct := by
  obtain ⟨members, branch, rfl, only, soundBranch, hw⟩ := walk_choice sound root
  rw [hw] at h
  cases hb : Members.get? members branch with
  | none =>
    rw [hb] at h
    cases h
    exact Draft.distinct_of_members? rfl
  | some v =>
    rw [hb] at h
    have hk : branch ∈ choiceNames := by
      cases (only branch).mpr rfl <;> decide
    exact ih v d (Under.choice hk hb).sizeOf_lt (soundBranch v hb) (single.get? hb) h

theorem distinct_default (ih : DistinctBelow root (sizeOf argument)) (single : argument.WellFormed)
    (sound : ¬ Faulty (.obj [("@default", argument)]))
    (h : walk (.obj [("@default", argument)]) root = .ok d) : d.Distinct := by
  obtain ⟨members, v, f, e, rfl, hv, hf, soundValue, soundFallback, walked, hw⟩ := walk_default sound root
  rw [hw] at h
  split at h
  · exact ih f d (Under.default (by decide) hf).sizeOf_lt soundFallback (single.get? hf) h
  · cases h
    exact ih v d (Under.default (by decide) hv).sizeOf_lt soundValue (single.get? hv) walked

/-- **No doubled names**: a template without them, from a root without them, comes to a draft without them. -/
theorem walk_distinct (v : Json) (sound : ¬ Faulty v) (single : v.WellFormed) (rootSingle : root.WellFormed)
    {d : Draft} (h : walk v root = .ok d) : d.Distinct := by
  have ih : DistinctBelow root (sizeOf v) := fun w e _ hs single hw => walk_distinct w hs single rootSingle hw
  cases v with
  | null | bool | num | str =>
    rw [walk] at h
    cases h
    exact Draft.distinct_of_members? rfl
  | arr vs =>
    rw [walk_arr_eq] at h
    cases hi : walkItems vs root <;> rw [hi] at h <;> cases h
    exact Draft.distinct_of_members? rfl
  | obj members =>
    by_cases plain : ∀ name ∈ Members.names members, isDirectiveName name = false
    · rw [walk_obj_eq plain] at h
      cases hm : walkMembers members root <;> rw [hm] at h <;> cases h
      refine Draft.distinct_object ?_
      rw [Members.Distinct, (walkedMembers_of_walk hm).names_eq]
      exact ((Json.wellFormed_obj_iff members).mp single).1
    · obtain ⟨directive, argument, rfl, proper⟩ := directive_of_sound sound plain
      have part : argument.WellFormed := single.get? (Members.get?_cons_self _ _ _)
      have below : DistinctBelow root (sizeOf argument) := fun w e hw => ih w e (by
        simp only [Json.obj.sizeOf_spec, List.cons.sizeOf_spec, Prod.mk.sizeOf_spec]
        omega)
      cases directive with
      | path => exact distinct_path rootSingle sound h
      | items => exact distinct_items sound h
      | choice => exact distinct_choice below part sound h
      | default => exact distinct_default below part sound h
      | literal =>
        rw [walk_directive_eq, walkDirective] at h
        cases h
        exact Draft.distinct_value part
      | text =>
        cases proper
        rw [walk_directive_eq, walkDirective] at h
        cases h
        exact Draft.distinct_of_members? rfl
      | merge =>
        cases proper with
        | merge ho _ =>
          rw [walk_directive_eq, walkDirective_merge_eq ho] at h
          cases hi : walkItems _ root <;> rw [hi] at h <;> cases h
          exact Draft.distinct_object (distinct_mergeDrafts _)
termination_by sizeOf v

/-! ## what wins -/

/-- The template builds an object that names the key and has no value under it. -/
def Leaves (root template : Json) (key : String) : Prop :=
  ∃ t, parse template = .ok t ∧ (t.resolve root).named? key = some .absent

/-- The objects of a merge, the strongest first. -/
def Direction.ranked {α : Type} (direction : Direction) (objects : List α) : List α :=
  match direction with
  | left => objects
  | right => objects.reverse

/-- `Wins root key templates v`: the first of the templates that names the key gives it `v`, and that is nothing
where it leaves the key without a value -/
inductive Wins (root : Json) (key : String) : List Json → Option Json → Prop where
  | nil : Wins root key [] none
  | supplies {template w v : Json} {weaker : List Json} (made : template.transform root = .ok w)
      (there : w.member? key = some v) : Wins root key (template :: weaker) (some v)
  | leaves {template : Json} {weaker : List Json} (left : Leaves root template key) :
      Wins root key (template :: weaker) none
  | passes {template w : Json} {weaker : List Json} {v : Option Json} (made : template.transform root = .ok w)
      (silent : w.member? key = none) (closed : ¬ Leaves root template key) (rest : Wins root key weaker v) :
      Wins root key (template :: weaker) v

theorem leaves_iff_of_walk {template : Json} {d : Draft} (sound : ¬ Faulty template)
    (h : walk template root = .ok d) (key : String) : Leaves root template key ↔ d.named? key = some .absent := by
  obtain ⟨t, valid⟩ := exists_parse sound
  obtain rfl : t.resolve root = d := Except.ok.inj ((walk_of_parse valid root).symm.trans h)
  constructor
  · rintro ⟨t', valid', left⟩
    cases valid.symm.trans valid'
    exact left
  · exact fun left => ⟨t, valid, left⟩

theorem leaves_obj_iff {members : Members Json} (plain : ∀ name ∈ members.names, isDirectiveName name = false)
    {t : Template} (valid : parse (.obj members) = .ok t) (key : String) :
    Leaves root (.obj members) key ↔ ∃ v, members.get? key = some v ∧ Vanishes root v := by
  have sound := sound_of_parse valid
  have soundMember : ∀ v, members.get? key = some v → ¬ Faulty v := fun v hv hf =>
    sound ((faulty_obj_iff plain).mpr ⟨_, Members.mem_of_get?_eq_some hv, hf⟩)
  obtain ⟨drafts, hm, _⟩ := kept_of_members (fun m hm hf => sound ((faulty_obj_iff plain).mpr ⟨m, hm, hf⟩)) root
  rw [leaves_iff_of_walk sound (walk_obj plain hm)]
  show Members.get? drafts key = _ ↔ _
  rw [(walkedMembers_of_walk hm).get?_eq_some_iff]
  refine exists_congr fun v => and_congr_right fun hv => ⟨?_, fun gone => ?_⟩
  · exact vanishes_of_absent v (soundMember v hv)
  · exact absent_of_vanishes gone (soundMember v hv)

/-- `Drafted root template d`: the template is walked to the draft, which has no doubled names -/
structure Drafted (root template : Json) (d : Draft) : Prop where
  sound : ¬ Faulty template
  walked : walk template root = .ok d
  distinct : d.Distinct

theorem distinct_of_drafted {templates : List Json} {drafts : List Draft}
    (h : List.Forall₂ (Drafted root) templates drafts) : ∀ d ∈ drafts, d.Distinct := by
  induction h with
  | nil => exact fun _ hd => nomatch hd
  | cons h _ ih => exact List.forall_mem_cons.mpr ⟨h.distinct, ih⟩

theorem wins_of_drafts {key : String} {templates : List Json} {drafts : List Draft}
    (h : List.Forall₂ (Drafted root) templates drafts) :
    Wins root key templates ((drafts.findSome? fun d => d.named? key).bind Draft.settle) := by
  induction h with
  | nil => exact .nil
  | @cons template d templates drafts h _ ih =>
    have there := Draft.member?_final h.distinct key
    rw [List.findSome?_cons]
    cases he : d.named? key with
    | none =>
      rw [he] at there
      refine .passes (transform_of_walk h.sound h.walked) there (fun left => ?_) ih
      rw [(leaves_iff_of_walk h.sound h.walked key).mp left] at he
      cases he
    | some e =>
      rw [he] at there
      show Wins root key _ e.settle
      cases hs : e.settle with
      | none =>
        rw [(Draft.settle_eq_none_iff e).mp hs] at he
        exact .leaves ((leaves_iff_of_walk h.sound h.walked key).mpr he)
      | some v => exact .supplies (transform_of_walk h.sound h.walked) (there.trans hs)

theorem Wins.eq_findSome? {key : String} {templates made : List Json} {v : Option Json}
    (h : Wins root key templates v) (all : List.Forall₂ (fun T w => T.transform root = .ok w) templates made)
    (closed : ∀ T ∈ templates, ¬ Leaves root T key) : v = made.findSome? fun w => w.member? key := by
  induction h generalizing made with
  | nil =>
    cases all
    rfl
  | supplies hw there =>
    cases all with
    | cons hw' _ =>
      cases hw.symm.trans hw'
      rw [List.findSome?_cons, there]
  | leaves left => exact absurd left (closed _ (List.mem_cons_self ..))
  | passes hw silent _ _ ih =>
    cases all with
    | cons hw' rest =>
      cases hw.symm.trans hw'
      rw [List.findSome?_cons, silent]
      exact ih rest fun T hT => closed T (List.mem_cons_of_mem _ hT)

theorem Direction.ranked_of_forall₂ {α β : Type} {R : α → β → Prop} {xs : List α} {ys : List β}
    (direction : Direction) (h : List.Forall₂ R xs ys) : List.Forall₂ R (direction.ranked xs) (direction.ranked ys) :=
  match direction with
  | left => h
  | right => List.rel_reverse h

theorem Direction.reverse_arrange (direction : Direction) (drafts : List Draft) :
    (direction.arrange drafts).reverse = direction.ranked drafts :=
  match direction with
  | left => List.reverse_reverse drafts
  | right => rfl

theorem Direction.mem_ranked {α : Type} (direction : Direction) {x : α} {xs : List α} :
    x ∈ direction.ranked xs ↔ x ∈ xs :=
  match direction with
  | left => Iff.rfl
  | right => List.mem_reverse

/-- **Merging**: valid templates are merged into an object that has, under each key, what the strongest of them
gives it that names the key: the last one, or the first where the direction is left.  It has nothing under a
key that this one leaves without a value, whatever the others have there.  A key that no template leaves has
the value of the strongest of the objects that the templates are transformed into which has it.  An object that
is no directive leaves the keys of its members that resolve to nothing. -/
theorem transform_merge {argument : Members Json} {objects : List Json} {direction : Direction}
    (listed : argument.get? "objects" = some (.arr objects)) (side : directionOf? argument = some direction)
    (valid : ∀ T ∈ objects, ∃ t, parse T = .ok t) (single : ∀ T ∈ objects, T.WellFormed) {root : Json}
    (rootSingle : root.WellFormed) :
    ∃ (made : List Json) (merged : Members Json),
      List.Forall₂ (fun T w => T.transform root = .ok w) objects made ∧
      (Json.obj [("@merge", .obj argument)]).transform root = .ok (.obj merged) ∧ merged.Distinct ∧
      (∀ key, Wins root key (direction.ranked objects) (merged.get? key)) ∧
      (∀ key, (∀ T ∈ objects, ¬ Leaves root T key) →
        merged.get? key = (direction.ranked made).findSome? fun w => w.member? key) ∧
      ∀ members : Members Json, .obj members ∈ objects →
        (∀ name ∈ members.names, isDirectiveName name = false) → ∀ key,
          Leaves root (.obj members) key ↔ ∃ v, members.get? key = some v ∧ Vanishes root v := by
  have sound : ¬ Faulty (.obj [("@merge", .obj argument)]) := by
    refine (sound_directive_iff .merge _).mpr ⟨.merge listed ?_, fun v hv => ?_⟩
    · refine Classical.byContradiction fun other => ?_
      rw [(directionOf?_eq_none_iff argument).mpr other] at side
      cases side
    · obtain ⟨t, ht⟩ := valid v ((under_merge_iff listed v).mp hv)
      exact sound_of_parse ht
  obtain ⟨drafts, hm, drafted⟩ := exists_mapM (fun T => walk T root) (R := Drafted root) objects fun T hT => by
    obtain ⟨t, ht⟩ := valid T hT
    obtain ⟨d, hw, _⟩ := exists_walk (sound_of_parse ht) root
    exact ⟨d, hw, sound_of_parse ht, hw, walk_distinct T (sound_of_parse ht) (single T hT) rootSingle hw⟩
  rw [← walkItems_eq_mapM] at hm
  have ranked : (direction.arrange drafts).reverse = direction.ranked drafts := direction.reverse_arrange drafts
  have distinct : ∀ d ∈ direction.arrange drafts, d.Distinct := fun d hd => by
    rw [← List.mem_reverse, ranked, direction.mem_ranked] at hd
    exact distinct_of_drafted drafted d hd
  have wins (key : String) : Wins root key (direction.ranked objects)
      (Members.get? (Draft.settleMembers (mergeDrafts (direction.arrange drafts))) key) := by
    rw [Draft.get?_settleMembers (distinct_mergeDrafts _), get?_mergeDrafts distinct, ranked]
    exact wins_of_drafts (direction.ranked_of_forall₂ drafted)
  have all : List.Forall₂ (fun T w => T.transform root = .ok w) objects (drafts.map Draft.final) := by
    rw [List.forall₂_map_right_iff]
    exact drafted.imp fun _ _ h => transform_of_walk h.sound h.walked
  refine ⟨_, _, all, ?_, ?_, wins, fun key closed => ?_, fun members hT plain key => ?_⟩
  · exact transform_of_walk sound (walk_directive (walkDirective_merge listed side hm))
  · exact (Draft.names_settleMembers_sublist _).nodup (distinct_mergeDrafts _)
  · exact (wins key).eq_findSome? (direction.ranked_of_forall₂ all) fun T hT =>
      closed T (direction.mem_ranked.mp hT)
  · obtain ⟨t, ht⟩ := valid _ hT
    exact leaves_obj_iff plain ht key

/-- Where the first object wins, a member that it has not comes from the second one. -/
theorem transform_merge_leftWins :
    let plan : Json := .obj [("plan", .obj [("@path", .str "$.plan")])]
    let free : Json := .obj [("plan", .str "free"), ("seats", .int 1)]
    let argument : Members Json := [("objects", .arr [plan, free]), ("direction", .str "left")]
    let root : Json := .obj [("plan", .str "pro")]
    (argument.get? "objects" = some (.arr [plan, free]) ∧ directionOf? argument = some .left ∧
      (∀ T ∈ [plan, free], ∃ t, parse T = .ok t) ∧ (∀ T ∈ [plan, free], T.WellFormed) ∧ root.WellFormed) ∧
    ∃ merged : Members Json, (Json.obj [("@merge", .obj argument)]).transform root = .ok (.obj merged) ∧
      merged.get? "seats" = some (.int 1) := by
  intro plan free argument root
  have side : directionOf? argument = some .left := by cbv
  have valid : ∀ T ∈ [plan, free], ∃ t, parse T = .ok t :=
    List.forall_mem_cons.mpr ⟨⟨_, by cbv⟩, List.forall_mem_singleton.mpr ⟨_, by cbv⟩⟩
  have single : ∀ T ∈ [plan, free], T.WellFormed := by
    refine List.forall_mem_cons.mpr ⟨?_, List.forall_mem_singleton.mpr ?_⟩ <;>
      simp [plan, free, Json.WellFormed, Json.WellFormedMembers, Json.int]
  have rootSingle : root.WellFormed := by simp [root, Json.WellFormed, Json.WellFormedMembers]
  refine ⟨⟨rfl, side, valid, single, rootSingle⟩, ?_⟩
  obtain ⟨made, merged, all, hm, _, _, law, leaves⟩ := transform_merge rfl side valid single rootSingle
  have closed : ∀ T ∈ [plan, free], ¬ Leaves root T "seats" := by
    refine List.forall_mem_cons.mpr ⟨?_, List.forall_mem_singleton.mpr ?_⟩
    · rw [leaves _ (List.mem_cons_self ..) (by decide)]
      rintro ⟨v, ⟨⟩, _⟩
    · rw [leaves _ (List.mem_cons_of_mem _ (List.mem_singleton.mpr rfl)) (by decide)]
      rintro ⟨v, ⟨⟩, ⟨⟩⟩
  have first : plan.transform root = .ok (.obj [("plan", .str "pro")]) := by cbv
  have second : free.transform root = .ok free := by cbv
  cases all with
  | cons h rest =>
    cases rest with
    | cons h' rest =>
      cases rest
      cases first.symm.trans h
      cases second.symm.trans h'
      exact ⟨merged, hm, law "seats" closed⟩

/-- A path that leads nowhere takes a key away that the other object has. -/
theorem transform_merge_hidesPlan :
    let free : Json := .obj [("plan", .str "free")]
    let paid : Json := .obj [("plan", .obj [("@path", .str "$.plan")])]
    let root : Json := .obj []
    free.transform root = .ok free ∧ paid.transform root = .ok (.obj []) ∧
      ((Direction.right.ranked [free, .obj []]).findSome? fun w => w.member? "plan") = some (.str "free") ∧
      (Json.obj [("@merge", .obj [("objects", .arr [free, paid])])]).transform root = .ok (.obj []) := by
  refine ⟨by cbv, by cbv, rfl, by cbv⟩

end Template

end EventRouting
