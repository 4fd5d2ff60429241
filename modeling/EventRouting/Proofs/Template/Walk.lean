import EventRouting.Template.Parse

/-!
# Walking through a template

The values themselves can be walked through, without reading them first.  A walk takes what it needs
where it expects it, and stops where it is not there.

* `Template.Slip`    what a walk can stop at
* `Template.walk`    the draft of a value and a root, if nothing stops the walk
-/

namespace EventRouting.Template

inductive Slip where
  | unknownDirective (name : String)
  | missing (name : String)
  | badPath
  | wrongShape
deriving DecidableEq

/-- The name and the argument of a value that is a directive and nothing else. -/
def lone? (v : Json) : Option (String × Json) :=
  match v with
  | .obj [(k, argument)] => if isDirectiveName k then some (k, argument) else none
  | _ => none

theorem lone?_sizeOf {v argument : Json} {k : String} (h : lone? v = some (k, argument)) :
    sizeOf argument < sizeOf v := by
  unfold lone? at h
  split at h
  · split at h
    · cases h
      simp
      omega
    · cases h
  · cases h

/-- The member of an object that has to be there. -/
def fetch (members : Members Json) (name : String) : Except Slip Json :=
  match Members.get? members name with
  | some v => .ok v
  | none => .error (.missing name)

theorem fetch_eq_ok {members : Members Json} {name : String} {v : Json} (h : Members.get? members name = some v) :
    fetch members name = .ok v := by
  unfold fetch
  rw [h]

theorem fetch_sizeOf {members : Members Json} {name : String} {v : Json} (h : fetch members name = .ok v) :
    sizeOf v < sizeOf (Json.obj members) := by
  unfold fetch at h
  split at h
  · next w hw =>
    cases h
    have := Members.sizeOf_lt_of_get?_eq_some hw
    simp only [Json.obj.sizeOf_spec]
    omega
  · cases h

/-- The question of a choice and what it is asked about, blank being the other question. -/
def fetchQuestion (members : Members Json) : Except Slip (Condition × Json) :=
  match Members.get? members "exists" with
  | some v => .ok (.present, v)
  | none => (fetch members "blank").map fun v => (.blank, v)

theorem fetchQuestion_sizeOf {members : Members Json} {c : Condition} {v : Json}
    (h : fetchQuestion members = .ok (c, v)) : sizeOf v < sizeOf (Json.obj members) := by
  unfold fetchQuestion at h
  split at h
  · next w hw =>
    cases h
    exact fetch_sizeOf (fetch_eq_ok hw)
  · cases hb : fetch members "blank" with
    | error e => simp [hb, Except.map] at h
    | ok w =>
      simp only [hb, Except.map, Except.ok.injEq, Prod.mk.injEq] at h
      obtain ⟨_, rfl⟩ := h
      exact fetch_sizeOf hb

def fetchList (members : Members Json) (name : String) : Except Slip (List Json) :=
  match fetch members name with
  | .ok (.arr vs) => .ok vs
  | .ok _ => .error .wrongShape
  | .error e => .error e

theorem fetchList_sizeOf {members : Members Json} {name : String} {vs : List Json}
    (h : fetchList members name = .ok vs) : sizeOf vs < sizeOf (Json.obj members) := by
  unfold fetchList at h
  split at h
  · next hf =>
    cases h
    have := fetch_sizeOf hf
    simp only [Json.arr.sizeOf_spec] at this
    omega
  · cases h
  · cases h

def fetchPath (v : Json) : Except Slip Path :=
  match v with
  | .str s =>
    match Path.ofReference? s with
    | some p => .ok p
    | none => .error .badPath
  | _ => .error .wrongShape

theorem fetchPath_eq_ok {s : String} {p : Path} (h : Path.ofReference? s = some p) :
    fetchPath (.str s) = .ok p := by
  simp only [fetchPath, h]

mutual

/-- The draft of a value and a root. -/
def walk (v root : Json) : Except Slip Draft :=
  match _h : lone? v with
  | some (name, argument) =>
    match Directive.ofName? name with
    | some d => walkDirective d argument root
    | none => .error (.unknownDirective name)
  | none =>
    match v with
    | .obj members => (walkMembers members root).map .object
    | .arr vs => (walkItems vs root).map .list
    | scalar => .ok (.value scalar)
termination_by (sizeOf v, 0)
decreasing_by
  · left; exact lone?_sizeOf _h
  · left; simp only [Json.obj.sizeOf_spec]; omega
  · left; simp only [Json.arr.sizeOf_spec]; omega

def walkDirective (d : Directive) (argument root : Json) : Except Slip Draft :=
  match d, argument with
  | .path, v => (fetchPath v).map fun p => .ofOption (root.lookup p)
  | .literal, v => .ok (.value v)
  | .text, .str s => .ok (.value (.str (String.ofList (interpolate root (pieces s.toList)))))
  | .choice, .obj members =>
    match _h : fetchQuestion members with
    | .error e => .error e
    | .ok (condition, subject) =>
      match walk subject root with
      | .error e => .error e
      | .ok d =>
        match _h : fetch members (if condition.asks d then "then" else "else") with
        | .error _ => .ok .absent
        | .ok branch => walk branch root
  | .default, .obj members =>
    match _h : fetch members "value" with
    | .error e => .error e
    | .ok v =>
      match walk v root with
      | .error e => .error e
      | .ok d =>
        if d.isAbsent then
          match _h : fetch members "fallback" with
          | .error e => .error e
          | .ok fallback => walk fallback root
        else .ok d
  | .merge, .obj members =>
    match _h : fetchList members "objects" with
    | .error e => .error e
    | .ok objects =>
      let direction := if Members.get? members "direction" = some (.str "left") then .left else .right
      (walkItems objects root).map fun ds => .object (mergeDrafts (Direction.arrange direction ds))
  | .items, .arr (v :: rest) =>
    match fetchPath v with
    | .error e => .error e
    | .ok p =>
      match itemsAt root p, rest with
      | none, _ => .ok .absent
      | some vs, [] => .ok (.value (.arr vs))
      | some vs, item :: _ => (vs.mapM fun v => walk item v).map .list
  | _, _ => .error .wrongShape
termination_by (sizeOf argument, 1)
decreasing_by
  all_goals left
  · exact fetchQuestion_sizeOf _h
  · exact fetch_sizeOf _h
  · exact fetch_sizeOf _h
  · exact fetch_sizeOf _h
  · exact fetchList_sizeOf _h
  · simp only [Json.arr.sizeOf_spec, List.cons.sizeOf_spec]; omega

def walkItems (items : List Json) (root : Json) : Except Slip (List Draft) :=
  match items with
  | [] => .ok []
  | v :: rest =>
    match walk v root with
    | .error e => .error e
    | .ok d => (walkItems rest root).map (d :: ·)
termination_by (sizeOf items, 0)
decreasing_by
  · left; simp only [List.cons.sizeOf_spec]; omega
  · left; simp only [List.cons.sizeOf_spec]; omega

def walkMembers (members : List (String × Json)) (root : Json) : Except Slip (List (String × Draft)) :=
  match members with
  | [] => .ok []
  | (k, v) :: rest =>
    match walk v root with
    | .error e => .error e
    | .ok d => (walkMembers rest root).map ((k, d) :: ·)
termination_by (sizeOf members, 0)
decreasing_by
  · left; simp only [List.cons.sizeOf_spec, Prod.mk.sizeOf_spec]; omega
  · left; simp only [List.cons.sizeOf_spec]; omega

end

def walkBranch (branch : Option Json) (root : Json) : Except Slip Draft :=
  match branch with
  | none => .ok .absent
  | some v => walk v root

/-! ## one lemma per kind of value -/

theorem walk_arr_eq (vs : List Json) (root : Json) : walk (.arr vs) root = (walkItems vs root).map .list := by
  rw [walk]
  rfl

theorem walk_arr {vs : List Json} {root : Json} {ds : List Draft} (h : walkItems vs root = .ok ds) :
    walk (.arr vs) root = .ok (.list ds) := by
  rw [walk_arr_eq, h]
  rfl

theorem lone?_eq_none {members : Members Json} (plain : ∀ name ∈ members.names, isDirectiveName name = false) :
    lone? (.obj members) = none := by
  unfold lone?
  split
  · next k argument he =>
    cases he
    rw [if_neg]
    rw [plain k (by simp)]
    simp
  · rfl

theorem walk_obj_eq {members : Members Json} (plain : ∀ name ∈ members.names, isDirectiveName name = false)
    (root : Json) : walk (.obj members) root = (walkMembers members root).map .object := by
  rw [walk]
  split
  · next hl =>
    rw [lone?_eq_none plain] at hl
    cases hl
  · rfl

theorem walk_obj {members : Members Json} {root : Json} {ds : List (String × Draft)}
    (plain : ∀ name ∈ members.names, isDirectiveName name = false)
    (h : walkMembers members root = .ok ds) : walk (.obj members) root = .ok (.object ds) := by
  rw [walk_obj_eq plain, h]
  rfl

theorem walk_directive_eq (d : Directive) (argument root : Json) :
    walk (.obj [(d.name, argument)]) root = walkDirective d argument root := by
  have hl : lone? (.obj [(d.name, argument)]) = some (d.name, argument) := by
    have hd : isDirectiveName d.name = true := by cases d <;> rfl
    simp only [lone?, hd, if_true]
  rw [walk]
  split
  · next name other he =>
    rw [hl] at he
    cases he
    rw [Directive.ofName?_name]
  · next he =>
    rw [hl] at he
    cases he

theorem walk_directive {d : Directive} {argument root : Json} {r : Draft}
    (h : walkDirective d argument root = .ok r) : walk (.obj [(d.name, argument)]) root = .ok r := by
  rw [walk_directive_eq, h]

theorem fetchQuestion_eq_ok {members : Members Json} {c : Condition} {name : String} {v : Json}
    (h : conditionOf? members = some (c, name, v)) : fetchQuestion members = .ok (c, v) := by
  unfold conditionOf? at h
  unfold fetchQuestion fetch
  split at h
  · next he _ =>
    cases h
    rw [he]
  · next he hb =>
    cases h
    rw [he, hb]
    rfl
  · cases h

/-- A choice walks to what it is asked about, and from there to one branch. -/
theorem walkDirective_choice_eq (members : Members Json) (root : Json) :
    walkDirective .choice (.obj members) root =
      match fetchQuestion members with
      | .error e => .error e
      | .ok (c, subject) =>
        match walk subject root with
        | .error e => .error e
        | .ok d => walkBranch (Members.get? members (if c.asks d then "then" else "else")) root := by
  have branch : ∀ k : String,
      (match _h : fetch members k with
        | .error _ => Except.ok Draft.absent
        | .ok branch => walk branch root) = walkBranch (Members.get? members k) root := by
    intro k
    cases hk : Members.get? members k with
    | none =>
      have hf : fetch members k = .error (.missing k) := by simp only [fetch, hk]
      split
      · rfl
      · next hb =>
        rw [hf] at hb
        cases hb
    | some w =>
      split
      · next hb =>
        rw [fetch_eq_ok hk] at hb
        cases hb
      · next hb =>
        rw [fetch_eq_ok hk] at hb
        cases hb
        rfl
  rw [walkDirective]
  split
  · next he => rw [he]
  · next c subject he =>
    rw [he]
    dsimp only
    cases walk subject root with
    | error e => rfl
    | ok d => exact branch _

theorem walkDirective_choice {members : Members Json} {c : Condition} {name : String} {v root : Json}
    {subject yes no : Draft} (hc : conditionOf? members = some (c, name, v))
    (hs : walk v root = .ok subject) (hy : walkBranch (Members.get? members "then") root = .ok yes)
    (hn : walkBranch (Members.get? members "else") root = .ok no) :
    walkDirective .choice (.obj members) root = .ok (if c.asks subject then yes else no) := by
  rw [walkDirective_choice_eq, fetchQuestion_eq_ok hc]
  dsimp only
  rw [hs]
  dsimp only
  cases c.asks subject
  · exact hn
  · exact hy

theorem walkDirective_default_eq {members : Members Json} {v f : Json}
    (hv : Members.get? members "value" = some v) (hf : Members.get? members "fallback" = some f)
    (root : Json) : walkDirective .default (.obj members) root =
      match walk v root with
      | .error e => .error e
      | .ok d => if d.isAbsent then walk f root else .ok d := by
  rw [walkDirective]
  split
  · next he =>
    rw [fetch_eq_ok hv] at he
    cases he
  · next w he =>
    rw [fetch_eq_ok hv] at he
    cases he
    cases walk v root with
    | error e => rfl
    | ok d =>
      dsimp only
      cases d.isAbsent with
      | false => rfl
      | true =>
        rw [if_pos rfl, if_pos rfl]
        split
        · next he =>
          rw [fetch_eq_ok hf] at he
          cases he
        · next w he =>
          rw [fetch_eq_ok hf] at he
          cases he
          rfl

theorem walkDirective_default {members : Members Json} {v f root : Json} {value fallback : Draft}
    (hv : Members.get? members "value" = some v) (hf : Members.get? members "fallback" = some f)
    (hd : walk v root = .ok value) (hb : walk f root = .ok fallback) :
    walkDirective .default (.obj members) root = .ok (if value.isAbsent then fallback else value) := by
  rw [walkDirective_default_eq hv hf, hd]
  dsimp only
  rw [hb]
  cases value.isAbsent <;> rfl

theorem walkDirective_merge_eq {members : Members Json} {objects : List Json}
    (ho : Members.get? members "objects" = some (.arr objects)) (root : Json) :
    walkDirective .merge (.obj members) root = (walkItems objects root).map fun ds =>
      .object (mergeDrafts (Direction.arrange
        (if Members.get? members "direction" = some (.str "left") then .left else .right) ds)) := by
  have hl : fetchList members "objects" = .ok objects := by
    unfold fetchList
    rw [fetch_eq_ok ho]
  rw [walkDirective]
  split
  · next he =>
    rw [hl] at he
    cases he
  · next vs he =>
    rw [hl] at he
    cases he
    rfl

theorem walkDirective_merge {members : Members Json} {direction : Direction} {objects : List Json}
    {root : Json} {ds : List Draft} (ho : Members.get? members "objects" = some (.arr objects))
    (hd : directionOf? members = some direction) (h : walkItems objects root = .ok ds) :
    walkDirective .merge (.obj members) root = .ok (.object (mergeDrafts (direction.arrange ds))) := by
  have side : (if Members.get? members "direction" = some (.str "left") then Direction.left else .right)
      = direction := by
    unfold directionOf? at hd
    split at hd
    · next hn =>
      cases hd
      rw [hn]
      rfl
    · next hr =>
      cases hd
      rw [hr, if_neg (by simp)]
    · next hl =>
      cases hd
      rw [hl, if_pos rfl]
    · cases hd
  rw [walkDirective_merge_eq ho, h, side]
  rfl

theorem mapM_eq_ok {α β ε : Type} {f : α → Except ε β} {g : α → β} {vs : List α}
    (h : ∀ v ∈ vs, f v = .ok (g v)) : vs.mapM f = .ok (vs.map g) := by
  induction vs with
  | nil => rfl
  | cons v rest ih =>
    rw [List.mapM_cons, h v (List.mem_cons_self ..), ih fun w hw => h w (List.mem_cons_of_mem _ hw)]
    rfl

theorem walkDirective_items {s : String} {p : Path} {root : Json}
    (hp : Path.ofReference? s = some p) :
    walkDirective .items (.arr [.str s]) root = .ok ((Template.items p).resolve root) := by
  rw [walkDirective, fetchPath_eq_ok hp, resolve]
  dsimp only
  cases itemsAt root p <;> rfl

theorem walkDirective_each {s : String} {p : Path} {item : Json} {t : Template} {root : Json}
    (hp : Path.ofReference? s = some p) (h : ∀ v, walk item v = .ok (t.resolve v)) :
    walkDirective .items (.arr [.str s, item]) root = .ok ((Template.each p t).resolve root) := by
  rw [walkDirective, fetchPath_eq_ok hp, resolve]
  dsimp only
  cases itemsAt root p with
  | none => rfl
  | some vs =>
    have hm := mapM_eq_ok fun v (_ : v ∈ vs) => h v
    dsimp only
    rw [hm]
    rfl

end EventRouting.Template
