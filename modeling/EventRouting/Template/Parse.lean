import EventRouting.Fault
import EventRouting.Path.Reference
import EventRouting.Template.Interpolation

/-!
# Reading templates

* `Template.parseAt`   the template that the value at a place stands for, or its first fault
* `Template.parse`     the same from the root `$` on
* `Json.transform`     the value that a template, given as a value, builds from a root

An object with a name that starts with `@` is a directive, and that name has to be its only one.
-/

namespace EventRouting

namespace Template

inductive Directive where
  | path
  | literal
  | text
  | choice
  | default
  | merge
  | items
deriving DecidableEq, Inhabited

def Directive.name : Directive → String
  | path => "@path"
  | literal => "@literal"
  | text => "@template"
  | choice => "@if"
  | default => "@default"
  | merge => "@merge"
  | items => "@arrayPath"

def Directive.ofName? : String → Option Directive
  | "@path" => some .path
  | "@literal" => some .literal
  | "@template" => some .text
  | "@if" => some .choice
  | "@default" => some .default
  | "@merge" => some .merge
  | "@arrayPath" => some .items
  | _ => none

@[simp] theorem Directive.ofName?_name (d : Directive) : Directive.ofName? d.name = some d := by
  cases d <;> rfl

def isDirectiveName (name : String) : Bool := name.toList.head? == some '@'

/-- Is a value an object whose only name starts like that of a directive? -/
def isDirective : Json → Bool
  | .obj [(k, _)] => isDirectiveName k
  | _ => false

/-- What an object is: a directive with its argument, or members. -/
def directive? (location : String) (members : Members Json) :
    Except Fault (Option (Directive × Json)) :=
  match members.names.find? isDirectiveName with
  | none => .ok none
  | some name =>
    match members with
    | [(_, argument)] =>
      match Directive.ofName? name with
      | some d => .ok (some (d, argument))
      | none => .error (.transform ("Unknown directive " ++ Text.quoted name) location)
    | _ =>
      .error (.transform ("Directive " ++ Text.quoted name ++ " must be the only key in its object")
        location)

theorem directive?_sizeOf {location : String} {members : Members Json} {d : Directive}
    {argument : Json} (h : directive? location members = .ok (some (d, argument))) :
    sizeOf argument < sizeOf members := by
  unfold directive? at h
  split at h
  · cases h
  · split at h
    · split at h
      · cases h; simp; omega
      · cases h
    · cases h

/-! ## arguments -/

def pathAt (location : String) (argument : Json) : Except Fault Path :=
  let fault := Fault.transform
    ("@path expects a string starting with '$', got " ++ argument.literal) location
  match argument with
  | .str s =>
    match Path.ofReference? s with
    | some p => .ok p
    | none => .error fault
  | _ => .error fault

/-- The question of a choice and what it is asked about. -/
def conditionOf? (members : Members Json) : Option (Condition × String × Json) :=
  match members.get? "exists", members.get? "blank" with
  | some v, none => some (.present, "exists", v)
  | none, some v => some (.blank, "blank", v)
  | _, _ => none

/-- The names of a choice that mean nothing, in order. -/
def unexpectedNames (members : Members Json) : List String :=
  (members.names.filter fun k => !(["exists", "blank", "then", "else"].contains k)).mergeSort
    (fun a b => decide (a ≤ b))

def directionOf? (members : Members Json) : Option Direction :=
  match members.get? "direction" with
  | none => some .right
  | some (.str "right") => some .right
  | some (.str "left") => some .left
  | some _ => none

/-- The argument of a choice: the question, its name, what is asked about, and the branches. -/
structure ChoiceArgument where
  condition : Condition
  name : String
  subject : Json
  yes : Option Json
  no : Option Json

def choiceArgument (location : String) (argument : Json) : Except Fault ChoiceArgument :=
  match argument with
  | .obj members =>
    match conditionOf? members with
    | none => .error (.transform "@if needs exactly one of 'exists' or 'blank'" location)
    | some (condition, name, subject) =>
      let unexpected := unexpectedNames members
      if unexpected.isEmpty then
        .ok ⟨condition, name, subject, Members.get? members "then", Members.get? members "else"⟩
      else
        .error (.transform ("@if has unexpected keys " ++ Text.quotedList unexpected) location)
  | _ => .error (.transform "@if expects an object" location)

def defaultArgument (location : String) (argument : Json) : Except Fault (Json × Json) :=
  let fault := Fault.transform "@default expects \x7b'value': ..., 'fallback': ...\x7d" location
  match argument with
  | .obj members =>
    match Members.get? members "value", Members.get? members "fallback" with
    | some v, some f => if members.length = 2 then .ok (v, f) else .error fault
    | _, _ => .error fault
  | _ => .error fault

def mergeArgument (location : String) (argument : Json) : Except Fault (Direction × List Json) :=
  let fault := Fault.transform "@merge expects \x7b'objects': [...]\x7d" location
  match argument with
  | .obj members =>
    match Members.get? members "objects" with
    | some (.arr objects) =>
      match directionOf? members with
      | some direction => .ok (direction, objects)
      | none => .error (.transform "@merge direction must be 'left' or 'right'" location)
    | _ => .error fault
  | _ => .error fault

def itemsArgument (location : String) (argument : Json) : Except Fault (Path × Option Json) :=
  match argument with
  | .arr [p] => (pathAt (location ++ "[0]") p).map fun q => (q, none)
  | .arr [p, item] => (pathAt (location ++ "[0]") p).map fun q => (q, some item)
  | _ => .error (.transform "@arrayPath expects [path] or [path, itemTemplate]" location)

theorem sizeOf_conditionOf? {members : Members Json} {c : Condition} {name : String} {v : Json}
    (h : conditionOf? members = some (c, name, v)) : sizeOf v < sizeOf members := by
  unfold conditionOf? at h
  split at h
  · next hv _ => cases h; exact Members.sizeOf_lt_of_get?_eq_some hv
  · next _ hv => cases h; exact Members.sizeOf_lt_of_get?_eq_some hv
  · cases h

theorem choiceArgument_sizeOf {location : String} {argument : Json} {a : ChoiceArgument}
    (h : choiceArgument location argument = .ok a) :
    sizeOf a.subject < sizeOf argument ∧ (∀ v, a.yes = some v → sizeOf v < sizeOf argument) ∧
      ∀ v, a.no = some v → sizeOf v < sizeOf argument := by
  unfold choiceArgument at h
  split at h
  · next members =>
    split at h
    · cases h
    · next hc =>
      dsimp only at h
      split at h
      · cases h
        have hs := sizeOf_conditionOf? hc
        refine ⟨?_, fun v hv => ?_, fun v hv => ?_⟩
        · simp only [Json.obj.sizeOf_spec]; omega
        · have := Members.sizeOf_lt_of_get?_eq_some hv; simp only [Json.obj.sizeOf_spec]; omega
        · have := Members.sizeOf_lt_of_get?_eq_some hv; simp only [Json.obj.sizeOf_spec]; omega
      · cases h
  · cases h

noncomputable def branchSize : Option Json → Nat
  | none => 0
  | some v => sizeOf v

theorem branchSize_lt {argument : Json} {branch : Option Json}
    (h : ∀ v, branch = some v → sizeOf v < sizeOf argument) : branchSize branch < sizeOf argument := by
  cases branch with
  | none =>
    show 0 < sizeOf argument
    cases argument with
    | null => exact Nat.one_pos
    | bool | num | str | arr | obj => exact Nat.lt_add_right _ Nat.one_pos
  | some v => exact h v rfl

theorem defaultArgument_sizeOf {location : String} {argument v f : Json}
    (h : defaultArgument location argument = .ok (v, f)) :
    sizeOf v < sizeOf argument ∧ sizeOf f < sizeOf argument := by
  unfold defaultArgument at h
  dsimp only at h
  split at h
  · next members =>
    split at h
    · next hv hf =>
      split at h
      · cases h
        have h1 := Members.sizeOf_lt_of_get?_eq_some hv
        have h2 := Members.sizeOf_lt_of_get?_eq_some hf
        simp only [Json.obj.sizeOf_spec]
        omega
      · cases h
    · cases h
  · cases h

theorem mergeArgument_sizeOf {location : String} {argument : Json} {direction : Direction}
    {objects : List Json} (h : mergeArgument location argument = .ok (direction, objects)) :
    sizeOf objects < sizeOf argument := by
  unfold mergeArgument at h
  dsimp only at h
  split at h
  · next members =>
    split at h
    · next ho =>
      split at h
      · cases h
        have := Members.sizeOf_lt_of_get?_eq_some ho
        simp only [Json.obj.sizeOf_spec, Json.arr.sizeOf_spec] at *
        omega
      · cases h
    · cases h
  · cases h

theorem itemsArgument_sizeOf {location : String} {argument item : Json} {p : Path}
    (h : itemsArgument location argument = .ok (p, some item)) :
    sizeOf item < sizeOf argument := by
  unfold itemsArgument at h
  split at h
  · next p =>
    cases hp : pathAt (location ++ "[0]") p <;> simp [hp, Except.map] at h
  · next p item' =>
    cases hp : pathAt (location ++ "[0]") p with
    | error e => simp [hp, Except.map] at h
    | ok q =>
      simp only [hp, Except.map, Except.ok.injEq, Prod.mk.injEq, Option.some.injEq] at h
      obtain ⟨_, rfl⟩ := h
      simp
      omega
  · cases h

/-! ## templates -/

mutual

/-- The template that the value at a place stands for. -/
def parseAt (location : String) (v : Json) : Except Fault Template :=
  match v with
  | .obj members =>
    match _h : directive? location members with
    | .error e => .error e
    | .ok none =>
      match parseMembers location members with
      | .error e => .error e
      | .ok ms => .ok (.object ms)
    | .ok (some (d, argument)) => parseDirective (location ++ "." ++ d.name) d argument
  | .arr vs =>
    match parseItems location 0 vs with
    | .error e => .error e
    | .ok ts => .ok (.list ts)
  | scalar => .ok (.literal scalar)
termination_by (sizeOf v, 0)
decreasing_by
  · left; simp only [Json.obj.sizeOf_spec]; omega
  · have := directive?_sizeOf _h; left; simp only [Json.obj.sizeOf_spec]; omega
  · left; simp only [Json.arr.sizeOf_spec]; omega

def parseDirective (location : String) (d : Directive) (argument : Json) : Except Fault Template :=
  match d with
  | .path =>
    match pathAt location argument with
    | .error e => .error e
    | .ok p => .ok (.path p)
  | .literal => .ok (.literal argument)
  | .text =>
    match argument with
    | .str s => .ok (.text (pieces s.toList))
    | _ => .error (.transform "@template expects a string" location)
  | .choice =>
    match _h : choiceArgument location argument with
    | .error e => .error e
    | .ok a =>
      match parseAt (location ++ "." ++ a.name) a.subject with
      | .error e => .error e
      | .ok subject =>
        match parseBranch (location ++ ".then") a.yes with
        | .error e => .error e
        | .ok yes =>
          match parseBranch (location ++ ".else") a.no with
          | .error e => .error e
          | .ok no => .ok (.choice a.condition subject yes no)
  | .default =>
    match _h : defaultArgument location argument with
    | .error e => .error e
    | .ok (v, f) =>
      match parseAt (location ++ ".value") v with
      | .error e => .error e
      | .ok value =>
        match parseAt (location ++ ".fallback") f with
        | .error e => .error e
        | .ok fallback => .ok (.default value fallback)
  | .merge =>
    match _h : mergeArgument location argument with
    | .error e => .error e
    | .ok (direction, objects) =>
      match parseItems (location ++ ".objects") 0 objects with
      | .error e => .error e
      | .ok ts => .ok (.merge direction ts)
  | .items =>
    match _h : itemsArgument location argument with
    | .error e => .error e
    | .ok (p, none) => .ok (.items p)
    | .ok (p, some item) =>
      match parseAt (location ++ "[1]") item with
      | .error e => .error e
      | .ok t => .ok (.each p t)
termination_by (sizeOf argument, 1)
decreasing_by
  · left; exact (choiceArgument_sizeOf _h).1
  · left; exact branchSize_lt (choiceArgument_sizeOf _h).2.1
  · left; exact branchSize_lt (choiceArgument_sizeOf _h).2.2
  · left; exact (defaultArgument_sizeOf _h).1
  · left; exact (defaultArgument_sizeOf _h).2
  · left; exact mergeArgument_sizeOf _h
  · left; exact itemsArgument_sizeOf _h

def parseBranch (location : String) (branch : Option Json) : Except Fault Template :=
  match branch with
  | none => .ok .nothing
  | some v => parseAt location v
termination_by (branchSize branch, 1)
decreasing_by right; simp

def parseItems (location : String) (i : Nat) (items : List Json) : Except Fault (List Template) :=
  match items with
  | [] => .ok []
  | v :: rest =>
    match parseAt (location ++ "[" ++ toString i ++ "]") v with
    | .error e => .error e
    | .ok t =>
      match parseItems location (i + 1) rest with
      | .error e => .error e
      | .ok ts => .ok (t :: ts)
termination_by (sizeOf items, 0)
decreasing_by
  · left; simp only [List.cons.sizeOf_spec]; omega
  · left; simp only [List.cons.sizeOf_spec]; omega

def parseMembers (location : String) (members : List (String × Json)) :
    Except Fault (List (String × Template)) :=
  match members with
  | [] => .ok []
  | (k, v) :: rest =>
    match parseAt (location ++ "." ++ k) v with
    | .error e => .error e
    | .ok t =>
      match parseMembers location rest with
      | .error e => .error e
      | .ok ts => .ok ((k, t) :: ts)
termination_by (sizeOf members, 0)
decreasing_by
  · left; simp only [List.cons.sizeOf_spec, Prod.mk.sizeOf_spec]; omega
  · left; simp only [List.cons.sizeOf_spec]; omega

end

def parse (v : Json) : Except Fault Template := parseAt "$" v

end Template

/-- The value that a template, given as a value, builds from a root. -/
def Json.transform (template root : Json) : Except Fault Json :=
  match Template.parse template with
  | .ok t => .ok (t.apply root)
  | .error e => .error e

end EventRouting
