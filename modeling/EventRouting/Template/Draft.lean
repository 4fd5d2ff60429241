import EventRouting.Json.Basic

/-!
# Drafts

A draft is a value in which items and members may be missing.  A template resolves to a draft, and the
draft settles to a value without what is missing.

* `Draft`            a value with holes
* `Draft.settle`     the value without the holes, if it is more than a hole
* `Draft.isAbsent`, `Draft.isBlank`   the questions that templates ask
* `Draft.members?`   the members of a draft of an object
-/

namespace EventRouting

/-- A value in which items and members may be missing. -/
inductive Draft where
  | absent
  | value (v : Json)
  | list (items : List Draft)
  | object (members : List (String × Draft))
deriving Inhabited

namespace Draft

def ofOption : Option Json → Draft
  | some v => value v
  | none => absent

def kindName : Draft → String
  | absent => "undefined"
  | value v => v.kind.name
  | list _ => Json.Kind.array.name
  | object _ => Json.Kind.object.name

mutual

/-- The value of a draft without what is missing in it. -/
def settle : Draft → Option Json
  | absent => none
  | value v => some v
  | list items => some (.arr (settleItems items))
  | object members => some (.obj (settleMembers members))

def settleItems : List Draft → List Json
  | [] => []
  | d :: rest =>
    match settle d with
    | some v => v :: settleItems rest
    | none => settleItems rest

def settleMembers : List (String × Draft) → List (String × Json)
  | [] => []
  | (k, d) :: rest =>
    match settle d with
    | some v => (k, v) :: settleMembers rest
    | none => settleMembers rest

end

theorem settleItems_eq (items : List Draft) : settleItems items = items.filterMap settle := by
  induction items with
  | nil => rfl
  | cons d rest ih => rw [settleItems, List.filterMap_cons]; cases settle d <;> simp [ih]

theorem settleMembers_eq (members : List (String × Draft)) :
    settleMembers members = members.filterMap fun m => (settle m.2).map fun v => (m.1, v) := by
  induction members with
  | nil => rfl
  | cons m rest ih =>
    obtain ⟨k, d⟩ := m
    rw [settleMembers, List.filterMap_cons]
    cases settle d <;> simp [ih]

def isAbsent : Draft → Bool
  | absent => true
  | value .null => true
  | _ => false

def isBlank : Draft → Bool
  | value (.str s) => s.isEmpty
  | d => d.isAbsent

def members? : Draft → Option (List (String × Draft))
  | value (.obj members) => some (members.map fun m => (m.1, value m.2))
  | object members => some members
  | _ => none

end Draft

end EventRouting
