import EventRouting.Members
import EventRouting.Number.Basic

/-!
# JSON values

* `Json`             a value; an object keeps the order of its members
* `Json.beq`         equality of every detail, order of members included
* `Json.induct`      induction with the hypothesis on every item and member
* `Json.WellFormed`  no object has two members of one name
* `Json.kind`        the six kinds of values
-/

namespace EventRouting

/-- A JSON value.  Integers and binary64 numbers are told apart, and members keep their order. -/
inductive Json where
  | null
  | bool (value : Bool)
  | num (value : Number)
  | str (value : String)
  | arr (items : List Json)
  | obj (members : List (String × Json))
deriving Inhabited

namespace Json

def int (i : Int) : Json := .num (.int i)

/-! ## induction -/

mutual

theorem inductAll {p : Json → Prop} (null : p .null) (bool : ∀ b, p (.bool b))
    (num : ∀ n, p (.num n)) (str : ∀ s, p (.str s))
    (arr : ∀ items, (∀ x ∈ items, p x) → p (.arr items))
    (obj : ∀ members, (∀ m ∈ members, p m.2) → p (.obj members)) : ∀ v, p v
  | .null => null
  | .bool b => bool b
  | .num n => num n
  | .str s => str s
  | .arr items => arr items (inductItems null bool num str arr obj items)
  | .obj members => obj members (inductMembers null bool num str arr obj members)

theorem inductItems {p : Json → Prop} (null : p .null) (bool : ∀ b, p (.bool b))
    (num : ∀ n, p (.num n)) (str : ∀ s, p (.str s))
    (arr : ∀ items, (∀ x ∈ items, p x) → p (.arr items))
    (obj : ∀ members, (∀ m ∈ members, p m.2) → p (.obj members)) :
    ∀ items : List Json, ∀ x ∈ items, p x
  | [], _, h => nomatch h
  | v :: rest, x, h => by
    rcases List.mem_cons.1 h with h | h
    · exact h ▸ inductAll null bool num str arr obj v
    · exact inductItems null bool num str arr obj rest x h

theorem inductMembers {p : Json → Prop} (null : p .null) (bool : ∀ b, p (.bool b))
    (num : ∀ n, p (.num n)) (str : ∀ s, p (.str s))
    (arr : ∀ items, (∀ x ∈ items, p x) → p (.arr items))
    (obj : ∀ members, (∀ m ∈ members, p m.2) → p (.obj members)) :
    ∀ members : List (String × Json), ∀ m ∈ members, p m.2
  | [], _, h => nomatch h
  | (k, v) :: rest, m, h => by
    rcases List.mem_cons.1 h with h | h
    · exact h ▸ inductAll null bool num str arr obj v
    · exact inductMembers null bool num str arr obj rest m h

end

/-- Induction on a value, with the hypothesis on every item of a list and every member of an
object. -/
@[elab_as_elim]
theorem induct {p : Json → Prop} (v : Json) (null : p .null) (bool : ∀ b, p (.bool b))
    (num : ∀ n, p (.num n)) (str : ∀ s, p (.str s))
    (arr : ∀ items, (∀ x ∈ items, p x) → p (.arr items))
    (obj : ∀ members, (∀ m ∈ members, p m.2) → p (.obj members)) : p v :=
  inductAll null bool num str arr obj v

/-! ## equality -/

mutual

def beq : Json → Json → Bool
  | .null, .null => true
  | .bool a, .bool b => a == b
  | .num a, .num b => decide (a = b)
  | .str a, .str b => a == b
  | .arr a, .arr b => beqItems a b
  | .obj a, .obj b => beqMembers a b
  | _, _ => false

def beqItems : List Json → List Json → Bool
  | [], [] => true
  | x :: xs, y :: ys => beq x y && beqItems xs ys
  | _, _ => false

def beqMembers : List (String × Json) → List (String × Json) → Bool
  | [], [] => true
  | (k, x) :: xs, (l, y) :: ys => k == l && beq x y && beqMembers xs ys
  | _, _ => false

end

instance : BEq Json := ⟨beq⟩

mutual

theorem eq_of_beq' : ∀ {a b : Json}, beq a b = true → a = b
  | .null, b, h => by cases b <;> simp_all [beq]
  | .bool a, b, h => by cases b <;> simp_all [beq]
  | .num a, b, h => by cases b <;> simp_all [beq]
  | .str a, b, h => by cases b <;> simp_all [beq]
  | .arr a, .arr b, h => by rw [show a = b from eq_of_beqItems (by simpa [beq] using h)]
  | .obj a, .obj b, h => by rw [show a = b from eq_of_beqMembers (by simpa [beq] using h)]
  | .arr a, .null, h => by simp [beq] at h
  | .arr a, .bool _, h => by simp [beq] at h
  | .arr a, .num _, h => by simp [beq] at h
  | .arr a, .str _, h => by simp [beq] at h
  | .arr a, .obj _, h => by simp [beq] at h
  | .obj a, .null, h => by simp [beq] at h
  | .obj a, .bool _, h => by simp [beq] at h
  | .obj a, .num _, h => by simp [beq] at h
  | .obj a, .str _, h => by simp [beq] at h
  | .obj a, .arr _, h => by simp [beq] at h

theorem eq_of_beqItems : ∀ {a b : List Json}, beqItems a b = true → a = b
  | [], [], _ => rfl
  | [], _ :: _, h => by simp [beqItems] at h
  | _ :: _, [], h => by simp [beqItems] at h
  | x :: xs, y :: ys, h => by
    simp only [beqItems, Bool.and_eq_true] at h
    rw [eq_of_beq' h.1, eq_of_beqItems h.2]

theorem eq_of_beqMembers : ∀ {a b : List (String × Json)}, beqMembers a b = true → a = b
  | [], [], _ => rfl
  | [], _ :: _, h => by simp [beqMembers] at h
  | _ :: _, [], h => by simp [beqMembers] at h
  | (k, x) :: xs, (l, y) :: ys, h => by
    simp only [beqMembers, Bool.and_eq_true, beq_iff_eq] at h
    rw [h.1.1, eq_of_beq' h.1.2, eq_of_beqMembers h.2]

end

mutual

theorem beq_refl' : ∀ a : Json, beq a a = true
  | .null => rfl
  | .bool a => by simp [beq]
  | .num a => by simp [beq]
  | .str a => by simp [beq]
  | .arr a => by simp [beq, beqItems_refl a]
  | .obj a => by simp [beq, beqMembers_refl a]

theorem beqItems_refl : ∀ a : List Json, beqItems a a = true
  | [] => rfl
  | x :: xs => by simp [beqItems, beq_refl' x, beqItems_refl xs]

theorem beqMembers_refl : ∀ a : List (String × Json), beqMembers a a = true
  | [] => rfl
  | (_, x) :: xs => by simp [beqMembers, beq_refl' x, beqMembers_refl xs]

end

instance : LawfulBEq Json where
  eq_of_beq := eq_of_beq'
  rfl := beq_refl' _

instance : DecidableEq Json := fun a b =>
  if h : beq a b then isTrue (eq_of_beq' h)
  else isFalse fun e => h (e ▸ beq_refl' a)

/-! ## well-formed values -/

mutual

/-- No object in the value has two members of one name. -/
def WellFormed : Json → Prop
  | .null | .bool _ | .num _ | .str _ => True
  | .arr items => WellFormedItems items
  | .obj members => (members.map (·.1)).Nodup ∧ WellFormedMembers members

def WellFormedItems : List Json → Prop
  | [] => True
  | v :: rest => WellFormed v ∧ WellFormedItems rest

def WellFormedMembers : List (String × Json) → Prop
  | [] => True
  | (_, v) :: rest => WellFormed v ∧ WellFormedMembers rest

end

/-! ## kinds -/

inductive Kind where
  | null
  | boolean
  | number
  | string
  | array
  | object
deriving DecidableEq, Inhabited

def kind : Json → Kind
  | .null => .null
  | .bool _ => .boolean
  | .num _ => .number
  | .str _ => .string
  | .arr _ => .array
  | .obj _ => .object

def Kind.name : Kind → String
  | .null => "null"
  | .boolean => "boolean"
  | .number => "number"
  | .string => "string"
  | .array => "array"
  | .object => "object"

/-- The name of the kind of a value in messages, which tells the two kinds of numbers apart. -/
def kindName : Json → String
  | .null => "NoneType"
  | .bool _ => "bool"
  | .num (.int _) => "int"
  | .num (.float _) => "float"
  | .str _ => "str"
  | .arr _ => "list"
  | .obj _ => "dict"

/-- Null, false, zero and whatever is empty do not count as true. -/
def isTruthy : Json → Bool
  | .null => false
  | .bool b => b
  | .num n => !n.isZero
  | .str s => !s.isEmpty
  | .arr items => !items.isEmpty
  | .obj members => !members.isEmpty

/-- A boolean counts as one or zero where a number is expected. -/
def numeric? : Json → Option Number
  | .num n => some n
  | .bool b => some (.int (if b then 1 else 0))
  | _ => none

/-- The value of a member; other values than objects have none. -/
def member? (v : Json) (key : String) : Option Json :=
  match v with
  | .obj members => Members.get? members key
  | _ => none

/-- The member of an object, or what it is when it is not given. -/
def memberD (v : Json) (key : String) (otherwise : Json) : Json := (v.member? key).getD otherwise

@[simp] theorem member?_obj (members : List (String × Json)) (key : String) :
    (Json.obj members).member? key = Members.get? members key := rfl

end Json

end EventRouting
