import EventRouting.World.Basic

/-!
# Runs

A strand is a run as far as the world does not matter: it asks one thing after the other and ends with a
value.

* `Strand`          a run
* `Strand.bind`     one run after another
* `Strand.run`      a run in a world, as far as it goes
* `Strand.runAll`   runs in a world, one after the other
* `Strand.inOrder`  runs as one run
-/

namespace EventRouting

/-- A run that asks the world for things and ends with a value. -/
inductive Strand (α : Type) where
  | done (a : α)
  | perform (op : Op) (next : op.Answer → Strand α)

namespace Strand

variable {α β : Type}

def bind : Strand α → (α → Strand β) → Strand β
  | done a, f => f a
  | perform op next, f => perform op fun answer => (next answer).bind f

instance : Monad Strand where
  pure := done
  bind := bind

def request (op : Op) : Strand op.Answer := perform op done

/-- A run in a world, as far as it goes. -/
def run (partner : Partner) : Strand α → World → World × Strand α
  | done a, w => (w, done a)
  | perform op next, w =>
    match w.perform partner op with
    | none => (w, perform op next)
    | some (w, answer) => (next answer).run partner w

def result? : Strand α → Option α
  | done a => some a
  | perform .. => none

def runAll (partner : Partner) : List (Strand α) → World → World × List (Strand α)
  | [], w => (w, [])
  | s :: rest, w =>
    let (w, s) := s.run partner w
    let (w, rest) := runAll partner rest w
    (w, s :: rest)

/-- Runs as one run, one after the other. -/
def inOrder : List (Strand α) → Strand (List α)
  | [] => done []
  | s :: rest => s.bind fun a => (inOrder rest).bind fun all => done (a :: all)

/-! ## laws -/

@[simp] theorem done_bind (a : α) (f : α → Strand β) : (done a).bind f = f a := rfl

@[simp] theorem bind_done (s : Strand α) : s.bind done = s := by
  induction s with
  | done a => rfl
  | perform op next ih => simp [bind, ih]

theorem bind_assoc {γ : Type} (s : Strand α) (f : α → Strand β) (g : β → Strand γ) :
    (s.bind f).bind g = s.bind fun a => (f a).bind g := by
  induction s with
  | done a => rfl
  | perform op next ih => simp [bind, ih]

@[simp] theorem pure_eq (a : α) : (pure a : Strand α) = done a := rfl

@[simp] theorem bind_eq (s : Strand α) (f : α → Strand β) : (s >>= f) = s.bind f := rfl

@[simp] theorem run_done (partner : Partner) (a : α) (w : World) :
    (done a).run partner w = (w, done a) := rfl

end Strand

/-- A run that may fail. -/
abbrev Attempt (α : Type) := ExceptT Fault Strand α

namespace Attempt

variable {α : Type}

def ofExcept (e : Except Fault α) : Attempt α := Strand.done e

def outcome (a : Attempt α) : Strand (Except Fault α) := a

end Attempt

end EventRouting
