import RegisterBank.Parameter.Mode

/-!
# Parameter environments

An `Environment` gives each defined name a value, or no value, in every mode. A later definition of
a name hides an earlier one.
-/

namespace RegisterBank

structure PerMode (α : Type) where
  value : α
  min : α
  max : α
  deriving DecidableEq, Repr

namespace PerMode

variable {α : Type}

/-- The same thing for every mode. -/
def constant (a : α) : PerMode α :=
  ⟨a, a, a⟩

def get (p : PerMode α) : Mode → α
  | .value => p.value
  | .min => p.min
  | .max => p.max

/-- Another thing for one mode. -/
def set (p : PerMode α) (mode : Mode) (a : α) : PerMode α :=
  match mode with
  | .value => { p with value := a }
  | .min => { p with min := a }
  | .max => { p with max := a }

@[simp] theorem get_constant (a : α) (mode : Mode) : (constant a).get mode = a := by
  cases mode <;> rfl

@[simp] theorem get_set_self (p : PerMode α) (mode : Mode) (a : α) :
    (p.set mode a).get mode = a := by
  cases mode <;> rfl

theorem get_set_of_ne (p : PerMode α) {mode other : Mode} (a : α) (h : other ≠ mode) :
    (p.set mode a).get other = p.get other := by
  cases mode <;> cases other <;> simp_all [get, set]

end PerMode

/-- The values of names, the latest definition first. -/
structure Environment where
  bindings : List (String × PerMode (Option Int)) := []
  deriving DecidableEq, Repr

namespace Environment

/-- The values of a name in all modes, when it is defined. -/
def find? (env : Environment) (name : String) : Option (PerMode (Option Int)) :=
  env.bindings.lookup name

/-- What a name stands for in a mode. -/
def lookup (env : Environment) (mode : Mode) (name : String) : Lookup :=
  match env.find? name with
  | none => .undefined
  | some values =>
    match values.get mode with
    | some v => .known v
    | none => .unavailable

/-- Gives a name its values in all modes. -/
def define (env : Environment) (name : String) (values : PerMode (Option Int)) : Environment :=
  ⟨(name, values) :: env.bindings⟩

/-- Gives a name the same value in every mode. -/
def insert (env : Environment) (name : String) (value : Int) : Environment :=
  env.define name (.constant (some value))

/-- Changes the value of a name in one mode. A name that was undefined has no value in the other
modes. -/
def insertMode (env : Environment) (name : String) (mode : Mode) (value : Option Int) :
    Environment :=
  env.define name (((env.find? name).getD (.constant none)).set mode value)

@[simp] theorem find?_define_self (env : Environment) (name : String)
    (values : PerMode (Option Int)) : (env.define name values).find? name = some values := by
  simp [define, find?]

theorem find?_define_of_ne (env : Environment) {name other : String}
    (values : PerMode (Option Int)) (h : other ≠ name) :
    (env.define name values).find? other = env.find? other := by
  have h' : (other == name) = false := by simpa using h
  simp [define, find?, List.lookup_cons, h']

end Environment

end RegisterBank
