import RegisterBank.Parameter.Basic

/-!
# Resolving parameters

The fields of parameters may mention each other in any order of declaration. In each mode a
`Worklist` counts for every parameter how many mentions of others it waits for, and evaluates those
that wait for none, in the order in which they became ready. When nothing is ready any more, the
parameters that still wait depend on a cycle. A field whose evaluation fails leaves its parameter
without a value in that mode, and is reported only where the value is needed.
-/

namespace RegisterBank

/-- How often the field for a mode mentions one of the given parameters. -/
def Parameter.mentions (params : List Parameter) (mode : Mode) (p : Parameter) : Nat :=
  (p.references mode).countP fun name => params.any (·.name == name)

namespace Environment

/-- The value of the parameter's field for a mode, when it has one. -/
def fieldValue (env : Environment) (mode : Mode) (p : Parameter) : Option Int :=
  match p.field mode with
  | some formula => (formula.eval env mode).toOption
  | none => none

/-- The work on one mode. -/
structure Worklist where
  env : Environment
  /-- How many mentions every parameter waits for, in order of declaration. -/
  pending : List (Parameter × Nat)
  /-- The parameters that wait for none and have not been evaluated yet. -/
  ready : List Parameter

namespace Worklist

/-- At the start nothing has been evaluated, and every mention of a parameter is waited for. -/
def start (params : List Parameter) (mode : Mode) (env : Environment) : Worklist where
  env
  pending := params.map fun p => (p, p.mentions params mode)
  ready := params.filter fun p => p.mentions params mode == 0

/-- The parameters that wait for nothing else than mentions of the name. -/
def releasedBy (w : Worklist) (mode : Mode) (name : String) : List Parameter :=
  (w.pending.filter fun e => e.2 != 0 && e.2 == (e.1.references mode).count name).map Prod.fst

/-- Gives a parameter its value. Nothing waits for the mentions of it any more. -/
def evaluate (mode : Mode) (w : Worklist) (p : Parameter) (rest : List Parameter) : Worklist where
  env := w.env.insertMode p.name mode (w.env.fieldValue mode p)
  pending := w.pending.map fun e => (e.1, e.2 - (e.1.references mode).count p.name)
  ready := rest ++ w.releasedBy mode p.name

/-- Evaluates up to `steps` parameters. -/
def run (mode : Mode) : (steps : Nat) → Worklist → Worklist
  | 0, w => w
  | steps + 1, w =>
    match w.ready with
    | [] => w
    | p :: rest => run mode steps (w.evaluate mode p rest)

/-- The parameters that wait for mentions, in order of declaration. -/
def waiting (w : Worklist) : List Parameter :=
  (w.pending.filter (·.2 != 0)).map Prod.fst

end Worklist

/-- The error of parameters that depend on a cycle; it shows the field of the first of them. -/
def cycleError (mode : Mode) (first : Parameter) (rest : List Parameter) : Error :=
  let source := ((first.field mode).map (·.source)).getD ""
  .expression source source (.cycle mode (first.name :: rest.map (·.name)))

/-- The environment with the values of all parameters for one mode. -/
def resolveMode (params : List Parameter) (env : Environment) (mode : Mode) :
    Except Error Environment :=
  let w := (Worklist.start params mode env).run mode params.length
  match w.waiting with
  | [] => .ok w.env
  | first :: rest => .error (cycleError mode first rest)

/-- The first name that an earlier parameter has too. -/
def repeatedName? : (seen : List String) → List Parameter → Option String
  | _, [] => none
  | seen, p :: rest =>
    if seen.contains p.name then some p.name else repeatedName? (p.name :: seen) rest

/-- The environment in which every parameter is defined and has no value. -/
def declared (params : List Parameter) : Environment :=
  ⟨params.map fun p => (p.name, .constant none)⟩

/-- The values of parameters whose fields may mention each other. -/
def resolve (params : List Parameter) : Except Error Environment :=
  match repeatedName? [] params with
  | some name => .error (.configuration (.repeatedParameter name))
  | none => Mode.all.foldlM (resolveMode params) (declared params)

end Environment

end RegisterBank
