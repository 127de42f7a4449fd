import ChartPackage.Chart.Scan
import ChartPackage.Number.Fixed
import ChartPackage.Number.Leading

/-!
Scene controls, `scenecontrol(time,effect[,value][,a][,b][,c]);`. A statement runs to the first
`);` after its keyword, over line breaks if need be. Only whitelisted effects survive, and a
surviving statement is written with all six arguments and a value with two decimal places.
-/

namespace ChartPackage

/-- The arguments as they stand between the brackets. -/
structure SceneControl where
  time : Text
  effect : Text
  extras : List Text
  deriving DecidableEq

namespace SceneControl

def keyword : Text := "scenecontrol("

def terminator : Text := ");"

/-- The arguments of a statement: two to six of them, the first two not empty. -/
def ofArguments? : List Text → Option SceneControl
  | time :: effect :: extras =>
      if time ≠ [] ∧ effect ≠ [] ∧ extras.length ≤ 4 then some { time, effect, extras } else none
  | _ => none

def parse? (t : Text) : Option (SceneControl × Nat) := do
  let rest ← Text.dropLead? keyword t
  let (inner, _) ← Text.cut? terminator rest
  let control ← ofArguments? (inner.splitOn ',')
  return (control, keyword.length + inner.length + terminator.length)

def extent? (t : Text) : Option Nat := (parse? t).map (·.2)

def trim (argument : Text) : Text := Text.trim isChartBlank argument

/-- The third argument as written back: an absent or empty one stays empty, one with a point stays
as it is, and any other is read as a number and given two decimal places. -/
def value : List Text → Text
  | [] | [] :: _ => []
  | raw :: _ => if '.' ∈ trim raw then trim raw else Fixed.render (Leading.read? (trim raw)) 2

def render (c : SceneControl) : Text :=
  let extra (i : Nat) : Text := trim (c.extras.getD i [])
  keyword ++ [','].intercalate
    [trim c.time, trim c.effect, value c.extras, extra 1, extra 2, extra 3] ++ terminator

/-- Effects must be whitelisted; capitals and quotes rule one out whatever the whitelist says. -/
def Allowed (effects : List Text) (effect : Text) : Prop :=
  effect.any Char.isUpper = false ∧ '"' ∉ effect ∧ '\'' ∉ effect ∧ effect ∈ effects

instance (effects : List Text) (effect : Text) : Decidable (Allowed effects effect) :=
  inferInstanceAs (Decidable (_ ∧ _))

def verdict (effects : List Text) (statement : Text) : Verdict :=
  match parse? statement with
  | none => .keep
  | some (c, _) => if Allowed effects (trim c.effect) then .replace c.render else .delete

end SceneControl
end ChartPackage
