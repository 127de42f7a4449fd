import ChartPackage.Chart.Scan
import ChartPackage.Text.Blank

/-!
Timing-group headers, `timinggroup(flags){`. The flags run to the first closing bracket, and
nothing but blanks may stand between it and the brace. A header with a flag that is neither
whitelisted nor a numeric literal loses all its flags.
-/

namespace ChartPackage.TimingGroup

def keyword : Text := "timinggroup("

def cleared : Text := "timinggroup()\x7b"

/-- The text between the brackets of the header at the start of a text, and the blanks behind. -/
def parse? (t : Text) : Option (Text × Text) := do
  let rest ← Text.dropLead? keyword t
  let (inner, after) ← Text.cut? ")" rest
  match after.span isChartBlank with
  | (gap, '{' :: _) => some (inner, gap)
  | _ => none

def extent? (t : Text) : Option Nat :=
  (parse? t).map fun (inner, gap) => keyword.length + inner.length + 1 + gap.length + 1

def isNumericLiteral (flag : Text) : Bool :=
  flag ≠ [] ∧ flag.all fun c => c.isDigit || c == '_' || c == '.'

def isValidFlag (flags : List Text) (flag : Text) : Bool :=
  flags.contains flag || isNumericLiteral flag

def verdict (flags : List Text) (statement : Text) : Verdict :=
  match parse? statement with
  | none => .keep
  | some (inner, _) =>
      if (inner.splitOn ',').all fun flag =>
        isValidFlag flags (Text.trim isChartBlank flag) then .keep
      else if statement = cleared then .keep
      else .replace cleared

end ChartPackage.TimingGroup
