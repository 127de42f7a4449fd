import ChartPackage.Chart.Scan
import ChartPackage.Number.Numeral

/-!
Arcs, `arc(start,end,x1,x2,easing,y1,y2,color,fx,skyline)`: ten arguments of fixed shapes without
any blanks. The game cannot play an arc whose two times are written alike, so such an arc ends one
tick later.
-/

namespace ChartPackage

inductive Shape where
  | integer
  | decimal
  | word
  deriving DecidableEq

def Shape.accepts : Shape → Char → Bool
  | .integer, c => c.isDigit
  | .decimal, c => c.isDigit || c == '.'
  | .word, c => c.isAlphanum || c == '_'

/-- The arguments as they are written: the two times, and the eight others. -/
structure Arc where
  start : Text
  finish : Text
  others : List Text
  deriving DecidableEq

namespace Arc

def keyword : Text := "arc("

def otherShapes : List Shape :=
  [.decimal, .decimal, .word, .decimal, .decimal, .integer, .word, .word]

/-- A nonempty argument of a shape with a separator behind it, and the text after that. -/
def argument? (shape : Shape) (separator : Char) (t : Text) : Option (Text × Text) :=
  match t.span shape.accepts with
  | ([], _) => none
  | (argument, c :: rest) => if c = separator then some (argument, rest) else none
  | (_, []) => none

/-- Arguments of these shapes, commas between them and a closing bracket after the last. -/
def arguments? : List Shape → Text → Option (List Text × Text)
  | [], t => some ([], t)
  | shape :: shapes, t => do
      let (argument, rest) ← argument? shape (if shapes = [] then ')' else ',') t
      let (arguments, rest) ← arguments? shapes rest
      return (argument :: arguments, rest)

def parse? (t : Text) : Option (Arc × Text) := do
  let rest ← Text.dropLead? keyword t
  let (start, rest) ← argument? .integer ',' rest
  let (finish, rest) ← argument? .integer ',' rest
  let (others, rest) ← arguments? otherShapes rest
  return ({ start, finish, others }, rest)

def extent? (t : Text) : Option Nat := (parse? t).map fun (_, rest) => t.length - rest.length

def render (a : Arc) : Text :=
  keyword ++ [','].intercalate (a.start :: a.finish :: a.others) ++ ")"

def Degenerate (a : Arc) : Prop := a.start = a.finish

instance (a : Arc) : Decidable a.Degenerate := inferInstanceAs (Decidable (_ = _))

/-- The arc that ends one tick after the time written as its end. -/
def repaired (a : Arc) : Arc := { a with finish := Numeral.successor a.finish }

def verdict (statement : Text) : Verdict :=
  match parse? statement with
  | none => .keep
  | some (a, _) => if a.Degenerate then .replace a.repaired.render else .keep

end Arc
end ChartPackage
