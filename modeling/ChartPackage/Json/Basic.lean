import ChartPackage.Number.Numeral

/-!
JSON values. A number is kept as it is written, so that its readers can tell `1` from `1.0` and
work to their own precision.
-/

namespace ChartPackage

inductive Json.ExponentSign where
  | absent
  | plus
  | minus
  deriving DecidableEq

/-- A number as written: the digits before the point, those after one, and the exponent. -/
structure Json.Literal where
  negative : Bool
  whole : Text
  fraction : Option Text
  exponent : Option (Json.ExponentSign × Text)
  deriving DecidableEq

/-- A value. A string or a key is `none` if it has an escape that names no character. Members may
share a key. -/
inductive Json where
  | null
  | bool (b : Bool)
  | number (literal : Json.Literal)
  | string (content : Option Text)
  | array (items : List Json)
  | object (members : List (Option Text × Json))

namespace Json

def text (t : Text) : Json := .string (some t)

def member (key : Text) (value : Json) : Option Text × Json := (some key, value)

def int (n : Int) : Json :=
  .number { negative := n < 0, whole := Numeral.ofNat n.natAbs, fraction := none, exponent := none }

def nat (n : Nat) : Json := int n

end Json
end ChartPackage
