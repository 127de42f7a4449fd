import ChartPackage.Number.Power
import ChartPackage.Number.Shortest

/-!
Numbers with a fixed count of decimal places, rounded on the exact value, a tie away from zero.
From `10 ^ 21` on numbers are written with an exponent instead, in their shortest form.
-/

namespace ChartPackage.Fixed

open scoped Power

/-- Units from which on a number is written with an exponent. -/
def exponentThreshold : Nat := 10 ^ (21 : Nat) * Binary64.unitsPerOne

/-- Digits after the point that every double can be written with. -/
def exactPlaces : Nat := 1074

def whole (units : Nat) : Text := Numeral.ofNat (units / Binary64.unitsPerOne)

def fraction (units : Nat) : Text :=
  Numeral.padLeft exactPlaces
    (Numeral.ofNat (units % Binary64.unitsPerOne * 10 ^ exactPlaces / Binary64.unitsPerOne))

def truncated (units places : Nat) : Text :=
  let kept := min places (fraction units).length
  whole units ++ (fraction units).take kept ++ List.replicate (places - kept) '0'

/-- The digits of a magnitude with `places` of them after the point, rounded by the first digit left
out. -/
def rounded (units places : Nat) : Text :=
  let kept := min places (fraction units).length
  if (fraction units)[kept]?.any ('5' ≤ ·) then Numeral.addOne
    (truncated units places) else truncated units places

def positional (units places : Nat) : Text :=
  let digits := rounded units places
  let split := digits.length - places
  digits.take split ++ (if places = 0 then [] else '.' :: digits.drop split)

/-- One digit, the others after a point, and the exponent with its plus sign. -/
def scientific (units : Nat) : Text :=
  let s := Shortest.ofUnits units
  let rest := s.digits.drop 1
  s.digits.take 1 ++ (if rest = [] then [] else '.' :: rest) ++ "e+" ++ Numeral.ofInt (s.point - 1)

/-- A number with `places` decimal places. A missing number is `NaN`; a minus sign stands before
every number below zero, so not before negative zero. -/
def render (value : Option Binary64) (places : Nat) : Text :=
  match value with
  | none | some .nan => "NaN"
  | some (.infinite negative) => if negative then "-Infinity" else "Infinity"
  | some (.finite negative units _) =>
      (if negative ∧ 0 < units then ['-'] else []) ++
        if exponentThreshold ≤ units then scientific units else positional units places

end ChartPackage.Fixed
