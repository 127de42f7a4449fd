import ChartPackage.Json.Basic
import ChartPackage.Number.Power
import ChartPackage.Number.Shortest

/-!
Doubles in JSON. They are written in the shortest form that names them. They are read fast rather
than exactly: the leading digits that fit 64 bits are rounded to a double, and that is multiplied
or divided by rounded powers of ten.
-/

namespace ChartPackage.Json

open scoped Power

/-- Places of the decimal point for which a double is written without an exponent. -/
def positional (point : Int) : Bool := -5 < point && point ≤ 16

def Literal.ofShortest (negative : Bool) (s : Shortest) : Literal :=
  let zeros (n : Int) : Text := List.replicate n.toNat '0'
  if positional s.point then
    if s.point ≤ 0 then
      { negative, whole := ['0'], fraction := some (zeros (-s.point) ++ s.digits),
        exponent := none }
    else
      let split := s.point.toNat
      let rest := s.digits.drop split
      { negative, whole := s.digits.take split ++ zeros (s.point - s.digits.length),
        fraction := some (if rest = [] then ['0'] else rest), exponent := none }
  else
    let rest := s.digits.drop 1
    let exponent := s.point - 1
    { negative, whole := s.digits.take 1, fraction := if rest = [] then none else some rest,
      exponent := some (if exponent < 0 then .minus else .plus, Numeral.ofNat exponent.natAbs) }

/-- A double; those that are no number are written as `null`. -/
def double : Binary64 → Json
  | .finite negative units _ => .number (.ofShortest negative (Shortest.ofUnits units))
  | .infinite _ | .nan => .null

namespace FastDouble
open Binary64

def ofNat (n : Nat) : Nat := nearestUnits (n * unitsPerOne) 1

def powerOfTen (n : Nat) : Nat := ofNat (10 ^ n)

def times (a b : Nat) : Nat := nearestUnits (a * b) unitsPerOne

def dividedBy (a b : Nat) : Nat := nearestUnits (a * unitsPerOne) b

/-- Adds digits to a significand as long as it stays within 64 bits; gives also how many it took
and how many it left. -/
def gather (significand : Nat) : Text → Nat × Nat × Nat
  | [] => (significand, 0, 0)
  | d :: digits =>
      let next := 10 * significand + Numeral.digitValue d
      if next < 2 ^ (64 : Nat) then
        let (significand, taken, left) := gather next digits
        (significand, taken + 1, left)
      else (significand, 0, digits.length + 1)

/-- Division by a power of ten, at most `10 ^ 308` at a time. -/
def scaleDown (units places : Nat) : Nat :=
  if places ≤ 308 then dividedBy units (powerOfTen places)
  else if units = 0 then 0
  else scaleDown (dividedBy units (powerOfTen 308)) (places - 308)
  termination_by places

/-- A significand moved by a power of ten; nothing beyond the range of doubles. -/
def scale? (significand : Nat) (exponent : Int) : Option Nat :=
  let units := ofNat significand
  if exponent < 0 then some (scaleDown units (-exponent).toNat)
  else if exponent ≤ 308 then
    let units := times units (powerOfTen exponent.toNat)
    if units < unitsLimit then some units else none
  else if units = 0 then some 0
  else none

def clampExponent (n : Int) : Int := max (-2 ^ (31 : Nat)) (min n (2 ^ (31 : Nat) - 1))

def units? (l : Literal) : Option Nat :=
  let (significand, _, left) := gather 0 l.whole
  let (significand, taken, _) := gather significand (l.fraction.getD [])
  let start : Int := (left : Int) - taken
  match l.exponent with
  | none => scale? significand start
  | some (sign, digits) =>
      let size := Numeral.value digits
      if 2 ^ (31 : Nat) ≤ size then
        if significand ≠ 0 ∧ sign ≠ .minus then none else some 0
      else scale? significand (clampExponent (if sign = .minus then start - size else start + size))

end FastDouble

/-- The double a literal is read as; nothing if it is out of range. -/
def Literal.toBinary64? (l : Literal) : Option Binary64 :=
  (FastDouble.units? l).map (.ofUnits l.negative)

end ChartPackage.Json
