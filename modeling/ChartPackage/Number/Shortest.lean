import ChartPackage.Number.Binary64
import ChartPackage.Number.Numeral
import ChartPackage.Number.Power

/-!
The shortest decimal that reads back as a given double. The candidates with `n` digits are the
two neighbours of the double on the grid of decimals with `n` digits; the first grid with a
neighbour inside the rounding interval of the double wins, and of two such neighbours the nearer,
a tie going to the even one.
-/

namespace ChartPackage

open scoped Power

/-- Digits without trailing zeros, to be read as `0.digits * 10 ^ point`. -/
structure Shortest where
  digits : Text
  point : Int

namespace Shortest
open Binary64

/-- Place of the leading digit: the least `point` with `units < unitsPerOne * 10 ^ point`. -/
def leadingPlace (units : Nat) : Int :=
  (Numeral.ofNat (units * 10 ^ (400 : Nat) / unitsPerOne)).length - 400

def upscale (place : Int) : Nat := 10 ^ (-place).toNat

/-- One multiple of `10 ^ place`, in units and upscaled. -/
def spacing (place : Int) : Nat := unitsPerOne * 10 ^ place.toNat

/-- Whether `n` multiples of `10 ^ place` read back as the double of so many units: they lie within
half a step of it, or a quarter below a power of two, ends included for an even significand. -/
def readsBack (units : Nat) (place : Int) (n : Nat) : Bool :=
  let step := 2 ^ lostBits units * upscale place
  let exact := units * upscale place
  let candidate := n * spacing place
  let within (gap : Nat) := if units / 2 ^ lostBits units % 2 = 0 then gap ≤ step else gap < step
  if exact ≤ candidate then within (2 * (candidate - exact))
  else if units = 2 ^ units.log2 ∧ 0 < lostBits units then within (4 * (exact - candidate))
  else within (2 * (exact - candidate))

/-- The multiple of `10 ^ place` next to the double that reads back, the nearer of two. -/
def onGrid? (units : Nat) (place : Int) : Option Nat :=
  let exact := units * upscale place
  let below := exact / spacing place
  match readsBack units place below, readsBack units place (below + 1) with
  | true, true => some (Rounding.halfEven exact (spacing place))
  | true, false => some below
  | false, true => some (below + 1)
  | false, false => none

/-- A whole number and the place of its last digit, as few digits as read back. Seventeen digits
always suffice, and the exact expansion stands for the case that they did not. -/
def nearest (units : Nat) : Nat × Int :=
  let point := leadingPlace units
  let hit := (List.range' 1 17).findSome? fun (count : Nat) =>
    (onGrid? units (point - count)).map fun n => (n, point - count)
  hit.getD (units * 5 ^ (1074 : Nat), -1074)

def ofUnits (units : Nat) : Shortest :=
  if units = 0 then { digits := ['0'], point := 1 }
  else
    let digits := Numeral.ofNat (nearest units).1
    { digits := Text.trimRight (· == '0') digits, point := digits.length + (nearest units).2 }

end Shortest
end ChartPackage
