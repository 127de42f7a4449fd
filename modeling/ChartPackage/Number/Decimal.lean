import ChartPackage.Number.Binary64
import ChartPackage.Number.Numeral
import ChartPackage.Number.Power

/-!
Decimal notation with a power of ten, and the double it denotes. Exponents far outside the range
of doubles are decided by size alone, so that no power of them is ever computed.
-/

namespace ChartPackage

open scoped Power

/-- The number `± coefficient * 10 ^ exponent`. -/
structure Decimal where
  negative : Bool
  coefficient : Nat
  exponent : Int

structure Decimal.Parts where
  negative : Bool
  whole : Text
  fraction : Text
  exponent : Int

def Decimal.ofParts (p : Decimal.Parts) : Decimal where
  negative := p.negative
  coefficient := Numeral.value (p.whole ++ p.fraction)
  exponent := p.exponent - p.fraction.length

/-- The nearest double, ties to even; infinity on overflow, and zero keeps the sign. -/
def Decimal.toBinary64 (d : Decimal) : Binary64 :=
  if d.coefficient = 0 then .ofUnits d.negative 0
  else if 310 < d.exponent then .infinite d.negative
  else if d.exponent + d.coefficient.log2 + 1 < -330 then .ofUnits d.negative 0
  else if 0 ≤ d.exponent then .ofQuotient d.negative (d.coefficient * 10 ^ d.exponent.toNat) 1
  else .ofQuotient d.negative d.coefficient (10 ^ (-d.exponent).toNat)

end ChartPackage
