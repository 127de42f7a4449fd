import ChartPackage.Number.Power
import ChartPackage.Number.Rounding

/-!
Double-precision numbers. A finite double is a sign and a whole number of units of `2 ^ (-1074)`,
the least positive double; 53 significant bits limit which numbers of units there are. Every
rounding to a double goes through `nearestUnits`.
-/

namespace ChartPackage

open scoped Power

namespace Binary64

def unitsPerOne : Nat := 2 ^ (1074 : Nat)

def unitsLimit : Nat := 2 ^ (2098 : Nat)

/-- Trailing bits that 53 significant bits leave no room for. -/
def lostBits (units : Nat) : Nat := units.log2 - 52

def Representable (units : Nat) : Prop :=
  units % 2 ^ lostBits units = 0 ∧ units < unitsLimit

instance (units : Nat) : Decidable (Representable units) :=
  inferInstanceAs (Decidable (_ ∧ _))

/-- The units nearest to `num / den` that fit 53 significant bits, a tie to the even significand.
The result may lie beyond the limit. -/
def nearestUnits (num den : Nat) : Nat :=
  let step := 2 ^ lostBits (num / den)
  Rounding.halfEven num (den * step) * step

end Binary64

open Binary64 in
/-- A double-precision number; not-a-number has no payload. -/
inductive Binary64 where
  | nan
  | infinite (negative : Bool)
  | finite (negative : Bool) (units : Nat) (representable : Representable units)
  deriving DecidableEq

namespace Binary64

/-- The finite double of so many units, infinity beyond the limit. -/
def ofUnits (negative : Bool) (units : Nat) : Binary64 :=
  if h : Representable units then .finite negative units h else .infinite negative

def ofQuotient (negative : Bool) (num den : Nat) : Binary64 :=
  ofUnits negative (nearestUnits (num * unitsPerOne) den)

def isNaN : Binary64 → Bool
  | nan => true
  | _ => false

/-- The double with these 64 bits: sign, eleven bits of exponent, 52 bits of fraction. -/
def ofBits (bits : Nat) : Binary64 :=
  let negative := bits / 2 ^ (63 : Nat) % 2 == 1
  let exponent := bits / 2 ^ (52 : Nat) % 2 ^ (11 : Nat)
  let fraction := bits % 2 ^ (52 : Nat)
  if exponent = 2047 then
    if fraction = 0 then .infinite negative else .nan
  else if exponent = 0 then ofUnits negative fraction
  else ofUnits negative ((2 ^ (52 : Nat) + fraction) * 2 ^ (exponent - 1))

def magnitudeBits (units : Nat) : Nat :=
  if units < 2 ^ (52 : Nat) then units
  else lostBits units * 2 ^ (52 : Nat) + units / 2 ^ lostBits units

/-- The 64 bits of a double; not-a-number is the quiet one without a sign. -/
def toBits : Binary64 → Nat
  | .nan => 0x7FF8000000000000
  | .infinite negative => (if negative then 2 ^ (63 : Nat) else 0) + 0x7FF0000000000000
  | .finite negative units _ => (if negative then 2 ^ (63 : Nat) else 0) + magnitudeBits units

end Binary64
end ChartPackage
