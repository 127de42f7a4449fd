/-!
Powers of whole numbers. Where this is open they are those of the numbers themselves, also if the
numbers are known to form a monoid.
-/

namespace ChartPackage.Power

scoped instance (priority := high) natPow : Pow Nat Nat := instPowNat

scoped instance (priority := high) intPow : Pow Int Nat := instPowNat

end ChartPackage.Power
