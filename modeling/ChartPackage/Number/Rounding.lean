/-!
Quotients of natural numbers rounded to a whole number, by each of the two rules for ties.
-/

namespace ChartPackage.Rounding

/-- The quotient `num / den` to the nearest whole number, a tie upward. -/
def halfUp (num den : Nat) : Nat := (2 * num + den) / (2 * den)

/-- The quotient `num / den` to the nearest whole number, a tie to the even neighbour. -/
def halfEven (num den : Nat) : Nat :=
  let floor := num / den
  let rest := num % den
  if 2 * rest < den then floor
  else if den < 2 * rest then floor + 1
  else floor + floor % 2

end ChartPackage.Rounding
