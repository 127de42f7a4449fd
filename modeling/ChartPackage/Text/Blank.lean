/-!
The two classes of blank characters. Descriptors, answers and numbers are trimmed of Unicode
`White_Space`; charts count the byte-order mark as blank and the next-line character as ink.
-/

namespace ChartPackage

/-- The Unicode property `White_Space`. -/
def isBlank (c : Char) : Bool :=
  let n := c.toNat
  (0x09 ≤ n && n ≤ 0x0D) || n == 0x20 || n == 0x85 || n == 0xA0 || n == 0x1680 ||
    (0x2000 ≤ n && n ≤ 0x200A) || n == 0x2028 || n == 0x2029 || n == 0x202F || n == 0x205F ||
    n == 0x3000

/-- The characters a chart may hold anywhere without meaning. -/
def isChartBlank (c : Char) : Bool :=
  (isBlank c && c != '\u0085') || c == '\uFEFF'

end ChartPackage
