import ChartPackage.Text.Basic

/-!
Decimal numerals: the number that a run of digits denotes, and the digits of a number.
-/

namespace ChartPackage.Numeral

def digitValue (c : Char) : Nat := c.toNat - '0'.toNat

/-- The number that a run of ASCII digits denotes; no digits denote zero. -/
def value (digits : Text) : Nat := digits.foldl (fun n c => 10 * n + digitValue c) 0

def ofNat (n : Nat) : Text := Nat.toDigits 10 n

/-- One more in the last place, with nines turned into zeros on the way to it, and whether a one is
carried out of the first. -/
def carryOne : Text → Bool × Text
  | [] => (true, [])
  | c :: rest =>
      match carryOne rest with
      | (false, rest) => (false, c :: rest)
      | (true, rest) => if c = '9' then (true, '0' :: rest) else
        (false, Char.ofNat (c.toNat + 1) :: rest)

/-- One more, with a place in front for a one that is carried out of the first. -/
def addOne (digits : Text) : Text :=
  match carryOne digits with
  | (true, rest) => '1' :: rest
  | (false, rest) => rest

def successor (digits : Text) : Text := addOne (digits.dropWhile (· = '0'))

def ofInt (n : Int) : Text := if n < 0 then '-' :: ofNat n.natAbs else ofNat n.natAbs

def padLeft (width : Nat) (digits : Text) : Text :=
  List.replicate (width - digits.length) '0' ++ digits

/-- The value of a whole-number answer below `limit`: an optional plus sign, then digits only. -/
def readBelow? (limit : Nat) (t : Text) : Option Nat :=
  let digits := match t with
    | '+' :: rest => rest
    | _ => t
  if digits ≠ [] ∧ digits.all Char.isDigit ∧ value digits < limit then some (value digits) else none

end ChartPackage.Numeral
