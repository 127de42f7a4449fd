import ChartPackage.Number.Decimal
import ChartPackage.Text.Blank

/-!
Lenient reading of a number: the longest lead of a text, after blanks, that is a decimal number
or an infinity. What follows it is ignored, so `180bpm` reads as 180.
-/

namespace ChartPackage.Leading

def sign : Text → Bool × Text
  | '-' :: rest => (true, rest)
  | '+' :: rest => (false, rest)
  | t => (false, t)

def digits (t : Text) : Text × Text := t.span Char.isDigit

/-- The fraction digits after a point in front, and the text after them. Without a point, and
where the point would be the number's only character, there are none. -/
def fraction (whole : Text) : Text → Text × Text
  | '.' :: rest =>
      let (fraction, after) := digits rest
      if whole = [] ∧ fraction = [] then ([], '.' :: rest) else (fraction, after)
  | t => ([], t)

/-- The exponent in front; a marker without a digit after it is none. -/
def exponent : Text → Int
  | c :: rest =>
      if c = 'e' ∨ c = 'E' then
        let (negative, rest) := sign rest
        let size : Int := Numeral.value (digits rest).1
        if negative then -size else size
      else 0
  | [] => 0

/-- The parts of the decimal number in front, of which at least one digit is required. -/
def parts? (negative : Bool) (t : Text) : Option Decimal.Parts :=
  let (whole, rest) := digits t
  let (fraction, rest) := fraction whole rest
  if whole = [] ∧ fraction = [] then none
  else some { negative, whole, fraction, exponent := exponent rest }

def read? (t : Text) : Option Binary64 :=
  let (negative, rest) := sign (Text.trimLeft isBlank t)
  if ("Infinity".toList).isPrefixOf rest then some (.infinite negative)
  else (parts? negative rest).map fun p => (Decimal.ofParts p).toBinary64

end ChartPackage.Leading
