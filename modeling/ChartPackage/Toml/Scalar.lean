import ChartPackage.Number.Decimal
import ChartPackage.Number.Power

/-!
The unquoted scalars of TOML: truth values, whole numbers in four bases, numbers with a point or an
exponent, and dates and times. Each is recognised from its whole spelling.
-/

namespace ChartPackage.Toml

open scoped Power

/-- The digits of a number whose underscores stand between two digits each. -/
def ungroup? (isDigit : Char → Bool) (t : Text) : Option Text :=
  let groups := t.splitOn '_'
  if groups.all fun group => group ≠ [] ∧ group.all isDigit then some groups.flatten else none

def digitIn (base : Nat) (c : Char) : Option Nat :=
  let n :=
    if c.isDigit then c.toNat - '0'.toNat
    else if 'a' ≤ c ∧ c ≤ 'f' then c.toNat - 'a'.toNat + 10
    else if 'A' ≤ c ∧ c ≤ 'F' then c.toNat - 'A'.toNat + 10
    else base
  if n < base then some n else none

def natIn? (base : Nat) (t : Text) : Option Nat :=
  (ungroup? (fun c => (digitIn base c).isSome) t).map
    (·.foldl (fun n c => base * n + (digitIn base c).getD 0) 0)

def decimalDigits? (t : Text) : Option Text := do
  let digits ← ungroup? Char.isDigit t
  if digits.head? = some '0' ∧ digits ≠ ['0'] then none else some digits

def signed : Text → Bool × Text
  | '-' :: rest => (true, rest)
  | '+' :: rest => (false, rest)
  | t => (false, t)

/-- A whole number of at most 128 bits; only decimal ones take a sign. -/
def integer? (t : Text) : Option Int := do
  let n : Int ← match t with
    | '0' :: 'x' :: digits => (natIn? 16 digits).map Int.ofNat
    | '0' :: 'o' :: digits => (natIn? 8 digits).map Int.ofNat
    | '0' :: 'b' :: digits => (natIn? 2 digits).map Int.ofNat
    | _ =>
        let (negative, digits) := signed t
        (decimalDigits? digits).map fun digits =>
          if negative then -(Numeral.value digits : Int) else Numeral.value digits
  if -2 ^ (127 : Nat) ≤ n ∧ n < 2 ^ (128 : Nat) then some n else none

/-- Whether a text spells a number with a point or an exponent, within the range of doubles, an
infinity or no number. -/
def isFloat (t : Text) : Bool :=
  let (negative, body) := signed t
  if body = "inf".toList ∨ body = "nan".toList then true
  else
    let (mantissa, exponent) := body.span fun c => c ≠ 'e' ∧ c ≠ 'E'
    let (whole, fraction) := mantissa.span (· ≠ '.')
    let parts : Option Decimal.Parts := do
      if exponent = [] ∧ fraction = [] then none
      let whole ← decimalDigits? whole
      let fraction ← if fraction = [] then some [] else ungroup? Char.isDigit (fraction.drop 1)
      let exponent : Int ←
        if exponent = [] then some 0
        else
          let (below, digits) := signed (exponent.drop 1)
          (ungroup? Char.isDigit digits).map fun digits =>
            if below then -(Numeral.value digits : Int) else Numeral.value digits
      return { negative, whole, fraction, exponent }
    match parts with
    | none => false
    | some parts =>
        match (Decimal.ofParts parts).toBinary64 with
        | .infinite _ => false
        | _ => true

def fixedDigits? (count : Nat) (t : Text) : Option Nat :=
  if t.length = count ∧ t.all Char.isDigit then some (Numeral.value t) else none

def daysIn (year month : Nat) : Nat :=
  if month = 2 then (if year % 4 = 0 ∧ (year % 100 ≠ 0 ∨ year % 400 = 0) then 29 else 28)
  else if month = 4 ∨ month = 6 ∨ month = 9 ∨ month = 11 then 30
  else 31

/-- A date such as `2024-02-29`. -/
def isDate (t : Text) : Bool :=
  match t.splitOn '-' with
  | [year, month, day] =>
      match fixedDigits? 4 year, fixedDigits? 2 month, fixedDigits? 2 day with
      | some year, some month, some day =>
          1 ≤ month && month ≤ 12 && 1 ≤ day && day ≤ daysIn year month
      | _, _, _ => false
  | _ => false

/-- A time such as `23:59:60.5`, with a fraction of any length or none, or as `23:59`. -/
def isTime (t : Text) : Bool :=
  let (clock, fraction) := t.span (· ≠ '.')
  let fractionOk := fraction = [] || (fraction.length ≠ 1 && (fraction.drop 1).all Char.isDigit)
  match (clock.splitOn ':').mapM (fixedDigits? 2) with
  | some [hour, minute, second] => hour ≤ 23 && minute ≤ 59 && second ≤ 60 && fractionOk
  | some [hour, minute] => hour ≤ 23 && minute ≤ 59 && fraction = []
  | _ => false

/-- An offset: `Z` or a distance such as `+09:00`. -/
def isOffset : Text → Bool
  | ['Z'] | ['z'] => true
  | sign :: distance =>
      (sign == '+' || sign == '-') &&
        match distance.splitOn ':' with
        | [hour, minute] =>
            match fixedDigits? 2 hour, fixedDigits? 2 minute with
            | some hour, some minute => hour ≤ 23 && minute ≤ 59
            | _, _ => false
        | _ => false
  | [] => false

def isMoment (t : Text) : Bool :=
  isDate t || isTime t ||
    (isDate (t.take 10) &&
      match t.drop 10 with
      | mark :: rest =>
          let (time, offset) := rest.span fun c => c.isDigit || c == ':' || c == '.'
          (mark == 'T' || mark == 't' || mark == ' ') && isTime time &&
            (offset = [] || isOffset offset)
      | [] => false)

end ChartPackage.Toml
