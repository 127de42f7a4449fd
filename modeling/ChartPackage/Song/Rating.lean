import ChartPackage.Number.Numeral
import ChartPackage.Number.Power

/-!
Difficulty: the three classes that a song is offered in, and the level that a difficulty text
names.
-/

namespace ChartPackage

open scoped Power

inductive RatingClass where
  | past
  | present
  | future
  deriving DecidableEq

namespace RatingClass

def all : List RatingClass := [.past, .present, .future]

def index : RatingClass → Nat
  | .past => 0
  | .present => 1
  | .future => 2

def ofIndex? (n : Nat) : Option RatingClass := all.find? (·.index = n)

def shortName : RatingClass → Text
  | .past => "PST"
  | .present => "PRS"
  | .future => "FTR"

def chartName (c : RatingClass) : Text := Numeral.ofNat c.index ++ ".aff"

theorem ofIndex?_index (c : RatingClass) : ofIndex? c.index = some c := by cases c <;> rfl

end RatingClass

/-- A level, if there is one, and the mark for the upper half of a level. -/
structure Rating where
  level : Option UInt64
  plus : Bool
  deriving DecidableEq

/-- The level is what the digits of the text spell, if they spell a number of at most 64 bits; a
plus sign anywhere sets the mark. -/
def Rating.parse (t : Text) : Rating where
  level :=
    let digits := t.filter Char.isDigit
    if digits ≠ [] ∧ Numeral.value digits <
      2 ^ (64 : Nat) then some (.ofNat (Numeral.value digits)) else none
  plus := t.contains '+'

end ChartPackage
