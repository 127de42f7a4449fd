import ChartPackage.Json.Double
import ChartPackage.Number.Power

/-!
Reading values of known types out of JSON. Nothing is coerced: a whole number is one without point
and exponent, and a record is an object with its fields by name, each at most once, or a list of
its fields in order. Members of an object with other names are ignored.
-/

namespace ChartPackage.Json

open scoped Power

def text? : Json → Option Text
  | .string content => content
  | _ => none

def bool? : Json → Option Bool
  | .bool b => some b
  | _ => none

def int? : Json → Option Int
  | .number { negative, whole, fraction := none, exponent := none } =>
      let n := Numeral.value whole
      if negative then (if n = 0 then none else some (-n)) else some n
  | _ => none

def natBelow? (limit : Nat) (j : Json) : Option Nat := do
  let n ← int? j
  if 0 ≤ n ∧ n.toNat < limit then some n.toNat else none

def uint32? (j : Json) : Option UInt32 := (natBelow? (2 ^ (32 : Nat)) j).map UInt32.ofNat

def uint64? (j : Json) : Option UInt64 := (natBelow? (2 ^ (64 : Nat)) j).map UInt64.ofNat

def int64? (j : Json) : Option Int64 := do
  let n ← int? j
  if -2 ^ (63 : Nat) ≤ n ∧ n < 2 ^ (63 : Nat) then some (Int64.ofInt n) else none

def double? : Json → Option Binary64
  | .number literal => literal.toBinary64?
  | _ => none

def nullable? (read : Json → Option α) : Json → Option (Option α)
  | .null => some none
  | j => (read j).map some

def list? (read : Json → Option α) : Json → Option (List α)
  | .array items => items.mapM read
  | _ => none

/-- The member with a key, `none` inside if there is none; nothing if there are several. -/
def member? (members : List (Option Text × Json)) (key : Text) : Option (Option Json) :=
  match members.filter (·.1 = some key) with
  | [] => some none
  | [(_, value)] => some (some value)
  | _ => none

/-- The fields of a record by their names. In a list, the last `omissible` may be missing. -/
def fields? (names : List Text) (omissible : Nat) : Json → Option (List (Option Json))
  | .object members =>
      if members.all (·.1.isSome) then names.mapM (member? members) else none
  | .array items =>
      if items.length ≤ names.length ∧ names.length ≤ items.length + omissible then
        some (items.map some ++ List.replicate (names.length - items.length) none)
      else none
  | _ => none

def required? (read : Json → Option α) (field : Option Json) : Option α := field.bind read

def optional? (read : Json → Option α) : Option Json → Option (Option α)
  | none => some none
  | some j => nullable? read j

end ChartPackage.Json
