import ChartPackage.Text.Basic

/-!
TOML values and tables. A table remembers how it came to be, since that decides what may still be
added to it: a header may add to a table that other headers only passed through, dotted keys to
one that dotted keys made, and nothing to one that is written in full.
-/

namespace ChartPackage

/-- How a table came to be. -/
inductive Toml.Origin where
  /-- Written in full between braces. -/
  | inlined
  /-- Opened by a header of its own. -/
  | header
  /-- On the way of a header. -/
  | passed
  /-- On the way of a dotted key. -/
  | dotted
  deriving DecidableEq

/-- A value. Of numbers with a point and of dates and times nothing but their kind is kept. -/
inductive Toml where
  | string (text : Text)
  | integer (n : Int)
  | float
  | boolean (b : Bool)
  | moment
  | array (items : List Toml)
  /-- The tables under a doubled header, the last first. -/
  | tables (items : List (List (Text × Toml)))
  | table (origin : Toml.Origin) (entries : List (Text × Toml))

namespace Toml

abbrev Entries := List (Text × Toml)

/-- The entries with the value of `key` replaced, or added if there is none. -/
def put (key : Text) (value : Toml) : Entries → Entries
  | [] => [(key, value)]
  | (k, v) :: entries => if k = key then (key, value) :: entries else (k, v) ::
    put key value entries

/-- Adds a value under a dotted key. The tables on the way must not be written in full or have a
header of their own, of several under a doubled header the last is taken, the one that takes the
value must be made by dotted keys, and its key must be new. -/
def assign (entries : Entries) (value : Toml) : List Text → Option Entries
  | [] => none
  | [key] => if (entries.lookup key).isSome then none else some (put key value entries)
  | key :: path =>
      match entries.lookup key with
      | none => (assign [] value path).map fun inner => put key (.table .dotted inner) entries
      | some (.table origin inner) =>
          if origin = .dotted ∨ (origin = .passed ∧ path.length ≠ 1) then
            (assign inner value path).map fun inner => put key (.table origin inner) entries
          else none
      | some (.tables (inner :: others)) =>
          if path.length ≠ 1 then
            (assign inner value path).map fun inner => put key (.tables (inner :: others)) entries
          else none
      | some _ => none

/-- Changes the table that a header leads to. On the way, tables that are missing are made and the
last of several is taken; what is not a table made by headers or dotted keys bars the way. -/
def descend (last : Option Toml → Option Toml) (entries : Entries) : List Text → Option Entries
  | [] => none
  | [key] => (last (entries.lookup key)).map fun value => put key value entries
  | key :: path =>
      match entries.lookup key with
      | none => (descend last [] path).map fun inner => put key (.table .passed inner) entries
      | some (.table origin inner) =>
          if origin = .inlined then none
          else (descend last inner path).map fun inner => put key (.table origin inner) entries
      | some (.tables (inner :: others)) =>
          (descend last inner path).map fun inner => put key (.tables (inner :: others)) entries
      | some _ => none

/-- Opens the table of a header, which must be new or so far only passed through. -/
def openTable : Option Toml → Option Toml
  | none => some (.table .header [])
  | some (.table .passed inner) => some (.table .header inner)
  | some _ => none

def openNext : Option Toml → Option Toml
  | none => some (.tables [[]])
  | some (.tables items) => some (.tables ([] :: items))
  | some _ => none

def assignIn (key : List Text) (value : Toml) : Option Toml → Option Toml
  | some (.table origin inner) => (assign inner value key).map (.table origin)
  | some (.tables (inner :: others)) => (assign inner value key).map fun inner =>
    .tables (inner :: others)
  | _ => none

end Toml
end ChartPackage
