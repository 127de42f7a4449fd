import ChartPackage.Text.Basic

/-!
Paths as they are written: names with slashes between them. Empty segments and dots lead nowhere,
but for a dot in front of a relative path, which counts as a name of its own.
-/

namespace ChartPackage

abbrev Path := Text

namespace Path

def segments (p : Path) : List Text := p.splitOn '/'

def IsAbsolute (p : Path) : Prop := p.head? = some '/'

instance (p : Path) : Decidable p.IsAbsolute := inferInstanceAs (Decidable (_ = _))

def ofNames (names : List Text) : Path := '/' :: ['/'].intercalate names

/-- A segment that leads nowhere. -/
def isIdle (segment : Text) : Bool := segment == [] || segment == ['.']

/-- The segments up to the last that leads anywhere. -/
def settle : List Text → List Text
  | [] => []
  | first :: rest =>
      match (rest.reverse.dropWhile isIdle).reverse with
      | [] => if first = [] then [] else [first]
      | rest => first :: rest

/-- The path without its last name. The root and the empty path have none to lose. -/
def parent? (p : Path) : Option Path :=
  match settle p.segments with
  | [] => none
  | segments =>
      match settle segments.dropLast with
      | [] => some (if p.IsAbsolute then ['/'] else [])
      | segments => some (['/'].intercalate segments)

def ancestors (p : Path) : List Path := go (p.length + 1) p
where
  go : Nat → Path → List Path
    | 0, _ => []
    | fuel + 1, p => p :: ((parent? p).map (go fuel)).getD []

def fileName? (p : Path) : Option Text :=
  match (settle p.segments).getLast? with
  | none => none
  | some name => if name = ['.'] ∨ name = ['.', '.'] then none else some name

/-- What the last segment says, slashes at the end aside. -/
def lastSegment (p : Path) : Text := ((p.segments.filter (· ≠ [])).getLast?).getD []

/-- A path taken from another one; an absolute path stays what it is. -/
def join (base p : Path) : Path :=
  if p.IsAbsolute ∨ base = [] then p
  else if base.getLast? = some '/' then base ++ p
  else base ++ '/' :: p

/-- What follows the last point of a file name that has one behind its first character. -/
def extension? (name : Text) : Option Text :=
  let (behind, before) := name.reverse.span (· ≠ '.')
  match before with
  | [] | ['.'] => none
  | _ => if name = ['.', '.'] then none else some behind.reverse

end Path
end ChartPackage
