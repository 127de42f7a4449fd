import ChartPackage.Fault
import ChartPackage.Text.Blank

/-!
The descriptor of a project: one `key: value` pair a line. Reading never fails; a line without a
colon, or with nothing but blanks on one side of the first colon, is skipped, and of several
values for one key the last counts.
-/

namespace ChartPackage

/-- The pairs by key; the first pair with a key is the one that counts. -/
structure Descriptor where
  pairs : List (Text × Text)
  deriving DecidableEq

namespace Descriptor

def pair? (line : Text) : Option (Text × Text) := do
  let (key, value) ← Text.cut? ":" line
  let key := Text.trim isBlank key
  let value := Text.trim isBlank value
  if key = [] ∨ value = [] then none else some (key, value)

def get? (d : Descriptor) (key : Text) : Option Text := d.pairs.lookup key

/-- The descriptor with `value` for `key` in place of any value before. -/
def set (d : Descriptor) (key value : Text) : Descriptor :=
  ⟨(key, value) :: d.pairs.filter (·.1 ≠ key)⟩

@[simp] theorem get?_set (d : Descriptor) (key value other : Text) :
    (d.set key value).get? other = if other = key then some value else d.get? other := by
  by_cases h : other = key
  · simp [set, get?, h]
  · simp only [set, get?, List.lookup_cons, h, if_false, beq_eq_false_iff_ne.2 h]
    induction d.pairs with
    | nil => rfl
    | cons p ps ih =>
        obtain ⟨k, v⟩ := p
        by_cases hk : k = key
        · simpa [hk, List.lookup_cons, beq_eq_false_iff_ne.2 h] using ih
        · by_cases ho : other = k
          · simp [hk, ho]
          · simpa [hk, List.lookup_cons, beq_eq_false_iff_ne.2 ho] using ih

def parse (t : Text) : Descriptor :=
  ((Text.lines t).filterMap pair?).foldl (fun d (key, value) => d.set key value) ⟨[]⟩

def contains (d : Descriptor) (key : Text) : Bool := (d.get? key).isSome

def size (d : Descriptor) : Nat := d.pairs.length

def require (d : Descriptor) (key : Text) : Except Fault Text :=
  match d.get? key with
  | some value => .ok value
  | none => .error (.missingKey key)

end Descriptor
end ChartPackage
