/-!
Texts as lists of characters, and the ways of cutting them that the readers share: taking a known
lead or tail off, cutting at the first occurrence of a mark, and trimming a class of characters.
-/

namespace ChartPackage

abbrev Text := List Char

instance : Coe String Text := ⟨String.toList⟩

namespace Text

def phrase (parts : List Text) : Text := parts.flatten

/-- What follows `lead` in a text that starts with it. -/
def dropLead? : Text → Text → Option Text
  | [], t => some t
  | _ :: _, [] => none
  | c :: lead, d :: t => if c = d then dropLead? lead t else none

theorem dropLead?_eq_some_iff {lead t rest : Text} :
    dropLead? lead t = some rest ↔ t = lead ++ rest := by
  induction lead generalizing t with
  | nil => simp [dropLead?]
  | cons c lead ih =>
      cases t with
      | nil => simp [dropLead?]
      | cons d t =>
          by_cases h : c = d
          · simp [dropLead?, h, ih]
          · simp [dropLead?, h, Ne.symm h]

def dropTail? (tail t : Text) : Option Text :=
  (dropLead? tail.reverse t.reverse).map List.reverse

/-- The text before and the text after the first occurrence of `mark`. -/
def cut? (mark : Text) : Text → Option (Text × Text)
  | [] => (dropLead? mark []).map ([], ·)
  | c :: t =>
      match dropLead? mark (c :: t) with
      | some rest => some ([], rest)
      | none => (cut? mark t).map fun (before, after) => (c :: before, after)

theorem eq_of_cut? {mark t before after : Text} (h : cut? mark t = some (before, after)) :
    t = before ++ mark ++ after := by
  induction t generalizing before with
  | nil =>
      obtain ⟨rest, hrest, heq⟩ := Option.map_eq_some_iff.1 h
      cases heq
      simpa using dropLead?_eq_some_iff.1 hrest
  | cons c t ih =>
      rw [cut?] at h
      split at h
      · next rest hrest =>
          cases h
          simpa using dropLead?_eq_some_iff.1 hrest
      · obtain ⟨⟨b, a⟩, hcut, heq⟩ := Option.map_eq_some_iff.1 h
        cases heq
        simpa using ih hcut

def trimLeft (blank : Char → Bool) (t : Text) : Text := t.dropWhile blank

def trimRight (blank : Char → Bool) (t : Text) : Text := (t.reverse.dropWhile blank).reverse

/-- The text without its longest lead and its longest tail of blank characters. -/
def trim (blank : Char → Bool) (t : Text) : Text := trimRight blank (trimLeft blank t)

/-- The lines of a text; a line break ends a line and belongs to none. -/
def lines (t : Text) : List Text := t.splitOn '\n'

def unlines (ls : List Text) : Text := ['\n'].intercalate ls

/-- The order by code points, in which the entries of a folder are listed. -/
def inOrder : Text → Text → Bool
  | [], _ => true
  | _ :: _, [] => false
  | c :: s, d :: t => if c = d then inOrder s t else c.toNat ≤ d.toNat

def endsWith (tail t : Text) : Bool := (dropTail? tail t).isSome

def sameIgnoringCase (a b : Text) : Bool := a.map Char.toLower == b.map Char.toLower

end Text
end ChartPackage
