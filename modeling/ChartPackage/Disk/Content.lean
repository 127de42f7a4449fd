import ChartPackage.Disk.Path

/-!
What a file holds: plain bytes, a picture of which only the size and the format count, or an
archive with the members it lists.
-/

namespace ChartPackage

inductive PictureFormat where
  | png
  | jpeg
  deriving DecidableEq

/-- The format that a file name announces. -/
def PictureFormat.ofName? (name : Text) : Option PictureFormat :=
  match Path.extension? name with
  | none => none
  | some extension =>
      if Text.sameIgnoringCase extension "png" then some .png
      else if Text.sameIgnoringCase extension "jpg" ∨
        Text.sameIgnoringCase extension "jpeg" then some .jpeg
      else none

inductive Content where
  | bytes (bytes : List UInt8)
  | picture (width height : Nat) (format : PictureFormat)
  /-- Members by name in the order they are stored. -/
  | archive (members : List (Text × Content))

end ChartPackage
