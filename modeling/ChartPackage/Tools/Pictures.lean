import ChartPackage.Job

/-!
Measuring and resizing pictures. A picture can be read if its content has the format that its name
announces; a resized picture has the format that the name of the target announces.
-/

namespace ChartPackage.Pictures

def measure (p : Path) (d : Disk) : Option (Nat × Nat) :=
  match d.read p with
  | .ok (.picture width height format) =>
      if p.fileName?.bind PictureFormat.ofName? = some format then some (width, height) else none
  | _ => none

def sideLimit : Nat := 65535

def unwritable (width height : Nat) : Text :=
  Text.phrase ["Format error encoding Jpeg:\nInvalid image size (", Numeral.ofNat width, " x ",
    Numeral.ofNat height, ") to encode as JPEG: width and height must be >= 1 and <= 65535"]

def put (target : Path) (content : Content) : Job σ Unit :=
  (Job.onDisk (.change (Disk.write target content))).adapt fun
    | .disk cause => .image cause.message
    | other => other

/-- Writes a picture of exactly this size. A size that cannot be written leaves an empty target. -/
def resize (source target : Path) (width height : Nat) : Job σ Unit := do
  match ← Job.look (measure source) with
  | none => throw (.image "The image could not be read")
  | some _ =>
      match target.fileName?.bind PictureFormat.ofName? with
      | none => throw (.image "The image format could not be determined")
      | some format =>
          if 1 ≤ min width height ∧ max width height ≤ sideLimit then
            put target (.picture width height format)
          else do
            put target (.bytes [])
            throw (.image (unwritable width height))

end ChartPackage.Pictures
