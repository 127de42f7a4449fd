import ChartPackage.Conversion.Places
import ChartPackage.Crew
import ChartPackage.Settings

/-!
The jackets of a song: two sizes of the first square picture in the project folder. Pictures that
cannot be read or are not square are passed over.
-/

namespace ChartPackage.Conversion

/-- Makes both jackets of one picture, which goes unless it is a jacket itself. -/
def makeJacketsOf (crew : Crew σ) (s : Settings) (project : Path) (name : Text) : Job σ Unit := do
  let source := project.join name
  crew.resize source (project.join jacketName) s.jacketSize s.jacketSize
  crew.resize source (project.join thumbnailName) s.thumbnailSize s.thumbnailSize
  unless downloadNames.contains name do Job.onDisk (Disk.Act.delete source)

/-- Makes the jackets of the first square picture among those named, and gives its name. -/
def makeJacketsFrom (crew : Crew σ) (s : Settings) (project : Path) :
    List Text → Job σ (Option Text)
  | [] => pure none
  | name :: names => do
      match ← crew.measured (project.join name) with
      | some (width, height) =>
          if width = height then do
            makeJacketsOf crew s project name
            return some name
          else makeJacketsFrom crew s project names
      | none => makeJacketsFrom crew s project names

def makeJackets (crew : Crew σ) (s : Settings) (project : Path) : Job σ (Option Text) := do
  let names ← Job.onDisk (Disk.Act.filesWithExtension pictureExtensions project)
  makeJacketsFrom crew s project names

end ChartPackage.Conversion
