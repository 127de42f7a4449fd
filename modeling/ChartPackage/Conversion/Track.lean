import ChartPackage.Conversion.Places
import ChartPackage.Crew
import ChartPackage.Settings

/-!
The track of a song and its preview. The track is made of the first audio file under another name,
if there is one; the preview is cut out of the track.
-/

namespace ChartPackage.Conversion

def asTrackFault : Fault → Fault
  | .transcoding target reason => .transcoding target reason
  | other => .transcoding trackName other.message

def asPreviewFault : Fault → Fault
  | .transcoding _ reason => .preview reason
  | other => .preview other.message

/-- Makes the track of another audio file, which goes, and gives its name. -/
def makeTrack (crew : Crew σ) (project : Path) : Job σ (Option Text) := do
  let names ← Job.onDisk (Disk.Act.filesWithExtension audioExtensions project)
  match names.find? (· ≠ trackName) with
  | none => return none
  | some name =>
      let source := project.join name
      (crew.transcode source (project.join trackName)).adapt asTrackFault
      Job.onDisk (Disk.Act.delete source)
      return some name

def makePreview (crew : Crew σ) (s : Settings) (project : Path) : Job σ Unit := do
  let track := project.join trackName
  unless ← Job.look (·.isFile track) do throw (.noAudio trackName)
  let start ← Job.ask crew.prompter.previewStart
  let clip : Clip := { start, length := s.previewLength, fade := s.fadeLength }
  (crew.clip track (project.join previewName) clip).adapt asPreviewFault

end ChartPackage.Conversion
