import ChartPackage.Conversion.Charts
import ChartPackage.Conversion.Pictures
import ChartPackage.Conversion.Track
import ChartPackage.Song.File

/-!
The whole conversion of a package into the two folders of a song. The steps run in a fixed order
and the first failure ends the run; what the steps before it made stays where it is.
-/

namespace ChartPackage.Conversion

/-- Gives the package the name of an archive, or copies it there, and unpacks the archive. -/
def unpack (crew : Crew σ) (s : Settings) (places : Places) : Job σ Unit := do
  if s.keepPackage then Job.onDisk (.change (Disk.copy places.package places.archive))
  else Job.onDisk (.change (Disk.rename places.package places.archive))
  crew.unpack places.archive places.workFolder

def findProject (places : Places) : Job σ Path := do
  match ← Job.onDisk (Disk.Act.firstFolder? places.workFolder) with
  | some project => return project
  | none => throw (.noProject places.workFolder)

def writeSongList (now : Int64) (project : Path) : Job σ Text := do
  let folder := project.fileName?.getD []
  let path := project.join descriptorName
  unless ← Job.look (·.isFile path) do throw (.noDescriptor project)
  let text ← Job.onDisk (.look (·.readText path))
  match SongEntry.ofDescriptor (Descriptor.parse text) folder now with
  | .error fault => throw fault
  | .ok song =>
      if song.id = [] then throw (.emptySongId folder)
      Job.onDisk (.change (song.save (project.join songListName)))
      return song.id

def publishDownloads (project folder : Path) : Disk.Act Unit := do
  Disk.Act.ensureFolders folder
  let _ ← Disk.Act.moveContents downloadNames.contains project folder

/-- Deletes what only the editor of the project needs. -/
def discardSources (project : Path) : Disk.Act Unit := do
  let names ← Disk.Act.look (·.list project)
  (names.filter fun name => name == descriptorName || Text.endsWith ".json" name).forM fun name =>
    Disk.Act.delete (project.join name)

/-- Deletes the unpacked archive, the archive and, unless it is kept, the package. -/
def cleanUp (s : Settings) (places : Places) : Disk.Act Unit := do
  Disk.Act.delete places.workFolder
  Disk.Act.delete places.archive
  unless s.keepPackage do Disk.Act.delete places.package

def run (crew : Crew σ) (s : Settings) (allowed : Whitelists) (now : Int64) (package : Path) :
    Job σ Outcome := do
  let places := Places.ofPackage package s.outputFolder
  unpack crew s places
  let project ← findProject places
  let songId ← writeSongList now project
  let jacketSource ← makeJackets crew s project
  let trackSource ← makeTrack crew project
  makePreview crew s project
  let downloadFolder := places.downloadFolder songId
  Job.onDisk (publishDownloads project downloadFolder)
  let contentFolder := places.contentFolder songId
  Job.onDisk (Disk.Act.ensureFolders contentFolder)
  Job.onDisk (discardSources project)
  let charts ← processCharts crew allowed project
  let _ ← Job.onDisk (Disk.Act.moveContents (fun _ => true) project contentFolder)
  Job.onDisk (cleanUp s places)
  return { songId, downloadFolder, contentFolder, jacketSource, trackSource, charts }

end ChartPackage.Conversion
