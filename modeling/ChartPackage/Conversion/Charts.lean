import ChartPackage.Conversion.Outcome
import ChartPackage.Conversion.Places
import ChartPackage.Crew
import ChartPackage.Song.Rating
import ChartPackage.Text.Blank

/-!
The charts of a song. A single chart is sanitized and copied under the name of each class; several
charts keep their text and get the names that the user gives them.
-/

namespace ChartPackage.Conversion

/-- The charts in a folder, in the order of names. -/
def chartNames (project : Path) : Disk.Act (List Text) := Disk.Act.look fun d => do
  let names ← d.list project
  return names.filter fun name => Text.endsWith chartExtension name && d.isFile (project.join name)

def copyChart (project : Path) (name : Text) : Disk.Act Unit :=
  RatingClass.all.forM fun c =>
    if c.chartName = name then pure ()
    else .change (Disk.copy (project.join name) (project.join c.chartName))

def sanitizeChart (allowed : Whitelists) (project : Path) (name : Text) :
    Disk.Act ChartOutcome := do
  let path := project.join name
  let text ← .look (·.readText path)
  let (sanitized, tally) := Chart.sanitize allowed text
  .change (Disk.write path (.bytes (Utf8.encode sanitized)))
  copyChart project name
  return .sanitized name (RatingClass.all.map RatingClass.chartName) tally

def refusal? (d : Disk) (project : Path) (chart name : Text) : Option Text :=
  if name = [] then some "name is empty"
  else if Path.fileName? name ≠ some name then some "name must be a plain file name"
  else if name ≠ chart ∧
    d.isTaken (project.join name) then some "a file with that name already exists"
  else none

/-- Gives a chart its new name, blanks around it aside. -/
def renameChart (crew : Crew σ) (project : Path) (chart name : Text) : Job σ (Text × Text) := do
  let name := Text.trim isBlank name
  if let some reason ← Job.look (refusal? · project chart name) then
    throw (.renameRefused chart name reason)
  (Job.onDisk (.change (Disk.rename (project.join chart) (project.join name)))).adapt fun
    | .disk cause => .renameRefused chart name cause.message
    | other => other
  crew.tell (Text.phrase ["Renamed ", chart, " to ", name])
  return (chart, name)

def renameCharts (crew : Crew σ) (project : Path) (charts names : List Text) :
    Job σ ChartOutcome := do
  if names.length ≠ charts.length then
    throw (.prompt (Text.phrase ["expected ", Numeral.ofNat charts.length, " chart names, got ",
      Numeral.ofNat names.length]))
  return .renamed (← (charts.zip names).mapM fun (chart, name) =>
    renameChart crew project chart name)

def askForNames (crew : Crew σ) (project : Path) (charts : List Text) : Job σ ChartOutcome := do
  crew.tell "Multiple .aff files found!"
  (charts.zipIdx 1).forM fun (name, i) => crew.tell (Text.phrase [Numeral.ofNat i, ". ", name])
  let names ← Job.ask (crew.prompter.chartNames charts)
  renameCharts crew project charts names

def processCharts (crew : Crew σ) (allowed : Whitelists) (project : Path) : Job σ ChartOutcome := do
  match ← Job.onDisk (chartNames project) with
  | [] => throw (.noChart project)
  | [name] => Job.onDisk (sanitizeChart allowed project name)
  | charts => askForNames crew project charts

end ChartPackage.Conversion
