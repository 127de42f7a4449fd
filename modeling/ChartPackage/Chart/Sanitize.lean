import ChartPackage.Chart.Arc
import ChartPackage.Chart.SceneControl
import ChartPackage.Chart.TimingGroup

/-!
Sanitizing a chart: blanks are taken out of every line, scene controls are checked and rebuilt,
blank lines go, timing-group flags are checked and degenerate arcs repaired, in this order, each
stage on the text of the one before. Text that is no statement passes through.
-/

namespace ChartPackage

/-- The words that scene controls and timing groups may use. -/
structure Whitelists where
  sceneControls : List Text :=
    ["trackdisplay", "redline", "arcahvdistort", "arcahvdebris", "hidegroup", "enwidencamera",
      "enwidenlanes"]
  timingGroups : List Text := ["anglex", "angley", "noinput", "fadingholds"]
  deriving DecidableEq

/-- What was done to the statements of a chart. -/
structure Tally where
  kept : Nat := 0
  removed : Nat := 0
  cleared : Nat := 0
  repaired : Nat := 0
  deriving DecidableEq

def Tally.add (a b : Tally) : Tally where
  kept := a.kept + b.kept
  removed := a.removed + b.removed
  cleared := a.cleared + b.cleared
  repaired := a.repaired + b.repaired

instance : Add Tally := ⟨Tally.add⟩

namespace Chart

/-- A chart and what was done to it so far. -/
abbrev Stage := Text → Text × Tally

def stripBlanks (t : Text) : Text :=
  Text.unlines ((Text.lines t).map fun line => line.filter fun c => !isChartBlank c)

/-- The chart without its blank lines. What follows the last line break stays, so that a final
line break survives behind some content. -/
def dropBlankLines (t : Text) : Text :=
  let lines := Text.lines t
  Text.unlines (lines.dropLast.filter (fun line => !line.all isChartBlank) ++
    lines.drop (lines.length - 1))

def sceneControls (t : Text) : Tiling := scan SceneControl.keyword SceneControl.extent? t

def timingGroups (t : Text) : Tiling := scan TimingGroup.keyword TimingGroup.extent? t

def arcs (t : Text) : Tiling := scan Arc.keyword Arc.extent? t

/-- Every scene control rebuilt, or deleted if its effect is not allowed. -/
def rebuildSceneControls (allowed : Whitelists) : Stage := fun t =>
  let verdict := SceneControl.verdict allowed.sceneControls
  let tiling := sceneControls t
  (tiling.judged verdict,
    { kept := tiling.count verdict (· ≠ .delete), removed := tiling.count verdict (· = .delete) })

def clearTimingGroups (allowed : Whitelists) : Stage := fun t =>
  let verdict := TimingGroup.verdict allowed.timingGroups
  let tiling := timingGroups t
  (tiling.judged verdict, { cleared := tiling.count verdict (· ≠ .keep) })

def repairArcs : Stage := fun t =>
  let tiling := arcs t
  (tiling.judged Arc.verdict, { repaired := tiling.count Arc.verdict (· ≠ .keep) })

def sanitize (allowed : Whitelists) : Stage := fun t =>
  let (t, scene) := rebuildSceneControls allowed (stripBlanks t)
  let (t, timing) := clearTimingGroups allowed (dropBlankLines t)
  let (t, arc) := repairArcs t
  (t, scene + timing + arc)

end Chart
end ChartPackage
