import ChartPackage.Chart.Sanitize
import ChartPackage.Disk.Path
import ChartPackage.Number.Numeral
import ChartPackage.Text.Style

/-!
What came of a conversion, and how it is told on a terminal.
-/

namespace ChartPackage.Conversion

inductive ChartOutcome where
  /-- The only chart, sanitized and copied under the name of each class. -/
  | sanitized (source : Text) (copies : List Text) (tally : Tally)
  /-- Several charts, each with its new name. -/
  | renamed (names : List (Text × Text))
  deriving DecidableEq

structure Outcome where
  songId : Text
  downloadFolder : Path
  contentFolder : Path
  /-- The picture that the jackets were made of. -/
  jacketSource : Option Text
  /-- The audio file that the track was made of. -/
  trackSource : Option Text
  charts : ChartOutcome
  deriving DecidableEq

namespace Outcome

open Style

def completionMessage (o : Outcome) : Text :=
  Text.phrase ["Processing complete. Files are saved in ", o.downloadFolder, " and ",
    o.contentFolder]

def chartLines : ChartOutcome → List Text
  | .sanitized source copies tally =>
      [Text.phrase ["  Chart:    ", source, " -> ", green (", ".toList.intercalate copies)],
        Text.phrase ["            scenecontrol ", Numeral.ofNat tally.kept, " kept / ",
          red (Numeral.ofNat tally.removed), " removed, timinggroup ",
          yellow (Numeral.ofNat tally.cleared), " cleared, arc ",
          yellow (Numeral.ofNat tally.repaired), " repaired"]]
  | .renamed names =>
      Text.phrase ["  Charts:   ", yellow "renamed, not sanitized"] ::
        names.map fun (chart, name) => Text.phrase ["            ", chart, " -> ", name]

def summary (o : Outcome) : Text :=
  let border := dimmed (List.replicate 50 '━')
  let jacket := match o.jacketSource with
    | some source => green (Text.phrase ["from ", source])
    | none => yellow "no square image, skipped"
  let track : Text := match o.trackSource with
    | some source => Text.phrase ["converted from ", source]
    | none => "already canonical"
  Text.unlines <|
    [border, Text.phrase ["  ", bold o.songId], border,
      Text.phrase ["  Jacket:   ", jacket], Text.phrase ["  Audio:    ", track]] ++
    chartLines o.charts ++
    [Text.phrase ["  Download: ", o.downloadFolder], Text.phrase ["  Content:  ", o.contentFolder],
      border]

end Outcome
end ChartPackage.Conversion
