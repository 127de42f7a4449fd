import ChartPackage.Main
import ChartPackage.Rehearsal.Crew
import ChartPackage.Proofs.Chart.ArcRepair
import ChartPackage.Proofs.Chart.Blanks
import ChartPackage.Proofs.Chart.Clauses
import ChartPackage.Proofs.Chart.LineByLine
import ChartPackage.Proofs.Chart.Rescan
import ChartPackage.Proofs.Chart.Scanning
import ChartPackage.Proofs.Chart.Statements
import ChartPackage.Proofs.Conversion.Charts
import ChartPackage.Proofs.Conversion.Crew
import ChartPackage.Proofs.Conversion.Delivery
import ChartPackage.Proofs.Conversion.Making
import ChartPackage.Proofs.Conversion.Places
import ChartPackage.Proofs.Conversion.Publishing
import ChartPackage.Proofs.Conversion.Steps
import ChartPackage.Proofs.Conversion.Survival
import ChartPackage.Proofs.Disk.Changes
import ChartPackage.Proofs.Disk.Endings
import ChartPackage.Proofs.Disk.Frames
import ChartPackage.Proofs.Disk.Moving
import ChartPackage.Proofs.Disk.Renaming
import ChartPackage.Proofs.Disk.Soundness
import ChartPackage.Proofs.Disk.Trails
import ChartPackage.Proofs.Json.Decoding
import ChartPackage.Proofs.Json.Doubles
import ChartPackage.Proofs.Json.Literals
import ChartPackage.Proofs.Json.Rereading
import ChartPackage.Proofs.Number.Characters
import ChartPackage.Proofs.Number.Nearest
import ChartPackage.Proofs.Number.Numerals
import ChartPackage.Proofs.Number.Shortest
import ChartPackage.Proofs.Rehearsal.Crew
import ChartPackage.Proofs.Song.List
import ChartPackage.Proofs.Text.Cutting
import ChartPackage.Proofs.Tools.Unpacking
import ChartPackage.Proofs.Work
import ChartPackage.Proofs.Chart.Alignment
import ChartPackage.Proofs.Chart.BlankLines
import ChartPackage.Proofs.Chart.Rebuilding
import ChartPackage.Proofs.Chart.Stability
import ChartPackage.Proofs.Conversion.EarlyFaults
import ChartPackage.Proofs.Conversion.Likeness
import ChartPackage.Proofs.Conversion.Leftovers
import ChartPackage.Proofs.Chart.Commuting
import ChartPackage.Proofs.Chart.RepairedArcs
import ChartPackage.Proofs.Number.Rounded
import ChartPackage.Proofs.Number.Doubles
import ChartPackage.Proofs.Number.Grammar
import ChartPackage.Proofs.Number.Rereading
import ChartPackage.Proofs.Chart.Normalized
import ChartPackage.Proofs.Conversion.Naming
import ChartPackage.Proofs.Chart.CleanLines
import ChartPackage.Proofs.Song.Descriptor
import ChartPackage.Proofs.Song.Entry
import ChartPackage.Proofs.Song.Id
import ChartPackage.Proofs.Text.Utf8
import ChartPackage.Proofs.Console.Answers
import ChartPackage.Proofs.Chart.ArcGrammar
import ChartPackage.Proofs.Conversion.Jackets
import ChartPackage.Proofs.Chart.Sweeping
