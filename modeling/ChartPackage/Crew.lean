import ChartPackage.Job
import ChartPackage.Tools.Clip

/-!
The helpers of a conversion: those who unpack archives and make pictures and audio, and the
prompter who answers for the user.
-/

namespace ChartPackage

structure Prompter (σ : Type) where
  /-- Where in the track the preview starts, in seconds. -/
  previewStart : Chore σ Nat
  /-- A new name for each chart of a package with several. -/
  chartNames (charts : List Text) : Chore σ (List Text)
  notify (message : Text) : StateM σ Unit

structure Crew (σ : Type) where
  unpack (archive folder : Path) : Job σ Unit
  /-- The width and height of a picture, if it can be read. -/
  measure (picture : Path) (d : Disk) : StateM σ (Option (Nat × Nat))
  /-- Writes a picture in another size. -/
  resize (source target : Path) (width height : Nat) : Job σ Unit
  transcode (source target : Path) : Job σ Unit
  clip (source target : Path) (c : Clip) : Job σ Unit
  prompter : Prompter σ

namespace Crew

def tell (crew : Crew σ) (message : Text) : Job σ Unit := Job.ask (crew.prompter.notify message)

def measured (crew : Crew σ) (picture : Path) : Job σ (Option (Nat × Nat)) := fun s =>
  let (size, state) := crew.measure picture s.disk s.crew
  (.ok size, { s with crew := state })

end Crew
end ChartPackage
