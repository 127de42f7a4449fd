import ChartPackage.Console.Controls
import ChartPackage.Console.Help
import ChartPackage.Console.Terminal
import ChartPackage.Conversion.Run
import ChartPackage.Tools.Encoder
import ChartPackage.Tools.Pictures
import ChartPackage.Tools.Unpack

/-!
The command: reads the command line, loads the settings, converts the package and tells on the
terminal what came of it.
-/

namespace ChartPackage.Console

/-- The terminal, and whatever else outside programs have to do with. -/
structure Session (ρ : Type) where
  terminal : Terminal
  outside : ρ

def Session.print (text : Text) (s : Session ρ) : Session ρ :=
  { s with terminal := { s.terminal with output := s.terminal.output ++ text } }

def crew (launch : Encoder.Launcher (Session ρ)) (program : Text) (start : Option Nat) :
    Crew (Session ρ) where
  unpack := Unpack.archive true
  measure picture d := pure (Pictures.measure picture d)
  resize := Pictures.resize
  transcode := Encoder.transcode launch program
  clip := Encoder.clip launch program
  prompter := (Terminal.prompter start).within Session.terminal fun terminal s =>
    { s with terminal }

structure Failure where
  step : Text
  cause : Fault
  deriving DecidableEq

/-- The record of a failure: the step, the cause, and what the cause passes on. -/
def Failure.log (f : Failure) : Text :=
  let parts := f.step :: f.cause.message :: f.cause.causes
  Text.phrase ["ERROR arcpkg: ", shown (": ".toList.intercalate parts), "\n"]

/-- The settings in the file that a request names, with its own options in place of theirs. -/
def loadSettings (r : Request) (d : Disk) : Except Failure Settings := do
  let s ← match r.settings with
    | none => .ok {}
    | some path =>
        ((d.readText path).mapError Fault.disk >>= Settings.parse).mapError
          (⟨Text.phrase ["Failed to load config ", path], ·⟩)
  return { s with
    outputFolder := r.outputFolder <|> s.outputFolder
    encoder := r.encoder.getD s.encoder
    keepPackage := r.keepPackage || s.keepPackage }

def serve (launch : Encoder.Launcher (Session ρ)) (now : Int64) (r : Request) :
    ExceptT Failure (StateM (Stage (Session ρ))) Unit := do
  let s ← liftExcept (loadSettings r (← get).disk)
  let outcome ← ExceptT.adapt (⟨Text.phrase ["Failed to process ", r.package], ·⟩)
    (Conversion.run (crew launch s.encoder r.previewStart) s {} now r.package)
  modify fun stage => { stage with
    crew := stage.crew.print
      (Text.phrase [outcome.summary, "\n", outcome.completionMessage, "\n"]) }

structure Ending where
  exitCode : Nat
  failure : Option Failure
  deriving DecidableEq

def run (launch : Encoder.Launcher (Session ρ)) (now : Int64) (env : Environment)
    (words : List Text) :
    StateM (Stage (Session ρ)) Ending := fun stage =>
  let printing (text : Text) : Stage (Session ρ) := { stage with crew := stage.crew.print text }
  match Request.parse env words with
  | .error .help => (⟨0, none⟩, printing (helpText env))
  | .error .version => (⟨0, none⟩, printing versionText)
  | .error .misuse => (⟨1, none⟩, stage)
  | .ok r =>
      match serve launch now r stage with
      | (.ok (), stage) => (⟨0, none⟩, stage)
      | (.error failure, stage) => (⟨failure.cause.kind.exitCode, some failure⟩, stage)

end ChartPackage.Console
