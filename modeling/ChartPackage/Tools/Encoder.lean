import ChartPackage.Job
import ChartPackage.Text.Blank
import ChartPackage.Text.Quoted
import ChartPackage.Tools.Clip

/-!
Audio work by an encoder, a program that is launched with arguments. A run that does not end with
success is told by how it ended and by the last line it complained with.
-/

namespace ChartPackage.Encoder

inductive Ending where
  | exit (code : Nat)
  /-- Ended by a signal that cannot be caught. -/
  | killed
  deriving DecidableEq

def Ending.message : Ending → Text
  | exit code => Text.phrase ["exit status: ", Numeral.ofNat code]
  | killed => "signal: 9 (SIGKILL)"

/-- What is seen of a run: how it ended and what it wrote to its error channel. -/
structure Report where
  ending : Ending
  errors : List UInt8
  deriving DecidableEq

/-- Runs a program with arguments, or is refused to. -/
abbrev Launcher (σ : Type) := Text → List Text → Stage σ → Except DiskFault Report × Stage σ

def Launcher.within (get : τ → σ) (set : σ → τ → τ) (launch : Launcher σ) : Launcher τ :=
  fun program arguments s =>
    let (result, inner) := launch program arguments { disk := s.disk, crew := get s.crew }
    (result, { disk := inner.disk, crew := set inner.crew s.crew })

/-- The last line that is not blank, without the blanks around it. -/
def complaint (errors : List UInt8) : Text :=
  match (Text.lines (Utf8.decodeLossy errors)).reverse.find? fun line => !line.all isBlank with
  | some line => Text.trim isBlank line
  | none => "no output"

/-- What a target is called in messages: its file name, or the whole path if it ends in none. -/
def displayName (target : Path) : Text := target.fileName?.getD target

def run (launch : Launcher σ) (program : Text) (arguments : List Text) (target : Path) :
    Job σ Unit := fun s =>
  let failed (reason : Text) : Except Fault Unit :=
    .error (.transcoding (displayName target) reason)
  let refused (reason : Text) :=
    failed (Text.phrase ["failed to execute ", program.quoted, ": ", reason])
  if (program :: arguments).any (·.contains '\x00') then
    (refused "nul byte found in provided data", s)
  else
    match launch program arguments s with
    | (.error cause, s) => (refused cause.message, s)
    | (.ok report, s) =>
        if report.ending = .exit 0 then (.ok (), s)
        else
          (failed (Text.phrase ["ffmpeg exited with ", report.ending.message, ": ",
            complaint report.errors]), s)

def transcode (launch : Launcher σ) (program : Text) (source target : Path) : Job σ Unit :=
  run launch program (transcodeArguments source target) target

def clip (launch : Launcher σ) (program : Text) (source target : Path) (c : Clip) : Job σ Unit :=
  run launch program (clipArguments source target c) target

end ChartPackage.Encoder
