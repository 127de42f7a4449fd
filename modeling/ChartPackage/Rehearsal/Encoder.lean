import ChartPackage.Tools.Encoder

/-!
A stand-in for the encoder: a program that notes how it is called, complains, writes its target and
ends as a script says. No other program can be launched.
-/

namespace ChartPackage.Rehearsal

structure Part where
  errors : List UInt8 := []
  /-- Whether it is killed after its complaint. -/
  killed : Bool := false
  writes : Bool := true
  exitCode : Nat := 0
  deriving DecidableEq

abbrev Calls := List (List Text)

/-- What the stand-in writes: a mark for a clip, and the content of the source otherwise. -/
def encoded? (d : Disk) (arguments : List Text) : Option Content :=
  if arguments[4]? = some "-ss".toList then some (.bytes (Utf8.encode "preview"))
  else arguments[5]?.bind fun source => (d.read source).toOption

/-- The disk after the stand-in has tried to write its target, its last argument. -/
def encode (d : Disk) (arguments : List Text) : Disk :=
  match encoded? d arguments, arguments.getLast? with
  | some content, some target => ((d.write target content).toOption).getD d
  | _, _ => d

def perform (part : Part) (arguments : List Text) (d : Disk) : Encoder.Report × Disk :=
  if part.killed then ({ ending := .killed, errors := part.errors }, d)
  else
    ({ ending := .exit (part.exitCode % 256), errors := part.errors },
      if part.writes then encode d arguments else d)

/-- Where a program lies that is named by a path. A bare name is looked for elsewhere, where only
folders answer to it. -/
def findProgram (d : Disk) (program : Text) : Except DiskFault Location := do
  if !program.contains '/' then
    if Disk.nameLimit < (Utf8.encode program).length then throw .nameTooLong
    else if program = ['.'] ∨ program = ['.', '.'] then throw .denied
    else throw .notFound
  let _ ← d.entry program
  d.locate program

def argumentLimit : Nat := 131071

/-- Launches the stand-in, which lies at `place`. -/
def launch (place : Location) (parts : List Part) :
    Encoder.Launcher Calls := fun program arguments s =>
  match findProgram s.disk program with
  | .error e => (.error e, s)
  | .ok l =>
      if l ≠ place then (.error .denied, s)
      else if arguments.any fun argument => argumentLimit < (Utf8.encode argument).length then
        (.error .argumentTooLong, s)
      else
        let (report, disk) := perform (parts[s.crew.length]?.getD {}) arguments s.disk
        (.ok report, { disk, crew := s.crew ++ [arguments] })

end ChartPackage.Rehearsal
