import ChartPackage.Console.Terminal
import ChartPackage.Rehearsal.Encoder
import ChartPackage.Tools.Pictures
import ChartPackage.Tools.Unpack

/-!
A crew that rehearses a conversion: it keeps a record of what it is asked to do, and does it, leaves
it or fails as a script says.
-/

namespace ChartPackage.Rehearsal

inductive Event where
  | unpack (archive folder : Path)
  | measure (picture : Path) (size : Option (Nat × Nat))
  | resize (source target : Path) (width height : Nat)
  | transcode (source target : Path)
  | clip (source target : Path) (c : Clip)
  | previewStart
  | chartNames (charts : List Text)
  | message (text : Text)
  deriving DecidableEq

structure Scene where
  events : List Event := []
  resizes : Nat := 0
  terminal : Terminal
  calls : Calls := []

/-- How a piece of audio work goes. -/
inductive Deed where
  | perform
  /-- Success without a result. -/
  | pretend
  | fail (f : Fault)
  deriving DecidableEq

inductive AudioPart where
  | scripted (transcode clip : Deed)
  | encoder (program : Text)
  deriving DecidableEq

inductive PrompterPart where
  | fixed (start : Nat) (names : Option (List Text))
  | terminal (start : Option Nat)
  | scripted (start : Except Fault Nat) (names : Except Fault (List Text))

structure Script where
  unpack : Option Fault := none
  /-- Whether the links in an archive are made; otherwise it is refused. -/
  links : Bool := true
  /-- The call to resize that fails, counted from one, and how. -/
  resize : Option (Nat × Fault) := none
  audio : AudioPart
  prompter : PrompterPart
  /-- The stand-in for the encoder: where it lies and how it behaves. -/
  program : Location
  parts : List Part := []

def Scene.note (e : Event) (s : Scene) : Scene := { s with events := s.events ++ [e] }

def note (e : Event) : Job Scene Unit := modify fun s => { s with crew := s.crew.note e }

def Deed.act (deed : Deed) (work : Job Scene Unit) : Job Scene Unit :=
  match deed with
  | .perform => work
  | .pretend => pure ()
  | .fail f => throw f

def Script.launch (script : Script) : Encoder.Launcher Scene :=
  Encoder.Launcher.within Scene.calls (fun calls s => { s with calls })
    (Rehearsal.launch script.program script.parts)

def Script.resizing (script : Script) (source target : Path) (width height : Nat) :
    Job Scene Unit := do
  note (.resize source target width height)
  let count := (← get).crew.resizes + 1
  modify fun s => { s with crew := { s.crew with resizes := count } }
  match script.resize with
  | some (call, f) => if call = count then throw f else Pictures.resize source target width height
  | none => Pictures.resize source target width height

def Script.transcoding (script : Script) (source target : Path) : Job Scene Unit :=
  match script.audio with
  | .scripted deed _ => do
      note (.transcode source target)
      deed.act (Job.onDisk (.change (Disk.copy source target)))
  | .encoder program => Encoder.transcode script.launch program source target

def Script.clipping (script : Script) (source target : Path) (c : Clip) : Job Scene Unit :=
  match script.audio with
  | .scripted _ deed => do
      note (.clip source target c)
      deed.act (Job.onDisk (.change (Disk.write target (.bytes (Utf8.encode "preview")))))
  | .encoder program => Encoder.clip script.launch program source target c

def scriptedPrompter (start : Except Fault Nat) (names : Except Fault (List Text)) :
    Prompter Scene where
  previewStart s := (start, s.note .previewStart)
  chartNames charts s := (names, s.note (.chartNames charts))
  notify message s := ((), s.note (.message message))

def Script.crew (script : Script) : Crew Scene where
  unpack archive folder := do
    note (.unpack archive folder)
    match script.unpack with
    | some f => throw f
    | none => Unpack.archive script.links archive folder
  measure picture d s :=
    let size := Pictures.measure picture d
    (size, s.note (.measure picture size))
  resize := script.resizing
  transcode := script.transcoding
  clip := script.clipping
  prompter := match script.prompter with
    | .fixed start names => Prompter.fixed start names
    | .terminal start => (Terminal.prompter start).within Scene.terminal fun terminal s =>
      { s with terminal }
    | .scripted start names => scriptedPrompter start names

end ChartPackage.Rehearsal
