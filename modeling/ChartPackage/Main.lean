import ChartPackage.Console.Command
import ChartPackage.Rehearsal.Scenery
import Std.Time.DateTime.Timestamp

/-!
The command as a program. It works on a survey of the folder it is started in, where a file is
nothing but its bytes, and carries the changes over at the end. It launches no other program.
-/

open ChartPackage

namespace ChartPackage.Program

/-- The disk with what lies in a folder of the machine, here and below. -/
partial def survey (base : Location) (items : Array IO.FS.DirEntry) (d : Disk) : IO Disk :=
  items.foldlM (fun d item => do
    let place := base ++ [item.fileName.toList]
    if ← item.path.isDir then survey place (← item.path.readDir) (d.put place .folder)
    else return d.put place (.file (.bytes (← IO.FS.readBinFile item.path).toList))) d

/-- Takes away what is gone from the folder at home and writes what is new there. -/
def carryOver (before after : Disk) : IO Unit := do
  for (path, e) in (before.inventory before.home).reverse do
    let name := String.ofList path
    match e with
    | .folder => unless after.isFolder path do IO.FS.removeDir name
    | .file _ => unless after.isFile path do IO.FS.removeFile name
  for (path, e) in after.inventory after.home do
    let name := String.ofList path
    match e, before.read path with
    | .folder, _ => IO.FS.createDirAll name
    | .file (.bytes new), .ok (.bytes old) =>
        unless new = old do IO.FS.writeBinFile name ⟨new.toArray⟩
    | .file (.bytes new), _ => IO.FS.writeBinFile name ⟨new.toArray⟩
    | .file _, _ => pure ()

/-- All that is left to read. -/
partial def readAll (input : IO.FS.Stream) (before : ByteArray) : IO ByteArray := do
  let more ← input.read 65536
  if more.isEmpty then return before else readAll input (before ++ more)

def setting? (name : String) : IO (Option Text) := do
  return (← IO.getEnv name).map String.toList

end ChartPackage.Program

open Program in
def main (words : List String) : IO UInt32 := do
  let here ← IO.currentDir
  let home := (Path.segments here.toString.toList).filter (· ≠ [])
  let disk ← survey home (← here.readDir) (Disk.plant home .folder { entries := [], home })
  let now := Int64.ofInt (← Std.Time.Timestamp.now).toSecondsSinceUnixEpoch.val
  let env : Console.Environment :=
    { settings := ← setting? "ARCPKG_CONFIG", encoder := ← setting? "ARCPKG_FFMPEG" }
  let input ← readAll (← IO.getStdin) ByteArray.empty
  let launch : Encoder.Launcher (Console.Session Unit) := fun _ _ s => (.error .denied, s)
  let session : Console.Session Unit :=
    { terminal := { input := input.toList, output := [] }, outside := () }
  let (ending, stage) :=
    Console.run launch now env (words.map String.toList) { disk, crew := session }
  carryOver disk stage.disk
  IO.print (String.ofList stage.crew.terminal.output)
  if let some failure := ending.failure then IO.eprint (String.ofList failure.log)
  return ending.exitCode.toUInt32
