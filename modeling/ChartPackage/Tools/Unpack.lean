import ChartPackage.Job
import ChartPackage.Tools.Archive
import ChartPackage.Tools.MemberName

/-!
Unpacking archives. Members are written in the order they are stored, over what lies there before.
The names of a member may not lead out of the folder, and a member is not written through a link.
-/

namespace ChartPackage.Unpack

abbrev Act := ExceptT ArchiveFault (StateM Disk)

def onDisk (act : Disk.Act α) : Act α := act.adapt .disk

def refuseLink (p : Path) : Act Unit := fun d =>
  if d.isLink p then (.error (.invalid "Symlink is not inherently safe"), d) else (.ok (), d)

/-- Makes a folder on the way to a member, unless something is there. -/
def makeWay (way : Path) : Disk.Act Unit := do
  match ← .look fun d => .ok (d.entry way) with
  | .ok _ => pure ()
  | .error .notFound => Disk.Act.ensureFolders way
  | .error e => throw e

/-- Opens the way to a member as far as it is missing and gives the path of the member. -/
def openWay (folder : Path) : List Text → Act Path
  | [] => pure folder
  | name :: names => do
      refuseLink (folder.join name)
      unless names = [] do onDisk (makeWay (folder.join name))
      openWay (folder.join name) names

/-- Writes one member; of a folder there is nothing to write but the folder itself. -/
def member (folder : Path) (name : Text) (stored : Stored) : Act Unit :=
  match MemberName.names? name with
  | none => throw (.invalid "Invalid file path")
  | some names => do
      let target ← openWay folder names
      match stored with
      | .link way => onDisk (.change (Disk.makeLink way target))
      | .file content =>
          if MemberName.isFolder name then onDisk (Disk.Act.ensureFolders target)
          else onDisk (.change (Disk.write target content))

/-- Unpacks an archive into a folder. Links are made if `links` says so; otherwise an archive that
holds any is refused. -/
def archive (links : Bool) (file folder : Path) : Job σ Unit := do
  match ← Job.onDisk (.look (·.entry file)) with
  | .file content =>
      match Archive.members content with
      | .error fault => throw (.archive fault)
      | .ok members =>
          if !links && members.any (·.2.isLink) then
            throw (.archive (.invalid "Symlinks are refused"))
          Job.onDisk (Disk.Act.ensureFolders folder)
          let place ← Job.onDisk (.look (·.locate folder))
          members.forM fun (name, stored) => ofArchive (member (Path.ofNames place) name stored)
  | _ => throw (.archive (.disk .isDirectory))
where
  ofArchive (act : Act Unit) : Job σ Unit := fun s =>
    let (result, disk) := act s.disk
    (result.mapError .archive, { s with disk })

end ChartPackage.Unpack
