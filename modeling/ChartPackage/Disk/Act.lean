import ChartPackage.Disk.Access

/-!
Work on a disk in several steps: deleting, making folders with those above them, and moving the
contents of a folder. Work that fails leaves behind what its steps had done so far.
-/

namespace ChartPackage

abbrev Disk.Act := ExceptT DiskFault (StateM Disk)

namespace Disk.Act

def look (f : Disk → Except DiskFault α) : Act α := fun d => (f d, d)

/-- A single change; the disk stays as it is if the change is refused. -/
def change (f : Disk → Except DiskFault Disk) : Act Unit := fun d =>
  match f d with
  | .ok d => (.ok (), d)
  | .error e => (.error e, d)

/-- Deletes a file or a link, or a folder after all that lies in it. What is not there need not be
deleted. -/
def delete (p : Path) : Act Unit := fun d =>
  match d.pin p with
  | .error .notFound => (.ok (), d)
  | .error e => (.error e, d)
  | .ok l =>
      match d.get? l with
      | none => (.ok (), d)
      | some .folder =>
          let emptied := d.clear l
          match removeFolder p emptied with
          | .ok d => (.ok (), d)
          | .error .notFound => (.ok (), emptied)
          | .error e => (.error e, emptied)
      | some _ => (.ok (), d.remove l)

def ensureFolder (p : Path) : Act Unit := change fun d =>
  match makeFolder p d with
  | .error e => if d.isFolder p then .ok d else .error e
  | changed => changed

/-- Makes the first of these paths a folder, and before that as many of the others, each the one
above its predecessor, as are missing. -/
def ensureChain : List Path → Act Unit
  | [] => throw .notFound
  | p :: above =>
      if p = [] then pure ()
      else tryCatch (ensureFolder p) fun e =>
        if e = .notFound then do
          ensureChain above
          ensureFolder p
        else throw e

def ensureFolders (p : Path) : Act Unit := ensureChain p.ancestors

def firstFolder? (folder : Path) : Act (Option Path) := look fun d => do
  let names ← d.list folder
  return (names.map folder.join).find? d.isFolder

def filesWithExtension (extensions : List Text) (folder : Path) :
    Act (List Text) := look fun d => do
  let names ← d.list folder
  return names.filter fun name =>
    (match Path.extension? name with
      | some extension => extensions.any (Text.sameIgnoringCase extension)
      | none => false) && d.isFile (folder.join name)

/-- Moves one entry. A file that cannot be renamed is copied and then deleted. -/
def moveEntry (source target : Path) : Act Unit :=
  tryCatch (change (rename source target)) fun e => do
    if ← look fun d => .ok (d.isFile source) then
      change (copy source target)
      delete source
    else throw e

/-- Moves the entries with an accepted name from one folder to another and gives their names. -/
def moveContents (accept : Text → Bool) (source target : Path) : Act (List Text) := do
  let names := (← look (·.list source)).filter accept
  names.forM fun name => moveEntry (source.join name) (target.join name)
  return names

end Disk.Act
end ChartPackage
