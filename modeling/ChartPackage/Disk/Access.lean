import ChartPackage.Disk.Basic
import ChartPackage.Fault
import ChartPackage.Text.Utf8

/-!
Reaching the disk by paths: where a path leads, what can be read there, and the changes a path can
ask for, each with the refusals it may meet. A refused change leaves the disk as it was. Nothing
is refused for want of rights or of room.
-/

namespace ChartPackage.Disk

def nameLimit : Nat := 255

def pathLimit : Nat := 4095

/-- How many links are followed for one path. -/
def linkLimit : Nat := 40

/-- Where one segment leads from a place, which must be a folder. -/
def step (d : Disk) (place : Location) (segment : Text) : Except DiskFault Location :=
  match d.get? place with
  | none => .error .notFound
  | some .folder =>
      if Path.isIdle segment then .ok place
      else if segment = ['.', '.'] then .ok place.dropLast
      else if nameLimit < (Utf8.encode segment).length then .error .nameTooLong
      else .ok (place ++ [segment])
  | some _ => .error .notDirectory

/-- Where segments lead from a place. A link on the way is where they stop, with those that are left
to go. -/
def advance (d : Disk) (place : Location) :
    List Text → Except DiskFault (Location × List Text)
  | [] => .ok (place, [])
  | segment :: segments =>
      match d.get? place with
      | some (.link _) => .ok (place, segment :: segments)
      | _ => do d.advance (← d.step place segment) segments

/-- Where segments lead when each link on the way is replaced by its path, and a link they end in
only if `last` says so. -/
def follow (d : Disk) (last : Bool) : Nat → Location → List Text → Except DiskFault Location
  | 0, _, _ => .error .tooManyLinks
  | budget + 1, place, segments => do
      let (place, rest) ← d.advance place segments
      match d.get? place with
      | some (.link target) =>
          if rest = [] ∧ last = false then .ok place
          else
            d.follow last budget (if target.IsAbsolute then [] else place.dropLast)
              (target.segments ++ rest)
      | _ => .ok place

/-- Where the segments of a path lead. Everything on the way must be a folder or lead to one; the
last name may be missing. -/
def walk (d : Disk) (last : Bool) (p : Path) (segments : List Text) : Except DiskFault Location :=
  if '\x00' ∈ p then .error .nulInPath
  else if pathLimit < (Utf8.encode p).length then .error .nameTooLong
  else if p = [] then .error .notFound
  else d.follow last (linkLimit + 1) (if p.IsAbsolute then [] else d.home) segments

def locate (d : Disk) (p : Path) : Except DiskFault Location := d.walk true p p.segments

/-- Where a path leads when a link it ends in is not followed. -/
def pin (d : Disk) (p : Path) : Except DiskFault Location := d.walk false p p.segments

/-- Where a path leads without its last segment, which must be a folder. -/
def locateAbove (d : Disk) (p : Path) : Except DiskFault Location :=
  d.walk true p ((p.segments.filter (· ≠ [])).dropLast ++ [['.']])

def itemAt (d : Disk) (l : Location) : Except DiskFault Item :=
  match d.get? l with
  | some e => .ok e
  | none => .error .notFound

def entry (d : Disk) (p : Path) : Except DiskFault Item := do d.itemAt (← d.locate p)

def isFile (d : Disk) (p : Path) : Bool :=
  match d.entry p with
  | .ok (.file _) => true
  | _ => false

def isFolder (d : Disk) (p : Path) : Bool :=
  match d.entry p with
  | .ok .folder => true
  | _ => false

/-- Whether a path ends in a link. -/
def isLink (d : Disk) (p : Path) : Bool :=
  match d.pin p >>= d.itemAt with
  | .ok (.link _) => true
  | _ => false

def isTaken (d : Disk) (p : Path) : Bool := (d.entry p).toBool

def read (d : Disk) (p : Path) : Except DiskFault Content := do
  match ← d.entry p with
  | .file content => .ok content
  | _ => .error .isDirectory

def readText (d : Disk) (p : Path) : Except DiskFault Text := do
  match ← d.read p with
  | .bytes bytes =>
      match Utf8.decode? bytes with
      | some t => .ok t
      | none => .error .notText
  | _ => .error .notText

def list (d : Disk) (p : Path) : Except DiskFault (List Text) := do
  let l ← d.locate p
  match d.get? l with
  | some .folder => .ok (d.names l)
  | some _ => .error .notDirectory
  | none => .error .notFound

/-- Puts a file where the path leads, in place of a file that is there. -/
def write (p : Path) (content : Content) (d : Disk) : Except DiskFault Disk := do
  let l ← d.locate p
  match d.get? l with
  | some .folder => .error .isDirectory
  | _ => .ok (d.put l (.file content))

/-- Puts an item where the path leads, if nothing is there. -/
def make (p : Path) (e : Item) (d : Disk) : Except DiskFault Disk := do
  let l ← d.pin p
  match d.get? l with
  | some _ => .error .exists
  | none => .ok (d.put l e)

def makeFolder (p : Path) (d : Disk) : Except DiskFault Disk := d.make p .folder

/-- Why a link cannot hold a path. -/
def linkFault? (target : Path) : Option DiskFault :=
  if '\x00' ∈ target then some .nulInPath
  else if target = [] then some .notFound
  else if pathLimit < (Utf8.encode target).length then some .nameTooLong
  else none

def makeLink (target p : Path) (d : Disk) : Except DiskFault Disk :=
  match linkFault? target with
  | some e => .error e
  | none => d.make p (.link target)

/-- Whether what lies at `a` may take the place of what lies at `b`: a file or a link that of a file
or a link, a folder that of an empty folder, and none that of something around or inside it. -/
def mayReplace (d : Disk) (a b : Location) (moved : Item) : Except DiskFault Unit :=
  if a <+: b then .error .invalid
  else if b <+: a then .error .notEmpty
  else
    match moved, d.get? b with
    | _, none => .ok ()
    | .folder, some .folder => if d.names b = [] then .ok () else .error .notEmpty
    | .folder, some _ => .error .notDirectory
    | _, some .folder => .error .isDirectory
    | _, some _ => .ok ()

/-- A path that ends in no name, but in dots or at the root. -/
def endsInNoName (p : Path) : Bool := Path.isIdle p.lastSegment || p.lastSegment == ['.', '.']

/-- Gives what a path leads to another path on the same device; a link is renamed itself. Only a
folder can be named with a slash at the end. -/
def rename (source target : Path) (d : Disk) : Except DiskFault Disk := do
  if '\x00' ∈ source ∨ '\x00' ∈ target then throw .nulInPath
  let above ← d.locateAbove source
  let aboveTarget ← d.locateAbove target
  if d.device above ≠ d.device aboveTarget then throw .crossDevice
  if endsInNoName source ∨ endsInNoName target then throw .busy
  let a ← d.step above source.lastSegment
  let some moved := d.get? a | throw .notFound
  let b ← d.step aboveTarget target.lastSegment
  match moved with
  | .folder => pure ()
  | _ => if source.getLast? = some '/' ∨ target.getLast? = some '/' then throw .notDirectory
  if a = b then return d
  d.mayReplace a b moved
  return d.move a b

/-- Deletes a folder in which nothing lies. -/
def removeFolder (p : Path) (d : Disk) : Except DiskFault Disk := do
  let above ← d.locateAbove p
  if p.lastSegment = [] then .error .busy
  else if p.lastSegment = ['.'] then .error .invalid
  else if p.lastSegment = ['.', '.'] then .error .notEmpty
  else
    let l ← d.step above p.lastSegment
    match d.get? l with
    | some .folder => .ok (d.remove l)
    | some _ => .error .notDirectory
    | none => .error .notFound

/-- Copies a file over nothing or another file. What is copied onto itself is emptied. -/
def copy (source target : Path) (d : Disk) : Except DiskFault Disk := do
  match ← d.entry source with
  | .file content =>
      let itself := (← d.locate source) = (← d.locate target)
      d.write target (if itself then .bytes [] else content)
  | _ => .error .notRegular

end ChartPackage.Disk
