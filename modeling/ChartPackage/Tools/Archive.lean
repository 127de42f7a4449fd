import ChartPackage.Disk.Content
import ChartPackage.Fault
import ChartPackage.Text.Utf8

/-!
What archives hold. An archive that is given by its bytes is read as a zip file whose members are
stored as they are: there is no reader for compressed or encrypted members, for checksums or for
extra fields.
-/

namespace ChartPackage

/-- What an archive holds under a name; a name with a slash at the end is that of a folder. -/
inductive Stored where
  | file (content : Content)
  | link (target : Path)

def Stored.isLink : Stored → Bool
  | file _ => false
  | link _ => true

namespace Zip

def endMark : List UInt8 := [0x50, 0x4b, 5, 6]

def headerMark : List UInt8 := [0x50, 0x4b, 1, 2]

/-- A number in so many bytes at a place, the low ones first. -/
def number (bytes : List UInt8) (place width : Nat) : Nat :=
  ((bytes.drop place).take width).foldr (fun b n => b.toNat + 256 * n) 0

def slice (bytes : List UInt8) (place length : Nat) : List UInt8 := (bytes.drop place).take length

/-- Where the record lies that ends an archive. -/
def findEnd? (bytes : List UInt8) : Option Nat :=
  (List.range (bytes.length - 21)).reverse.find? fun i => endMark.isPrefixOf (bytes.drop i)

/-- The bytes of a member with a header, which stand behind a header of their own. -/
def data (bytes header : List UInt8) : List UInt8 :=
  let place := number header 42 4
  slice bytes (place + 30 + number bytes (place + 26) 2 + number bytes (place + 28) 2)
    (number header 20 4)

/-- Whether a header is that of a symbolic link, as systems mark it that tell kinds of files. -/
def marksLink (header : List UInt8) : Bool :=
  number header 5 1 == 3 && number header 38 4 / 65536 / 4096 == 10

/-- The member with a header, if it is stored as it is. -/
def member? (bytes header : List UInt8) : Option (Text × Stored) := do
  guard (headerMark.isPrefixOf header ∧ number header 8 2 % 2 = 0 ∧ number header 10 2 = 0)
  let name ← Utf8.decode? (slice header 46 (number header 28 2))
  let data := data bytes header
  if marksLink header then return (name, .link (← Utf8.decode? data))
  else return (name, .file (.bytes data))

/-- So many members, whose headers follow one another from a place on. -/
def membersFrom? (bytes : List UInt8) : (count place : Nat) → Option (List (Text × Stored))
  | 0, _ => some []
  | count + 1, place => do
      let header := bytes.drop place
      let next := place + 46 + number header 28 2 + number header 30 2 + number header 32 2
      return (← member? bytes header) :: (← membersFrom? bytes count next)

def members (bytes : List UInt8) : Except ArchiveFault (List (Text × Stored)) :=
  match findEnd? bytes with
  | none => .error (.invalid "Could not find EOCD")
  | some place =>
      match membersFrom? bytes (number bytes (place + 10) 2) (number bytes (place + 16) 4) with
      | some members => .ok members
      | none => .error (.invalid "Invalid Central Directory header")

end Zip

/-- The members of an archive in the order they are stored. -/
def Archive.members : Content → Except ArchiveFault (List (Text × Stored))
  | .archive members => .ok (members.map fun (name, content) => (name, .file content))
  | .bytes bytes => Zip.members bytes
  | .picture .. => .error (.invalid "Could not find EOCD")

end ChartPackage
