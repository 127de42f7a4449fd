import ChartPackage.Disk.Path

/-!
The names of archive members. Slashes and backslashes separate alike, and a volume in front, such
as a drive letter, a server with its share, or a device, does not count. What is left are the names
that lead to the member from the folder it is unpacked to.
-/

namespace ChartPackage.MemberName

def isSeparator (c : Char) : Bool := c == '/' || c == '\\'

def dropSeparator? : Text → Option Text
  | [] => none
  | c :: t => if isSeparator c then some t else none

def dropName? (t : Text) : Option Text :=
  match t.span fun c => !isSeparator c with
  | ([], _) => none
  | (_, rest) => some rest

/-- The text behind a server and, if there is one, its share. -/
def dropServer? (t : Text) : Option Text :=
  (dropName? t).map fun rest => (dropSeparator? rest >>= dropName?).getD rest

def dropDrive? : Text → Option Text
  | c :: ':' :: t => if c.isAlpha then some t else none
  | _ => none

/-- The text behind a volume that is to be taken as it is written. -/
def dropVerbatim? (t : Text) : Option Text :=
  (Text.dropLead? "UNC" t >>= dropSeparator? >>= dropServer?) <|> dropDrive? t <|> dropName? t

/-- The text without a volume in front. -/
def dropVolume (t : Text) : Text :=
  let doubled := dropSeparator? t >>= dropSeparator?
  let marked (mark : Text) := doubled >>= Text.dropLead? mark >>= dropSeparator?
  ((marked "?" >>= dropVerbatim?) <|> (marked "." >>= dropName?) <|> (doubled >>= dropServer?) <|>
    dropDrive? t).getD t

/-- The names that lead to a member, if they stay in the folder. -/
def names? (t : Text) : Option (List Text) :=
  if '\x00' ∈ t then none
  else
    ((dropVolume t).splitOnP isSeparator).foldlM (fun names segment =>
      if Path.isIdle segment then some names
      else if segment = ['.', '.'] then (if names = [] then none else some names.dropLast)
      else some (names ++ [segment])) []

def isFolder (t : Text) : Bool := t.getLast?.any isSeparator

end ChartPackage.MemberName
