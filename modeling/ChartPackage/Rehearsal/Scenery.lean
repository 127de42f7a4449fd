import ChartPackage.Disk.Access

/-!
Setting a disk up for a rehearsal and taking stock of it afterwards.
-/

namespace ChartPackage

/-- What is planted on a disk, and what is seen of it when links are looked through. -/
inductive Entry where
  | folder
  | file (content : Content)

namespace Entry

def item : Entry → Item
  | folder => .folder
  | file content => .file content

def ofItem? : Item → Option Entry
  | .folder => some folder
  | .file content => some (file content)
  | .link _ => none

end Entry

namespace Disk

def plant (l : Location) (e : Entry) (d : Disk) : Disk :=
  let above := (List.range l.length).map l.take
  let grounded :=
    above.foldl (fun (d : Disk) m => if (d.get? m).isSome then d else d.put m .folder) d
  if l = [] then d
  else
    match e, grounded.get? l with
    | .folder, some .folder => grounded
    | e, _ => grounded.put l e.item

/-- An entry at the path that leads to it from a folder; the path of a folder ends in a slash. -/
def describe (base m : Location) (e : Entry) : Path × Entry :=
  let path := ['/'].intercalate (m.drop base.length)
  match e with
  | .folder => (path ++ ['/'], .folder)
  | e => (path, e)

/-- All that lies below a folder; of a link what it leads to, if that is anything. -/
def inventory (d : Disk) (base : Location) : List (Path × Entry) :=
  let places := ((d.entries.map (·.1)).filter fun m => base <+: m ∧ m ≠ base).eraseDups
  let seen (m : Location) : Option Entry :=
    ((d.follow true (linkLimit + 1) m [] >>= d.itemAt).toOption).bind Entry.ofItem?
  let items := places.filterMap fun m => (seen m).map (describe base m)
  items.mergeSort fun a b => Text.inOrder a.1 b.1

end Disk
end ChartPackage
