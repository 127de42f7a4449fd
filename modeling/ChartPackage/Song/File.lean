import ChartPackage.Disk.Access
import ChartPackage.Song.List

/-!
Song-list files on a disk.
-/

namespace ChartPackage.SongEntry

def save (p : Path) (e : SongEntry) (d : Disk) : Except DiskFault Disk :=
  d.write p (.bytes (Utf8.encode e.render))

def load (p : Path) (d : Disk) : Except Fault SongEntry :=
  (d.readText p).mapError Fault.disk >>= parse

end ChartPackage.SongEntry
