import ChartPackage.Disk.Act

/-!
A job works on a stage, which is a disk and whatever state the helpers on it keep. A chore is a
job's question to a helper: it sees and changes the helper's state only.
-/

namespace ChartPackage

structure Stage (σ : Type) where
  disk : Disk
  crew : σ

abbrev Chore (σ : Type) := ExceptT Fault (StateM σ)

abbrev Job (σ : Type) := ExceptT Fault (StateM (Stage σ))

namespace Job

def onDisk (act : Disk.Act α) : Job σ α := fun s =>
  let (result, disk) := act s.disk
  (result.mapError .disk, { s with disk })

def look (f : Disk → α) : Job σ α := fun s => (.ok (f s.disk), s)

/-- A helper's answer, which leaves the disk alone. -/
def ask (chore : Chore σ α) : Job σ α := fun s =>
  let (result, crew) := chore s.crew
  (result, { s with crew })

end Job
end ChartPackage
