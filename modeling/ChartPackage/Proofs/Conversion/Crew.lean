import Mathlib
import ChartPackage.Crew
import ChartPackage.Proofs.Disk.Moving

/-!
What a conversion counts on from its crew. However a piece of work ends, it stays within the place
it is given; when it ends well, the archive was a file and the file that was asked for is there.
-/

namespace ChartPackage

open Disk (Frame Steady)

variable {σ α β : Type}

namespace Job

variable {roots made : List Location} {s : Stage σ}

theorem frame_bind {x : Job σ α} {f : α → Job σ β} (hx : Frame roots made s.disk (x s).2.disk)
    (hf : ∀ a s₁, x s = (.ok a, s₁) → Frame roots made s.disk s₁.disk →
      Frame roots made s₁.disk (f a s₁).2.disk) : Frame roots made s.disk ((x >>= f) s).2.disk :=
  Work.bind_within (P := fun s₁ : Stage σ => Frame roots made s.disk s₁.disk)
    (R := fun s₁ s₂ : Stage σ => Frame roots made s₁.disk s₂.disk) (fun _ _ _ => Frame.trans)
    (fun _ _ => Frame.trans) (.refl _ _ _) hx hf

theorem frame_forM {f : α → Job σ PUnit} {xs : List α}
    (hf : ∀ a ∈ xs, ∀ s₁, Frame roots made s.disk s₁.disk →
      Frame roots made s₁.disk (f a s₁).2.disk) :
    Frame roots made s.disk (xs.forM f s).2.disk :=
  Work.forM_within (P := fun s₁ : Stage σ => Frame roots made s.disk s₁.disk)
    (R := fun s₁ s₂ : Stage σ => Frame roots made s₁.disk s₂.disk) (fun _ _ _ => Frame.trans)
    (fun _ _ => Frame.trans) (fun _ => .refl _ _ _) hf (.refl _ _ _)

theorem frame_mapM {f : α → Job σ β} {xs : List α}
    (hf : ∀ a ∈ xs, ∀ s₁, Frame roots made s.disk s₁.disk →
      Frame roots made s₁.disk (f a s₁).2.disk) :
    Frame roots made s.disk (xs.mapM f s).2.disk :=
  Work.mapM_within (P := fun s₁ : Stage σ => Frame roots made s.disk s₁.disk)
    (R := fun s₁ s₂ : Stage σ => Frame roots made s₁.disk s₂.disk) (fun _ _ _ => Frame.trans)
    (fun _ _ => Frame.trans) (fun _ => .refl _ _ _) hf (.refl _ _ _)

theorem steady_bind {x : Job σ α} {f : α → Job σ β} (hx : Steady s.disk (x s).2.disk)
    (hf : ∀ a s₁, x s = (.ok a, s₁) → Steady s.disk s₁.disk → Steady s₁.disk (f a s₁).2.disk) :
    Steady s.disk ((x >>= f) s).2.disk :=
  Work.bind_within (P := fun s₁ : Stage σ => Steady s.disk s₁.disk)
    (R := fun s₁ s₂ : Stage σ => Steady s₁.disk s₂.disk) (fun _ _ _ => Steady.trans)
    (fun _ _ => Steady.trans) (.refl _) hx hf

/-- Work that changes nothing but what lies at or below the place that a path leads to. -/
def Touches (job : Job σ α) (target : Path) : Prop :=
  ∀ s, s.disk.WellFormed → s.disk.Direct target →
    Frame [s.disk.spot target] [] s.disk (job s).2.disk

/-- Work that leaves a file when it ends well. -/
def Makes (job : Job σ α) (target : Path) : Prop :=
  ∀ s s' a, s.disk.WellFormed → s.disk.Direct target → job s = (.ok a, s') →
    s'.disk.isFile target

end Job

/-- A crew that may change anything, but leaves a sound disk sound and the home folder where it
is. -/
structure Crew.Orderly (crew : Crew σ) : Prop where
  unpack : ∀ archive folder s, s.disk.Sound →
    Frame [[]] [] s.disk (crew.unpack archive folder s).2.disk
  resize : ∀ source target width height s, s.disk.Sound →
    Frame [[]] [] s.disk (crew.resize source target width height s).2.disk
  transcode :
    ∀ source target s, s.disk.Sound → Frame [[]] [] s.disk (crew.transcode source target s).2.disk
  clip : ∀ source target c s, s.disk.Sound →
    Frame [[]] [] s.disk (crew.clip source target c s).2.disk

/-- A crew that may change anything, but on disks of a kind it makes no links, keeps the disk
well-formed and leaves the home folder where it is. The kind outlasts such changes. -/
structure Crew.SteadyOn (crew : Crew σ) (I : Disk → Prop) : Prop where
  formed : ∀ d, I d → d.WellFormed
  lasts : ∀ d d', Steady d d' → I d → I d'
  unpack : ∀ archive folder s, I s.disk → s.disk.Direct folder →
    Steady s.disk (crew.unpack archive folder s).2.disk
  resize : ∀ source target width height s, I s.disk → s.disk.Direct target →
    Steady s.disk (crew.resize source target width height s).2.disk
  transcode : ∀ source target s, I s.disk → s.disk.Direct target →
    Steady s.disk (crew.transcode source target s).2.disk
  clip : ∀ source target c s, I s.disk → s.disk.Direct target →
    Steady s.disk (crew.clip source target c s).2.disk

theorem Crew.Orderly.steady {crew : Crew σ} (h : crew.Orderly) : crew.SteadyOn Disk.Sound where
  formed _ hd := hd.toWellFormed
  lasts _ _ hframe hd := hframe.sound hd
  unpack archive folder s hd _ := (h.unpack archive folder s hd).steady fun _ _ => hd.clean _
  resize source target width height s hd _ :=
    (h.resize source target width height s hd).steady fun _ _ => hd.clean _
  transcode source target s hd _ :=
    (h.transcode source target s hd).steady fun _ _ => hd.clean _
  clip source target c s hd _ := (h.clip source target c s hd).steady fun _ _ => hd.clean _

/-- A crew that touches only what it is told to make. To unpack may take folders that are missing on
the way. -/
structure Crew.Contained (crew : Crew σ) : Prop where
  unpack : ∀ archive folder s, s.disk.WellFormed → s.disk.Direct folder →
    Frame [s.disk.spot folder] (folder.ancestors.map s.disk.spot) s.disk
      (crew.unpack archive folder s).2.disk
  resize : ∀ source target width height, (crew.resize source target width height).Touches target
  transcode : ∀ source target, (crew.transcode source target).Touches target
  clip : ∀ source target c, (crew.clip source target c).Touches target

theorem Crew.Contained.orderly {crew : Crew σ} (h : crew.Contained) : crew.Orderly where
  unpack archive folder s hd := (h.unpack archive folder s hd.toWellFormed (hd.direct _)).anywhere
  resize source target width height s hd :=
    (h.resize source target width height s hd.toWellFormed (hd.direct _)).anywhere
  transcode source target s hd :=
    (h.transcode source target s hd.toWellFormed (hd.direct _)).anywhere
  clip source target c s hd := (h.clip source target c s hd.toWellFormed (hd.direct _)).anywhere

theorem Crew.Contained.steady {crew : Crew σ} (h : crew.Contained) :
    crew.SteadyOn Disk.WellFormed where
  formed _ hd := hd
  lasts _ _ hframe hd := hframe.wellFormed hd
  unpack archive folder s hd hp :=
    (h.unpack archive folder s hd hp).steady_within hp.clean (by simp)
  resize source target width height s hd hp :=
    (h.resize source target width height s hd hp).steady_within hp.clean (by simp)
  transcode source target s hd hp :=
    (h.transcode source target s hd hp).steady_within hp.clean (by simp)
  clip source target c s hd hp := 
    (h.clip source target c s hd hp).steady_within hp.clean (by simp)

/-- A contained crew whose success means that the work is done. -/
structure Crew.Faithful (crew : Crew σ) : Prop extends Contained crew where
  unpacked : ∀ archive folder s s', s.disk.WellFormed → s.disk.Direct folder →
    crew.unpack archive folder s = (.ok (), s') → s.disk.isFile archive
  resized : ∀ source target width height, (crew.resize source target width height).Makes target
  transcoded : ∀ source target, (crew.transcode source target).Makes target
  clipped : ∀ source target c, (crew.clip source target c).Makes target

/-- A crew that measures a picture by its name and its content, and whose resizing, if it succeeds,
changes nothing but the target, which is a picture of the asked size then. -/
structure Crew.Draws (crew : Crew σ) (size : Path → Content → Option (Nat × Nat)) : Prop where
  measured :
    ∀ picture d c, (crew.measure picture d c).1 = (d.read picture).toOption.bind (size picture)
  resized : ∀ source target width height s s', s.disk.Sound →
    crew.resize source target width height s = (.ok (), s') →
    Frame [s.disk.spot target] [] s.disk s'.disk ∧
      ∃ content, s'.disk.read target = .ok content ∧ size target content = some (width, height)

theorem Crew.disk_tell (crew : Crew σ) (message : Text) (s : Stage σ) :
    (crew.tell message s).2.disk = s.disk := rfl

theorem Crew.disk_forM_tell (crew : Crew σ) (message : α → Text) (xs : List α) (s : Stage σ) :
    (xs.forM (fun a => crew.tell (message a)) s).2.disk = s.disk := by
  induction xs generalizing s with
  | nil => rfl
  | cons a xs ih => exact ih _

/-- Work on an entry of a folder changes nothing but that entry. -/
theorem Job.Touches.frame {job : Job σ α} {folder : Path} {name : Text} {s : Stage σ}
    (h : job.Touches (folder.join name)) (hname : Path.Plain name) (hd : s.disk.WellFormed)
    (hfolder : s.disk.Direct folder) :
    Frame [s.disk.spot folder ++ [name]] [] s.disk (job s).2.disk := by
  rw [← Disk.spot_join _ _ hname]
  exact h s hd (hfolder.join hname)

/-- Faithful work on an entry of a folder changes nothing but that entry, which is a file then. -/
theorem Job.made {job : Job σ α} {folder : Path} {name : Text} (hname : Path.Plain name)
    (htouches : job.Touches (folder.join name)) (hmakes : job.Makes (folder.join name))
    {s s' : Stage σ} {a : α} (hd : s.disk.WellFormed) (hfolder : s.disk.Direct folder)
    (h : job s = (.ok a, s')) :
    Frame [s.disk.spot folder ++ [name]] [] s.disk s'.disk ∧
      ∃ c, s'.disk.get? (s.disk.spot folder ++ [name]) = some (.file c) := by
  have hframe := htouches.frame hname hd hfolder
  rw [h] at hframe
  obtain ⟨c, hc⟩ := Disk.isFile_iff.mp (hmakes s s' a hd (hfolder.join hname) h)
  have hfolder' := hframe.direct_within hfolder (by simp)
  have hfile := Disk.get?_of_entry (hfolder'.join hname).straight hc
  rw [Disk.spot_join _ _ hname, hframe.spot] at hfile
  exact ⟨hframe, c, hfile⟩

end ChartPackage
