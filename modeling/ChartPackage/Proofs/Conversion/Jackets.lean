import Mathlib
import ChartPackage.Proofs.Conversion.Making
import ChartPackage.Proofs.Rehearsal.Crew

/-!
The pictures that jackets are made of and into. The first square picture is taken, be it one of the
jackets itself: the first jacket that is made may be the picture that the second is made of, but
neither is lost again.
-/

namespace ChartPackage

open Disk (Frame Apart)

namespace Disk

variable {d d' : Disk} {l : Location} {p base : Path} {c c' : Content} {n k : Text}

/-- A change away from a file and the way to it does not keep it from being read. -/
theorem read_of_frame (hd : d.Sound) (h : Frame [l] [] d d') (hread : d.read p = .ok c)
    (hway : ∀ m ∈ d.way p, ¬ l <+: m)
    (hspot : ¬ l <+: d.spot p) : d'.read p = .ok c := by
  rw [read_eq_ok_iff, entry_eq_ok_iff_spot (hd.straight p)] at hread
  rw [read_eq_ok_iff, entry_eq_ok_iff_spot ((h.sound hd).straight p)]
  obtain ⟨husable, hfolders, hfile⟩ := hread
  rw [h.spot, h.way]
  refine ⟨husable, fun m hm => ?_, ?_⟩
  · rw [h.get?_eq (List.forall_mem_singleton.mpr (hway m hm)), hfolders m hm]
  · rw [h.get?_eq (List.forall_mem_singleton.mpr hspot), hfile]

theorem file_of_read (hd : d.Sound) (hn : Path.Plain n) (hread : d.read (base.join n) = .ok c) :
    d.get? (d.spot base ++ [n]) = some (.file c) := by
  rw [← spot_join d base hn]
  exact get?_of_entry (hd.straight _) (read_eq_ok_iff.mp hread)

/-- The way to a file that is read leads through no other file. -/
theorem not_on_way (hd : d.Sound) (hread : d.read p = .ok c) (hfile : d.get? l = some (.file c')) :
    ∀ m ∈ d.way p, ¬ l <+: m := by
  intro m hm
  obtain ⟨-, hfolders, -⟩ := (entry_eq_ok_iff_spot (hd.straight p)).mp (read_eq_ok_iff.mp hread)
  exact hd.not_prefix_of_file hfile (hfolders m hm)

/-- A file is read as before when another one of its folder has been written. -/
theorem read_beside_written (hd : d.Sound) (h : Frame [d.spot base ++ [k]] [] d d')
    (hn : Path.Plain n)
    (hk : Path.Plain k) (hne : k ≠ n) (hread : d.read (base.join n) = .ok c)
    (hwritten : d'.read (base.join k) = .ok c') : d'.read (base.join n) = .ok c := by
  have hd' := h.sound hd
  have hfile := file_of_read hd' hk hwritten
  rw [h.spot] at hfile
  refine read_of_frame hd h hread ?_ ?_
  · intro m hm
    refine not_on_way hd' hwritten hfile m ?_
    rwa [h.way, mem_way_join hk, ← mem_way_join hn]
  · rw [spot_join d base hn]
    exact (Apart.of_ne hne).1

/-- A file is read as before when another one of its folder has been deleted. -/
theorem read_beside_deleted (hd : d.Sound) (hn : Path.Plain n) (hk : Path.Plain k) (hne : k ≠ n)
    (hread : d.read (base.join n) = .ok c) (hdeleted : d.read (base.join k) = .ok c') :
    (d.remove (d.spot base ++ [k])).read (base.join n) = .ok c := by
  have hfile := file_of_read hd hk hdeleted
  refine read_of_frame hd (frame_remove _ d) hread (not_on_way hd hread hfile) ?_
  rw [spot_join d base hn]
  exact (Apart.of_ne hne).1

end Disk

namespace Conversion

variable {σ : Type} {crew : Crew σ} {size : Path → Content → Option (Nat × Nat)}
    {settings : Settings}
  {project : Path} {s s' : Stage σ} {d : Disk} {n k : Text} {side : Nat}

/-- What lies at the end of a path is a picture of this width and height. -/
def IsSquare (size : Path → Content → Option (Nat × Nat)) (d : Disk) (p : Path) (side : Nat) :
    Prop :=
  ∃ content, d.read p = .ok content ∧ size p content = some (side, side)

/-- A square picture in the project folder. -/
structure SquarePicture (size : Path → Content → Option (Nat × Nat)) (d : Disk) (project : Path)
    (n : Text) : Prop where
  listed : n ∈ d.names (d.spot project)
  named : Disk.Act.Matches pictureExtensions n
  square : ∃ side, IsSquare size d (project.join n) side

theorem measure_eq_iff (hc : crew.Draws size) {p : Path} {c : σ} :
    (crew.measure p d c).1 = some (side, side) ↔ IsSquare size d p side := by
  rw [hc.measured, IsSquare]
  cases d.read p with
  | error e => simp [Except.toOption]
  | ok content => simp [Except.toOption]

/-- One jacket is made. All that could be read in the folder can still be read, and the jacket alone
may be another. -/
theorem resize_eq_ok (hc : crew.Draws size) (hd : s.disk.Sound) (hk : Path.Plain k) {source : Path}
    (h : crew.resize source (project.join k) side side s = (.ok (), s')) :
    Frame [s.disk.spot project ++ [k]] [] s.disk s'.disk ∧
      IsSquare size s'.disk (project.join k) side ∧
      ∀ n c, Path.Plain n → s.disk.read (project.join n) = .ok c →
        ∃ c', s'.disk.read (project.join n) = .ok c' ∧ (k ≠ n → c' = c) := by
  obtain ⟨hframe, content, hread, hsize⟩ := hc.resized _ _ _ _ _ _ hd h
  rw [Disk.spot_join _ _ hk] at hframe
  refine ⟨hframe, ⟨content, hread, hsize⟩, ?_⟩
  intro n c hn hbefore
  by_cases hne : k = n
  · exact ⟨content, hne ▸ hread, fun hother => absurd hne hother⟩
  · exact ⟨c, Disk.read_beside_written hd hframe hn hk hne hbefore hread, fun _ =>
      rfl⟩

theorem makeJacketsOf_of_draws (hc : crew.Draws size) (hd : s.disk.Sound) (hn : Path.Plain n)
    {picture : Content}
    (hpicture : s.disk.read (project.join n) = .ok picture)
    (h : makeJacketsOf crew settings project n s = (.ok (), s')) :
    Frame ((jacketNames (some n)).map (s.disk.spot project ++ [·])) [] s.disk s'.disk ∧
      IsSquare size s'.disk (project.join jacketName) settings.jacketSize ∧
      IsSquare size s'.disk (project.join thumbnailName) settings.thumbnailSize ∧
      (s'.disk.get? (s.disk.spot project ++ [n]) = none ↔ n ∉ downloadNames) := by
  obtain ⟨_, s₁, hlarge, h⟩ := Work.bind_eq_ok_iff.mp h
  obtain ⟨_, s₂, hsmall, h⟩ := Work.bind_eq_ok_iff.mp h
  obtain ⟨hframe₁, ⟨jacket, hjacket, hlargeSize⟩, hreads₁⟩ :=
    resize_eq_ok hc hd plain_jacketName hlarge
  have hd₁ := hframe₁.sound hd
  obtain ⟨hframe₂, ⟨thumbnail, hthumbnail, hsmallSize⟩, hreads₂⟩ :=
    resize_eq_ok hc hd₁ plain_thumbnailName hsmall
  have hd₂ := hframe₂.sound hd₁
  rw [hframe₁.spot] at hframe₂
  -- The second jacket is made in another place than the first, and both leave the picture to be
  -- read.
  obtain ⟨jacket', hjacket', heq⟩ := hreads₂ jacketName jacket plain_jacketName hjacket
  obtain rfl := heq (by decide)
  obtain ⟨picture₁, hpicture₁, -⟩ := hreads₁ n picture hn hpicture
  obtain ⟨picture₂, hpicture₂, -⟩ := hreads₂ n picture₁ hn hpicture₁
  have hspot : s₂.disk.spot project = s.disk.spot project :=
    (hframe₂.spot project).trans (hframe₁.spot project)
  have hboth : Frame ((jacketNames (some n)).map (s.disk.spot project ++ [·])) [] s.disk s₂.disk :=
    (hframe₁.among (by simp [jacketNames])).trans (hframe₂.among (by simp [jacketNames]))
  rcases spent_eq_ok h with ⟨hdownload, rfl⟩ | ⟨hdownload, hdeleted⟩
  · refine ⟨hboth, ⟨_, hjacket', hlargeSize⟩, ⟨_, hthumbnail, hsmallSize⟩, ?_⟩
    rw [← hspot, Disk.file_of_read hd₂ hn hpicture₂]
    simp [hdownload]
  · rw [Disk.Act.delete_of_read (hd₂.straight _) hpicture₂, Disk.spot_join _ _ hn] at hdeleted
    obtain ⟨-, hremoved⟩ := Prod.mk.inj hdeleted
    have hother : ∀ k ∈ downloadNames, n ≠ k := fun k hk heq => hdownload (heq ▸ hk)
    rw [← hremoved]
    refine ⟨?_, ⟨_, ?_, hlargeSize⟩, ⟨_, ?_, hsmallSize⟩, ?_⟩
    · rw [hspot]
      exact hboth.trans ((Disk.frame_remove _ _).among (by simp [jacketNames]))
    · exact Disk.read_beside_deleted hd₂ plain_jacketName hn
        (hother _ (by decide)) hjacket' hpicture₂
    · exact Disk.read_beside_deleted hd₂ plain_thumbnailName hn
        (hother _ (by decide)) hthumbnail hpicture₂
    · rw [hspot, Disk.get?_remove (by simp), if_pos (List.prefix_refl _)]
      simp [hdownload]

/-- A folder with a picture that cannot be read, one that is not square, and two that are. -/
def Sample.pictures : Stage Rehearsal.Scene where
  disk :=
    { entries :=
        [(["w", "p", "0.png"], .file (.bytes [1])),
          (["w", "p", "1.PNG"], .file (.picture 4 3 .png)),
          (["w", "p", "1080_base.jpg"], .file (.picture 5 5 .jpeg)),
            (["w", "p", "z.jpg"], .file (.picture 7 7 .jpeg)),
          (["w", "p"], .folder), (["w"], .folder)]
      home := ["w"] }
  crew := { terminal := { input := [], output := [] } }

/-- A crew that does all its work. -/
def Sample.painter : Rehearsal.Script where
  audio := .scripted .perform .perform
  prompter := .fixed 0 none
  program := []

end Conversion
end ChartPackage
