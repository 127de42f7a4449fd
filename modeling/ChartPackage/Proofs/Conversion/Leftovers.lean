import Mathlib
import ChartPackage.Proofs.Conversion.Charts
import ChartPackage.Proofs.Conversion.Survival
import ChartPackage.Proofs.Rehearsal.Likeness
import ChartPackage.Proofs.Tools.Overwriting

/-!
A conversion over what an earlier one left in its work folder. The archive is unpacked into whatever
lies there, and then all that lies there counts as the package's; so leftovers make no difference
where unpacking replaces them, and may make one anywhere else.
-/

namespace ChartPackage

namespace Disk

/-- The disk with what lies at or below a place on another one. -/
def graft (root : Location) (other d : Disk) : Disk :=
  { d with entries := (other.entries.filter fun (m, _) => root <+: m) ++ d.entries }

theorem get?_graft {root : Location} {d : Disk} (hroot : root ≠ [])
    (hfree : ∀ m, root <+: m → d.get? m = none)
    (other : Disk) (m : Location) :
    (graft root other d).get? m = if root <+: m then other.get? m else d.get? m := by
  by_cases hm : m = []
  · subst hm
    simp [hroot]
  · have hothers := lookup_filter (fun k => decide (root <+: k)) m other.entries
    have hnone := hfree m
    rw [get?, if_neg hm] at hnone
    rw [get?, get?, get?, if_neg hm, if_neg hm, if_neg hm, graft, List.lookup_append, hothers]
    by_cases hin : root <+: m
    · rw [if_pos hin, if_pos (by simpa using hin), hnone hin, Option.or_none]
    · rw [if_neg hin, if_neg (by simpa using hin), Option.none_or]

end Disk

namespace Conversion

open Disk (Alike AlikeEnd Apart Littered Settled Tracked)

variable {σ : Type} {crew : Crew σ} {settings : Settings} {s s' s₁ : Stage σ} {package : Path}
    {output : Option Path}
  {goal : Disk}

/-- Taking in goes by where the paths of the package and the archive lead, and by what lies at or
below these places. -/
theorem takeIn_alike {seen : Location → Prop} {places : Places} (hcrew : s'.crew = s.crew)
    (halike : Alike seen s.disk s'.disk)
    (htracked : ∀ p ∈ [places.package, places.archive], Tracked s.disk s'.disk p)
    (hends : ∀ p ∈ [places.package, places.archive], ∀ l, s.disk.locate p = .ok l → seen l)
    (hdisplayed : ∀ p ∈ [places.package, places.archive], Alike.Displayed seen s.disk p) :
    (takeIn settings places s').1 = (takeIn settings places s).1 ∧
      (takeIn settings places s').2.crew = (takeIn settings places s).2.crew ∧
      Alike seen (takeIn settings places s).2.disk (takeIn settings places s').2.disk := by
  simp only [List.forall_mem_cons, List.not_mem_nil, IsEmpty.forall_iff, implies_true, and_true]
    at htracked hends hdisplayed
  have hchange : ∀ f : Disk → Except DiskFault Disk, AlikeEnd seen (f s.disk) (f s'.disk) →
      (Job.onDisk (.change f) s').1 = (Job.onDisk (.change f) s).1 ∧
        (Job.onDisk (.change f) s').2.crew = (Job.onDisk (.change f) s).2.crew ∧
        Alike seen (Job.onDisk (.change f) s).2.disk (Job.onDisk (.change f) s').2.disk := by
    intro f hf
    obtain ⟨hresult, hdisk⟩ := Disk.Act.change_alike halike hf
    exact ⟨congrArg (Except.mapError Fault.disk) hresult, hcrew, hdisk⟩
  rw [takeIn]
  split
  · exact hchange _ (halike.copy htracked.1 hends.1 htracked.2 hends.2)
  · exact hchange _ (halike.rename htracked.1 hdisplayed.1 htracked.2 hdisplayed.2)

theorem respects_takeIn (settings : Settings) (places : Places) :
    Work.Respects Stage.Same (takeIn settings places : Job σ Unit) := fun _ _ hs =>
  takeIn_alike hs.1 hs.2 (fun p _ => hs.2.tracked_all p) (fun _ _ _ _ => trivial)
    fun p _ => Disk.displayed_all _ p

/-- A package that can be taken in has a name. -/
theorem fileName?_of_takeIn (hd : s.disk.Sound)
    (h : takeIn settings (Places.ofPackage package output) s = (.ok (), s₁)) :
    ∃ name, package.fileName? = some name := by
  rw [takeIn] at h
  split at h
  · have hcopy := Disk.Act.change_eq_ok_iff.mp (Job.of_onDisk h)
    obtain ⟨a, _, ha, hfile, -⟩ := Disk.copy_eq_ok_iff.mp hcopy
    exact fileName?_of_file hd.toWellFormed (hd.direct _) (Disk.entry_eq_ok_iff.mpr ⟨a, ha, hfile⟩)
  · have hrename := Disk.Act.change_eq_ok_iff.mp (Job.of_onDisk h)
    have hnamed :=
      ((Disk.rename_eq_ok_iff (hd.direct _).way (hd.direct _).way).mp hrename).1
    exact ⟨_, Disk.fileName?_of_named hnamed⟩

/-- What is taken in, and where to, lies outside of the work folder. -/
theorem apart_of_takeIn (hd : s.disk.Sound)
    (h : takeIn settings (Places.ofPackage package output) s = (.ok (), s₁)) :
    ∀ p ∈ [package, (Places.ofPackage package output).archive],
      Apart (s.disk.spot p) (s.disk.spot (Places.ofPackage package output).workFolder) := by
  obtain ⟨name, hname⟩ := fileName?_of_takeIn hd h
  obtain ⟨-, hpackage, harchive⟩ :=
    Places.pairwise_beside_iff.mp (Places.apart_beside package output s.disk hname)
  rw [List.forall_mem_cons, List.forall_mem_singleton]
  exact ⟨hpackage, harchive⟩

/-- There is no litter on the ways along which the package is taken in. -/
theorem settled_before (hd : s.disk.Sound)
    (h : takeIn settings (Places.ofPackage package output) s = (.ok (), s₁)) :
    ∀ p ∈ [package, (Places.ofPackage package output).archive], ∀ m ∈ s.disk.way p,
      Settled (s.disk.spot (Places.ofPackage package output).workFolder) s.disk m := by
  obtain ⟨name, hname⟩ := fileName?_of_takeIn hd h
  have harchive : ∀ m ∈ s.disk.way (Places.ofPackage package output).archive,
      Settled (s.disk.spot (Places.ofPackage package output).workFolder) s.disk m := by
    intro m hm
    refine Or.inr ?_
    rw [(way_of_takeIn hd.toWellFormed (Places.free_of_sound hd) h
      (Places.mem_way_archive.mp hm)).1]
    exact Option.some_ne_none _
  rw [List.forall_mem_cons, List.forall_mem_singleton]
  refine ⟨fun m hm => ?_, harchive⟩
  cases Places.mem_way_package hname hm with
  | inl hm => exact harchive m hm
  | inr hm => exact hm ▸ Or.inl (apart_of_takeIn hd h package List.mem_cons_self).2

/-- Nor is there any on the way to the archive when the package has been taken in. -/
theorem settled_after (hd : s.disk.Sound)
    (h : takeIn settings (Places.ofPackage package output) s = (.ok (), s₁)) :
    ∀ m ∈ s.disk.way (Places.ofPackage package output).archive,
      Settled (s.disk.spot (Places.ofPackage package output).workFolder) s₁.disk m := by
  intro m hm
  have hways := way_of_takeIn hd.toWellFormed (Places.free_of_sound hd) h
    (Places.mem_way_archive.mp hm)
  cases hways.2 with
  | inl hfolder =>
      refine Or.inr ?_
      rw [hfolder]
      exact Option.some_ne_none _
  | inr hin =>
      obtain ⟨r, rfl⟩ := hin
      exact Or.inl ((apart_of_takeIn hd h package List.mem_cons_self).symm.not_prefix_append r)

/-- The package is taken in past the litter in the work folder. -/
theorem takeIn_littered (hd : s.disk.Sound) (hcrew : s'.crew = s.crew)
    (hlitter :
      Littered (s.disk.spot (Places.ofPackage package output).workFolder) goal s.disk s'.disk)
    (h : takeIn settings (Places.ofPackage package output) s = (.ok (), s₁)) :
    ∃ s₁', takeIn settings (Places.ofPackage package output) s' = (.ok (), s₁') ∧
      s₁'.crew = s₁.crew ∧
      Littered (s.disk.spot (Places.ofPackage package output).workFolder) goal s₁.disk
        s₁'.disk := by
  have hapart := apart_of_takeIn hd h
  have hways := settled_before hd h
  generalize hplaces : Places.ofPackage package output = places at *
  obtain rfl : places.package = package := by rw [← hplaces]; rfl
  have hspots : ∀ p ∈ [places.package, places.archive], ∀ r,
      Settled (s.disk.spot places.workFolder) s.disk (s.disk.spot p ++ r) :=
    fun p hp r => Or.inl ((hapart p hp).symm.not_prefix_append r)
  -- The package and the archive lie outside of the work folder, and so nothing in it is changed.
  have hinside : ∀ t : Stage σ, (∀ p, t.disk.Direct p) → t.disk.spot = s.disk.spot →
      ∀ m, s.disk.spot places.workFolder <+: m →
      (takeIn settings places t).2.disk.get? m = t.disk.get? m := by
    intro t hdirect ht m hm
    obtain ⟨r, rfl⟩ := hm
    refine (frame_takeIn (hdirect places.package) (hdirect _) settings).below_eq ?_ r
    rw [ht]
    simpa using hapart
  have hends : ∀ p ∈ [places.package, places.archive], ∀ l, s.disk.locate p = .ok l →
      Settled (s.disk.spot places.workFolder) s.disk l := by
    intro p hp l hl
    have hspot := hspots p hp []
    rwa [List.append_nil, ← Disk.spot_of_locate (hd.straight p) hl] at hspot
  obtain ⟨hresult, hcrew₁, halike₁⟩ := takeIn_alike hcrew hlitter.alike
    (fun p hp => hlitter.tracked (hways p hp) (hd.straight p)) hends
    fun p hp => .of_ways (hd.direct p).way (hways p hp) (hspots p hp)
  rw [h] at hresult hcrew₁ halike₁
  refine ⟨(takeIn settings places s').2, Prod.ext hresult rfl, hcrew₁, hlitter.carry halike₁ ?_ ?_⟩
  · have hkept := hinside s hd.direct rfl
    rwa [h] at hkept
  · refine hinside s' (fun p => ⟨fun m _ => ?_, fun r => ?_⟩) (funext hlitter.alike.spot)
    · exact hlitter.noLink (hd.noLink m)
    · exact hlitter.noLink (hd.noLink _)

/-- What has been taken in is unpacked the same way over litter in the work folder. -/
theorem lays_unpack (hu : crew.Unzips) (hd : s.disk.Sound)
    (h : takeIn settings (Places.ofPackage package output) s = (.ok (), s₁)) :
    Job.Lays (s.disk.spot (Places.ofPackage package output).workFolder)
      (crew.unpack (Places.ofPackage package output).archive
        (Places.ofPackage package output).workFolder) s₁ := by
  have hway := settled_after hd h
  have hframe := frame_takeIn (hd.direct (Places.ofPackage package output).package)
    (hd.direct _) settings
  rw [h] at hframe
  rw [← hframe.way] at hway
  refine hu.lays (hframe.sound hd) hway ?_ (fun m => Places.mem_way_archive.mpr)
    (Path.join_ne_nil (Places.plain_workName package))
  rw [hframe.spot]
  exact Or.inl (apart_of_takeIn hd h _ (by simp)).2

/-- Unpacking ends as it does without the litter, and leaves the same. -/
theorem unpack_littered (hu : crew.Unzips) (hd : s.disk.Sound) (hcrew : s'.crew = s.crew)
    (hlitter : Littered (s.disk.spot (Places.ofPackage package output).workFolder)
      (unpack crew settings (Places.ofPackage package output) s).2.disk s.disk s'.disk) :
    (unpack crew settings (Places.ofPackage package output) s').1 =
        (unpack crew settings (Places.ofPackage package output) s).1 ∧
      Stage.Same (unpack crew settings (Places.ofPackage package output) s).2
        (unpack crew settings (Places.ofPackage package output) s').2 := by
  rw [unpack_eq, Work.bind_apply] at hlitter ⊢
  rw [Work.bind_apply]
  cases htake : takeIn settings (Places.ofPackage package output) s with
  | mk result s₁ =>
      rw [htake] at hlitter
      cases result with
      | error f =>
          -- Nothing has been put anywhere, so there is no litter.
          dsimp only at hlitter
          rw [disk_of_takeIn_error htake] at hlitter
          obtain ⟨hresult, hstage⟩ :=
            respects_takeIn settings (Places.ofPackage package output) s s'
            ⟨hcrew, hlitter.of_goal⟩
          rw [htake] at hresult hstage
          cases htake' : takeIn settings (Places.ofPackage package output) s' with
          | mk result' s₁' =>
              rw [htake'] at hresult hstage
              obtain rfl : result' = .error f := hresult
              exact ⟨rfl, hstage⟩
      | ok _ =>
          obtain ⟨s₁', htake', hcrew₁, hlitter₁⟩ := takeIn_littered hd hcrew hlitter htake
          obtain ⟨hresult, hcrew₂, hlitter₂⟩ :=
            (lays_unpack hu hd htake).level _ s₁' hcrew₁ hlitter₁ (.refl _)
          rw [htake']
          exact ⟨hresult, hcrew₂, hlitter₂.of_goal⟩

open Rehearsal (Scene homeWith sound_homeWith)

/-- What a run leaves that has failed for want of a descriptor, of an archive with nothing but a
folder. -/
def abandoned : Stage Scene where
  disk :=
    { entries := (["w", "extracted_song", "a"], .folder) :: (["w", "extracted_song"], .folder) ::
        (["w", "song.zip"], .file (.archive [("a/", .bytes [])])) :: Sample.surroundings
      home := ["w"] }
  crew := { events := [Sample.unpacking], terminal := { input := [], output := [] } }

end Conversion
end ChartPackage
