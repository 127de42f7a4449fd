import Mathlib
import ChartPackage.Proofs.Conversion.Steps

/-!
The package through a run that fails. Its content is renamed or copied first and deleted last, and
all that is done in between is done elsewhere, so there is always a place where it lies.
-/

namespace ChartPackage.Conversion

open Disk (Frame Apart)

variable {σ : Type} {crew : Crew σ} {settings : Settings} {places : Places} {s s' : Stage σ}
  {package : Path} {c : Content}

/-- Where the package's content lies from when it is taken in until the end. -/
def heldAt (settings : Settings) (places : Places) : Path :=
  if settings.keepPackage then places.package else places.archive

theorem held_of_takeIn (hp : s.disk.Direct places.package) (ha : s.disk.Direct places.archive)
    {c : Content}
    (hfile : s.disk.entry places.package = .ok (.file c))
    (hapart : Apart (s.disk.spot places.package) (s.disk.spot places.archive))
    (h : takeIn settings places s = (.ok (), s')) :
    s'.disk.get? (s.disk.spot (heldAt settings places)) = some (.file c) := by
  have hthere := Disk.get?_of_entry hp.straight hfile
  rw [takeIn] at h
  rw [heldAt]
  split at h
  · next hkeep =>
      have hframe :=
        (Disk.frame_copy ha.straight (Disk.Act.change_eq_ok_iff.mp (Job.of_onDisk h))).1
      rw [if_pos hkeep]
      exact hframe.some_of_some (by simpa using hapart.2) hthere
  · next hkeep =>
      have hrename :=
        Disk.frame_rename hp.way ha.way (Disk.Act.change_eq_ok_iff.mp (Job.of_onDisk h))
      have harrived := hrename.2.1 []
      rw [List.append_nil, List.append_nil] at harrived
      rw [if_neg hkeep, harrived, hthere]

theorem disk_of_takeIn_error {f : Fault} (h : takeIn settings places s = (.error f, s')) :
    s'.disk = s.disk := by
  rw [takeIn] at h
  split at h
  · obtain ⟨e, he⟩ := Job.error_of_onDisk h
    exact Disk.Act.eq_of_change_error he
  · obtain ⟨e, he⟩ := Job.error_of_onDisk h
    exact Disk.Act.eq_of_change_error he

/-- A file that has been renamed can be deleted where it was, as long as the way to its new name is
open. -/
structure Deletable (d : Disk) (places : Places) : Prop where
  neat : places.package.Neat
  usable : places.package.Usable
  way : ∀ m ∈ d.way places.package, m ∈ d.way places.archive ∧ ¬ d.spot places.package <+: m

theorem Deletable.congr {d d' : Disk} {roots made : List Location} (h : Deletable d places)
    (hframe : Frame roots made d d') : Deletable d' places where
  neat := h.neat
  usable := h.usable
  way := by
    rw [hframe.way, hframe.way, hframe.spot]
    exact h.way

theorem deletable_of_rename {d d' : Disk} {output : Option Path} (hd : d.WellFormed)
    (hs : d.Direct package) (ha : d.Direct (Places.ofPackage package output).archive)
    (hfile : d.get? (d.spot package) = some (.file c))
    (h : Disk.rename package (Places.ofPackage package output).archive d = .ok d') :
    Deletable d (Places.ofPackage package output) := by
  obtain ⟨hsource, -, -, a, b, e, haim, hea, -, hslash, -⟩ :=
    (Disk.rename_eq_ok_iff hs.way ha.way).mp h
  obtain ⟨-, -, rfl⟩ := (Disk.aim_eq_ok_iff hs.way hsource).mp haim
  obtain rfl := Option.some.inj (hea.symm.trans hfile)
  have hneat : package.Neat := ⟨hsource, (hslash nofun).1⟩
  obtain ⟨husable, hway, -⟩ :=
    (Disk.locate_eq_ok_iff hs.straight).mp
      ((Disk.aim_eq_ok_iff_locate hs.straight hneat).mp haim)
  refine ⟨hneat, husable, ?_⟩
  intro m hm
  have hout := hd.not_prefix_of_file hfile (hway m hm)
  refine ⟨?_, hout⟩
  cases Places.mem_way_package (Disk.fileName?_of_named hsource) hm with
  | inl hm => exact hm
  | inr hm => exact absurd (hm ▸ List.prefix_refl _) hout

/-- A package that has been renamed can be deleted where it was. -/
theorem deletable_of_takeIn {output : Option Path} (hd : s.disk.WellFormed)
    (hs : s.disk.Direct package) (ha : s.disk.Direct (Places.ofPackage package output).archive)
    (hfile : s.disk.get? (s.disk.spot package) = some (.file c))
    (h : takeIn settings (Places.ofPackage package output) s = (.ok (), s'))
    (hkeep : settings.keepPackage = false) :
    Deletable s'.disk (Places.ofPackage package output) := by
  have hframe := frame_takeIn hs ha settings
  rw [h] at hframe
  rw [takeIn, hkeep, if_neg Bool.false_ne_true] at h
  have hrename := Disk.Act.change_eq_ok_iff.mp (Job.of_onDisk h)
  exact (deletable_of_rename hd hs ha hfile hrename).congr hframe

/-- When the archive has been deleted, deleting what lies at the package's place cannot fail. -/
theorem archive_of_deletions {d d' : Disk} {e : DiskFault} (hd : d.WellFormed)
    (hfree : places.Free d none) (hopen : Deletable d places)
    (hapart : Apart (d.spot places.package) (d.spot places.archive))
    (hheld : d.get? (d.spot places.archive) = some (.file c))
    (h : (Disk.Act.delete places.archive >>= fun _ => Disk.Act.delete places.package) d =
      (.error e, d')) :
    d'.get? (d.spot places.archive) = some (.file c) := by
  have hkept : ∀ d₁, d₁ = d → Disk.Act.delete places.package d₁ = (.error e, d') →
      d'.get? (d.spot places.archive) = some (.file c) := by
    intro d₁ hsame hdelete
    have hframe := Disk.Act.frame_delete hfree.package.way
    rw [← hsame, hdelete, hsame] at hframe
    exact hframe.some_of_some (by simpa using hapart.1) hheld
  cases Disk.Act.delete_of_file hfree.archive.straight hheld with
  | inl hdeleted =>
      obtain ⟨hway, hok⟩ := hdeleted
      have hframe := Disk.frame_remove (d.spot places.archive) d
      have hnext : ∃ d₂, Disk.Act.delete places.package (d.remove (d.spot places.archive)) =
          (.ok (), d₂) := by
        have hp := hframe.direct (by simpa using hfree.archive.clean) hfree.package
        refine Disk.Act.delete_of_neat hp hopen.neat hopen.usable fun m hm => ?_
        rw [hframe.way] at hm
        obtain ⟨hm, hout⟩ := hopen.way m hm
        rw [hframe.spot]
        refine ⟨hframe.some_of_some ?_ (hway m hm), hout⟩
        rw [List.forall_mem_singleton]
        exact hd.not_prefix_of_file hheld (hway m hm)
      obtain ⟨d₂, hnext⟩ := hnext
      rw [Work.bind_apply, hok] at h
      cases hnext.symm.trans h
  | inr hsame =>
      cases Work.bind_eq_error_iff.mp h with
      | inl herror =>
          rw [herror] at hsame
          rw [show d' = d from hsame]
          exact hheld
      | inr hnext =>
          obtain ⟨_, d₁, hok, hdelete⟩ := hnext
          rw [hok] at hsame
          exact hkept d₁ hsame hdelete

theorem apart_held {d : Disk} {l : Location} (hpackage : Apart (d.spot places.package) l)
    (harchive : Apart (d.spot places.archive) l) : Apart l (d.spot (heldAt settings places)) := by
  rw [heldAt]
  split
  · exact hpackage.symm
  · exact harchive.symm

theorem fileName?_of_file {d : Disk} (hd : d.WellFormed) (hp : d.Direct package)
    (hfile : d.entry package = .ok (.file c)) :
    ∃ name, package.fileName? = some name := by
  cases hname : package.fileName? with
  | some name => exact ⟨name, rfl⟩
  | none =>
      obtain ⟨-, hway, he⟩ := (Disk.entry_eq_ok_iff_spot hp.straight).mp hfile
      rw [Disk.folder_of_nameless hd hname hway] at he
      cases he

/-- What holds of the disk from when the package is taken in until cleaning up. -/
structure Holding (settings : Settings) (places : Places) (songId? : Option Text) (c : Content)
    (d : Disk) : Prop where
  wellFormed : d.WellFormed
  free : places.Free d songId?
  held : d.get? (d.spot (heldAt settings places)) = some (.file c)
  deletable : settings.keepPackage = false → Deletable d places

namespace Holding

variable {id? : Option Text}

/-- The content stays where it is when something is done elsewhere. -/
theorem frame {d d' : Disk} {roots made : List Location} (h : Holding settings places id? c d)
    (hframe : Frame roots made d d') (hroots : ∀ root ∈ roots, d.Clean root)
    (helsewhere : ∀ root ∈ roots, ¬ root <+: d.spot (heldAt settings places)) :
    Holding settings places id? c d' where
  wellFormed := hframe.wellFormed h.wellFormed
  free q hq := hframe.direct hroots (h.free q hq)
  held := by
    rw [hframe.spot]
    exact hframe.some_of_some helsewhere h.held
  deletable hkeep := (h.deletable hkeep).congr hframe

theorem of_takeIn (hd : s.disk.WellFormed)
    (hfree : (Places.ofPackage package settings.outputFolder).Free s.disk id?)
    (hfile : s.disk.entry package = .ok (.file c))
    (h : takeIn settings (Places.ofPackage package settings.outputFolder) s = (.ok (), s')) :
    Holding settings (Places.ofPackage package settings.outputFolder) id? c s'.disk := by
  obtain ⟨name, hname⟩ := fileName?_of_file hd hfree.package hfile
  obtain ⟨hapart, -, -⟩ := Places.pairwise_beside_iff.mp
    (Places.apart_beside package settings.outputFolder s.disk hname)
  have hframe := frame_takeIn hfree.package hfree.archive settings
  rw [h] at hframe
  have hroots := Disk.Act.clean_spots hfree.package hfree.archive
  refine ⟨hframe.wellFormed hd, fun q hq => hframe.direct hroots (hfree q hq), ?_, ?_⟩
  · rw [hframe.spot]
    exact held_of_takeIn hfree.package hfree.archive hfile hapart h
  · exact deletable_of_takeIn hd hfree.package hfree.archive
      (Disk.get?_of_entry hfree.package.straight hfile) h

/-- What is unpacked is unpacked into the work folder, and so is the song list written. -/
theorem of_opening (hc : crew.Contained) (hd : s.disk.WellFormed)
    (hfree : (Places.ofPackage package settings.outputFolder).Free s.disk id?)
    (hfile : s.disk.entry package = .ok (.file c))
    (now : Int64) (h : takeIn settings (Places.ofPackage package settings.outputFolder) s =
      (.ok (), s')) :
    Holding settings (Places.ofPackage package settings.outputFolder) id? c
        (opening crew settings now package s).2.disk ∧
      (opening crew settings now package s).2.disk.spot = s.disk.spot := by
  obtain ⟨name, hname⟩ := fileName?_of_file hd hfree.package hfile
  obtain ⟨-, hpackageWork, harchiveWork⟩ := Places.pairwise_beside_iff.mp
    (Places.apart_beside package settings.outputFolder s.disk hname)
  have hholding := of_takeIn hd hfree hfile h
  have htake := frame_takeIn hfree.package hfree.archive settings
  have hwork := hholding.free.workFolder
  have hsurvey := frame_survey hc hholding.wellFormed hwork now
  rw [h] at htake
  rw [opening, Work.bind_apply, h]
  refine ⟨hholding.frame hsurvey (by simpa using hwork.clean) ?_,
    (funext hsurvey.spot).trans (funext htake.spot)⟩
  rw [List.forall_mem_singleton, htake.spot, htake.spot]
  exact (apart_held hpackageWork harchiveWork).1

/-- The song is made in the work folder and in the folders of the song. -/
theorem make {n id : Text} (h : Holding settings places (some id) c s.disk)
    (hc : crew.Contained) (hn : Path.Plain n)
    (hspots : places.Separate s.disk id) (allowed : Whitelists) :
    Holding settings places (some id) c
        (Conversion.make crew settings allowed places (places.workFolder.join n) id s).2.disk ∧
      (Conversion.make crew settings allowed places (places.workFolder.join n) id s).2.disk.spot =
        s.disk.spot := by
  have hp := h.free.workFolder.join hn
  have hmake := frame_make hc h.wellFormed hp h.free.downloadFolder h.free.contentFolder settings
    allowed
  refine ⟨h.frame hmake ?_ ?_, funext hmake.spot⟩
  · simpa using ⟨hp.clean, h.free.downloadFolder.clean, h.free.contentFolder.clean⟩
  · simp only [List.forall_mem_cons, List.not_mem_nil, IsEmpty.forall_iff, implies_true, and_true]
    rw [Disk.spot_join _ _ hn]
    exact ⟨fun hproject => (apart_held hspots.package_work hspots.archive_work).1
      ((List.prefix_append _ _).trans hproject),
      (apart_held hspots.package_download hspots.archive_download).1,
      (apart_held hspots.package_content hspots.archive_content).1⟩

/-- The content is not lost by cleaning up that fails. -/
theorem cleanUp {d d' : Disk} {e : DiskFault} (h : Holding settings places id? c d)
    (hapart : ([places.package, places.archive, places.workFolder].map d.spot).Pairwise Apart)
    (hclean : Conversion.cleanUp settings places d = (.error e, d')) :
    d'.get? (d.spot (heldAt settings places)) = some (.file c) := by
  obtain ⟨hpackageArchive, hpackageWork, harchiveWork⟩ := Places.pairwise_beside_iff.mp hapart
  have hwork := Disk.Act.frame_delete h.free.workFolder.way
  have hholding := h.frame hwork (by simpa using h.free.workFolder.clean)
    (by simpa using (apart_held hpackageWork harchiveWork).1)
  rw [← hwork.spot]
  cases Work.bind_eq_error_iff.mp hclean with
  | inl herror =>
      rw [herror] at hholding ⊢
      exact hholding.held
  | inr hrest =>
      obtain ⟨_, d₁, hok, hrest⟩ := hrest
      rw [hok] at hwork hholding ⊢
      rw [← hwork.spot, ← hwork.spot] at hpackageArchive
      cases hkeep : settings.keepPackage with
      | true =>
          have hplace : heldAt settings places = places.package := by rw [heldAt, hkeep, if_pos rfl]
          have hheld := hholding.held
          rw [hplace] at hheld ⊢
          rw [hkeep] at hrest
          have harchive := Disk.Act.frame_delete hholding.free.archive.way
          have hkept := harchive.some_of_some (by simpa using hpackageArchive.2) hheld
          cases Work.bind_eq_error_iff.mp hrest with
          | inl herror =>
              rw [herror] at hkept
              exact hkept
          | inr hdone =>
              obtain ⟨_, d₂, -, hdone⟩ := hdone
              cases hdone
      | false =>
          have hplace : heldAt settings places = places.archive := by
            rw [heldAt, hkeep, if_neg Bool.false_ne_true]
          have hheld := hholding.held
          rw [hplace] at hheld ⊢
          rw [hkeep] at hrest
          exact archive_of_deletions hholding.wellFormed hholding.free.beside
            (hholding.deletable hkeep) hpackageArchive hheld hrest

end Holding

/-- A run that takes in the package and fails then leaves the content where it is held. -/
theorem held_of_failed_run (hc : crew.Contained) (hd : s.disk.WellFormed) {now : Int64}
    (hfree : (Places.ofPackage package settings.outputFolder).Free s.disk
      (songId? crew settings now package s))
    (hfile : s.disk.entry package = .ok (.file c)) {allowed : Whitelists}
    (hapart : ∀ id, songId? crew settings now package s = some id →
      ((Places.ofPackage package settings.outputFolder).spots s.disk id).Pairwise Apart)
    {s₁ : Stage σ}
    (htake : takeIn settings (Places.ofPackage package settings.outputFolder) s = (.ok (), s₁))
    {f : Fault} (h : run crew settings allowed now package s = (.error f, s')) :
    s'.disk.get? (s.disk.spot (heldAt settings (Places.ofPackage package settings.outputFolder))) =
      some (.file c) := by
  obtain ⟨name, hname⟩ := fileName?_of_file hd hfree.package hfile
  have hbeside := Places.apart_beside package settings.outputFolder s.disk hname
  obtain ⟨hopened, hspot⟩ := Holding.of_opening hc hd hfree hfile now htake
  rw [run_eq] at h
  rw [← hspot]
  cases Work.bind_eq_error_iff.mp h with
  | inl herror =>
      rw [herror] at hopened ⊢
      exact hopened.held
  | inr hrest =>
      obtain ⟨⟨project, id⟩, s₂, hopening, hrest⟩ := hrest
      obtain ⟨n, hn, rfl, -, -⟩ := opening_eq_ok hc.steady hd hfree.beside hopening
      have hid : songId? crew settings now package s = some id := by
        rw [songId?, hopening]
        rfl
      have hspots := hapart id hid
      rw [hid, hopening] at hopened
      rw [hopening] at hspot ⊢
      rw [Places.spots, ← hspot] at hspots
      obtain ⟨hmade, hspot'⟩ := hopened.make hc hn (Places.separate_of_pairwise hspots) allowed
      rw [← hspot']
      dsimp only at hrest
      cases Work.bind_eq_error_iff.mp hrest with
      | inl herror =>
          rw [herror] at hmade ⊢
          exact hmade.held
      | inr hrest =>
          obtain ⟨outcome, s₃, hmaking, hrest⟩ := hrest
          rw [hmaking] at hmade hspot' ⊢
          cases Work.bind_eq_error_iff.mp hrest with
          | inl herror =>
              obtain ⟨e, he⟩ := Job.error_of_onDisk herror
              rw [← hspot, ← hspot'] at hbeside
              exact hmade.cleanUp hbeside he
          | inr hdone =>
              obtain ⟨_, s₄, -, hdone⟩ := hdone
              cases hdone

open Rehearsal (homeWith sound_homeWith)

end ChartPackage.Conversion
