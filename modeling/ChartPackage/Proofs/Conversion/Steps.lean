import Mathlib
import ChartPackage.Conversion.Run
import ChartPackage.Proofs.Conversion.Crew
import ChartPackage.Proofs.Conversion.Places
import ChartPackage.Proofs.Rehearsal.Crew
import ChartPackage.Proofs.Song.Entry
import ChartPackage.Proofs.Text.Utf8

/-!
A conversion in stretches: the package is taken in, the project surveyed, its files made and partly
published, the charts and all else moved, and the rest cleaned up. Each stretch has the places that
it may change, whether it succeeds or fails.
-/

namespace ChartPackage

namespace Conversion

open Disk (Frame Steady)

variable {σ : Type}

/-! ### The stretches -/

/-- Gives the package the name of an archive, or copies it there. -/
def takeIn (settings : Settings) (places : Places) : Job σ Unit :=
  if settings.keepPackage then Job.onDisk (.change (Disk.copy places.package places.archive))
  else Job.onDisk (.change (Disk.rename places.package places.archive))

/-- Unpacks the archive and writes the song list; gives the project folder and the song's id. -/
def survey (crew : Crew σ) (places : Places) (now : Int64) : Job σ (Path × Text) := do
  crew.unpack places.archive places.workFolder
  let project ← findProject places
  let songId ← writeSongList now project
  return (project, songId)

/-- Makes the pictures and the audio, publishes the downloads and makes ready for the charts; gives
what the jackets and the track were made of. -/
def furnish (crew : Crew σ) (settings : Settings) (places : Places) (project : Path)
    (songId : Text) :
    Job σ (Option Text × Option Text) := do
  let jacketSource ← makeJackets crew settings project
  let trackSource ← makeTrack crew project
  makePreview crew settings project
  Job.onDisk (publishDownloads project (places.downloadFolder songId))
  Job.onDisk (Disk.Act.ensureFolders (places.contentFolder songId))
  Job.onDisk (discardSources project)
  return (jacketSource, trackSource)

/-- Processes the charts and moves them with all else that is left of the project. -/
def gather (crew : Crew σ) (allowed : Whitelists) (places : Places) (project : Path)
    (songId : Text) :
    Job σ ChartOutcome := do
  let charts ← processCharts crew allowed project
  let _ ← Job.onDisk (Disk.Act.moveContents (fun _ => true) project (places.contentFolder songId))
  return charts

/-- A run up to the song's id. -/
def opening (crew : Crew σ) (settings : Settings) (now : Int64) (package : Path) :
    Job σ (Path × Text) := do
  let places := Places.ofPackage package settings.outputFolder
  takeIn settings places
  survey crew places now

/-- A run from the song's id on, but for the cleaning up. -/
def make (crew : Crew σ) (settings : Settings) (allowed : Whitelists) (places : Places)
    (project : Path)
    (songId : Text) : Job σ Outcome := do
  let (jacketSource, trackSource) ← furnish crew settings places project songId
  let charts ← gather crew allowed places project songId
  return {
    songId := songId
    downloadFolder := places.downloadFolder songId
    contentFolder := places.contentFolder songId
    jacketSource := jacketSource
    trackSource := trackSource
    charts := charts }

theorem unpack_eq (crew : Crew σ) (settings : Settings) (places : Places) :
    unpack crew settings places =
      (takeIn settings places >>= fun _ => crew.unpack places.archive places.workFolder) := by
  rw [unpack, takeIn]
  split
  · rfl
  · rfl

theorem run_eq (crew : Crew σ) (settings : Settings) (allowed : Whitelists) (now : Int64)
    (package : Path) :
    run crew settings allowed now package = do
      let places := Places.ofPackage package settings.outputFolder
      let (project, songId) ← opening crew settings now package
      let outcome ← make crew settings allowed places project songId
      Job.onDisk (cleanUp settings places)
      return outcome := by
  simp only [run, opening, make, unpack_eq, survey, furnish, gather, bind_assoc, pure_bind]

/-- The stretches of a run that succeeds. -/
theorem run_eq_ok {crew : Crew σ} {settings : Settings} {allowed : Whitelists} {now : Int64}
    {package : Path}
    {o : Outcome} {s s' : Stage σ} (h : run crew settings allowed now package s = (.ok o, s')) :
    ∃ project s₁ s₂ s₃, opening crew settings now package s = (.ok (project, o.songId), s₁) ∧
      furnish crew settings (Places.ofPackage package settings.outputFolder) project o.songId s₁ =
        (.ok (o.jacketSource, o.trackSource), s₂) ∧
      gather crew allowed (Places.ofPackage package settings.outputFolder) project o.songId s₂ =
        (.ok o.charts, s₃) ∧
      cleanUp settings (Places.ofPackage package settings.outputFolder) s₃.disk =
        (.ok (), s'.disk) ∧
      o.downloadFolder = (Places.ofPackage package settings.outputFolder).downloadFolder o.songId ∧
      o.contentFolder = (Places.ofPackage package settings.outputFolder).contentFolder
        o.songId := by
  rw [run_eq] at h
  obtain ⟨found, s₁, hopen, h⟩ := Work.bind_eq_ok_iff.mp h
  obtain ⟨outcome, s₃, hmake, h⟩ := Work.bind_eq_ok_iff.mp h
  obtain ⟨_, s₄, hclean, h⟩ := Work.bind_eq_ok_iff.mp h
  obtain ⟨hsame, rfl⟩ := Work.pure_eq_ok_iff.mp h
  obtain rfl := hsame.symm
  obtain ⟨sources, s₂, hfurnish, hmake⟩ := Work.bind_eq_ok_iff.mp hmake
  obtain ⟨charts, s₅, hgather, hmake⟩ := Work.bind_eq_ok_iff.mp hmake
  obtain ⟨rfl, rfl⟩ := Work.pure_eq_ok_iff.mp hmake
  exact ⟨found.1, s₁, s₂, s₅, hopen, hfurnish, hgather, Job.of_onDisk hclean, rfl, rfl⟩

theorem run_of_stretches {crew : Crew σ} {settings : Settings} {allowed : Whitelists} {now : Int64}
    {package project : Path} {o : Outcome} {s s₁ s₂ s₃ : Stage σ} {d : Disk}
    (hopen : opening crew settings now package s = (.ok (project, o.songId), s₁))
    (hfurnish : furnish crew settings (Places.ofPackage package settings.outputFolder) project
      o.songId s₁ = (.ok (o.jacketSource, o.trackSource), s₂))
    (hgather : gather crew allowed (Places.ofPackage package settings.outputFolder) project
      o.songId s₂ = (.ok o.charts, s₃))
    (hclean : cleanUp settings (Places.ofPackage package settings.outputFolder) s₃.disk =
      (.ok (), d))
    (hdownload : o.downloadFolder =
      (Places.ofPackage package settings.outputFolder).downloadFolder o.songId)
    (hcontent : o.contentFolder =
      (Places.ofPackage package settings.outputFolder).contentFolder o.songId) :
    run crew settings allowed now package s = (.ok o, { s₃ with disk := d }) := by
  have hmake : make crew settings allowed (Places.ofPackage package settings.outputFolder) project
      o.songId s₁ = (.ok o, s₃) := by
    refine Work.bind_eq_ok_iff.mpr ⟨_, _, hfurnish, Work.bind_eq_ok_iff.mpr ⟨_, _, hgather, ?_⟩⟩
    rw [← hdownload, ← hcontent]
    rfl
  rw [run_eq]
  refine Work.bind_eq_ok_iff.mpr ⟨_, _, hopen, Work.bind_eq_ok_iff.mpr ⟨o, s₃, hmake, ?_⟩⟩
  refine Work.bind_eq_ok_iff.mpr ⟨(), { s₃ with disk := d }, ?_, rfl⟩
  rw [Job.onDisk, hclean]
  rfl

theorem furnish_eq_ok {crew : Crew σ} {settings : Settings} {places : Places} {project : Path}
    {songId : Text}
    {sources : Option Text × Option Text} {s s' : Stage σ}
    (h : furnish crew settings places project songId s = (.ok sources, s')) :
    ∃ s₁ s₂ s₃ d₁ d₂, makeJackets crew settings project s = (.ok sources.1, s₁) ∧
      makeTrack crew project s₁ = (.ok sources.2, s₂) ∧ makePreview crew settings project s₂ =
        (.ok (), s₃) ∧
      publishDownloads project (places.downloadFolder songId) s₃.disk = (.ok (), d₁) ∧
      Disk.Act.ensureFolders (places.contentFolder songId) d₁ = (.ok (), d₂) ∧
      discardSources project d₂ = (.ok (), s'.disk) := by
  obtain ⟨jacketSource, s₁, hjackets, h⟩ := Work.bind_eq_ok_iff.mp h
  obtain ⟨trackSource, s₂, htrack, h⟩ := Work.bind_eq_ok_iff.mp h
  obtain ⟨_, s₃, hpreview, h⟩ := Work.bind_eq_ok_iff.mp h
  obtain ⟨_, s₄, hpublish, h⟩ := Work.bind_eq_ok_iff.mp h
  obtain ⟨_, s₅, hensure, h⟩ := Work.bind_eq_ok_iff.mp h
  obtain ⟨_, s₆, hdiscard, h⟩ := Work.bind_eq_ok_iff.mp h
  obtain ⟨rfl, rfl⟩ := Work.pure_eq_ok_iff.mp h
  exact ⟨s₁, s₂, s₃, s₄.disk, s₅.disk, hjackets, htrack, hpreview, Job.of_onDisk hpublish,
    Job.of_onDisk hensure,
    Job.of_onDisk hdiscard⟩

/-- The id of the song that a run gets to, if it gets so far. -/
def songId? (crew : Crew σ) (settings : Settings) (now : Int64) (package : Path) (s : Stage σ) :
    Option Text :=
  (opening crew settings now package s).1.toOption.map Prod.snd

/-! ### What a stretch may change -/

section

variable {crew : Crew σ} {settings : Settings} {places : Places} {project : Path} {s s' : Stage σ}

theorem plain_songListName : Path.Plain songListName := by decide

theorem plain_jacketName : Path.Plain jacketName := by decide

theorem plain_thumbnailName : Path.Plain thumbnailName := by decide

theorem plain_trackName : Path.Plain trackName := by decide

theorem plain_previewName : Path.Plain previewName := by decide

theorem plain_chartName (c : RatingClass) : Path.Plain c.chartName := by
  cases c with
  | past => decide
  | present => decide
  | future => decide

theorem frame_takeIn (hp : s.disk.Direct places.package) (ha : s.disk.Direct places.archive)
    (settings : Settings) :
    Frame [s.disk.spot places.package, s.disk.spot places.archive] [] s.disk
      (takeIn settings places s).2.disk := by
  rw [takeIn]
  split
  · refine Disk.Act.frame_change fun d' hcopy => ?_
    exact (Disk.frame_copy ha.straight hcopy).1.within (List.prefix_refl _) (by simp)
      (List.Subset.refl _)
  · exact Disk.Act.frame_change fun d' hrename => (Disk.frame_rename hp.way ha.way hrename).1

theorem findProject_eq_ok (hp : s.disk.Straight places.workFolder)
    (h : findProject places s = (.ok project, s')) :
    s'.disk = s.disk ∧ ∃ n ∈ s.disk.names (s.disk.spot places.workFolder),
      project = places.workFolder.join n ∧ s.disk.isFolder project := by
  obtain ⟨first, s₁, hfirst, h⟩ := Work.bind_eq_ok_iff.mp h
  obtain ⟨hdisk, hproject⟩ := Disk.Act.firstFolder?_eq_ok hp (Job.of_onDisk hfirst)
  cases first with
  | none => cases h
  | some p =>
      obtain ⟨rfl, rfl⟩ := Work.pure_eq_ok_iff.mp h
      exact ⟨hdisk.symm, hproject p rfl⟩

theorem disk_findProject (hp : s.disk.Straight places.workFolder) :
    (findProject places s).2.disk = s.disk := by
  rw [findProject, Work.bind_apply]
  split
  · next first s₁ h =>
      have hdisk := (Disk.Act.firstFolder?_eq_ok hp (Job.of_onDisk h)).1
      cases first with
      | none => exact hdisk.symm
      | some p => exact hdisk.symm
  · next e s₁ h => exact congrArg (fun r => r.2.disk) h.symm

theorem writeSongList_eq_ok (hp : s.disk.Direct project) {now : Int64} {id : Text}
    (h : writeSongList now project s = (.ok id, s')) :
    id ≠ [] ∧ id = songId (project.fileName?.getD []) ∧
      Frame ([songListName].map (s.disk.spot project ++ [·])) [] s.disk s'.disk ∧
      ∃ c, s'.disk.get? (s.disk.spot project ++ [songListName]) = some (.file c) := by
  obtain ⟨found, s₁, hlook, h⟩ := Work.bind_eq_ok_iff.mp h
  obtain ⟨-, rfl⟩ := Job.look_eq_ok_iff.mp hlook
  dsimp only at h
  by_cases hfound : found = true
  · rw [if_pos hfound] at h
    obtain ⟨text, s₂, htext, h⟩ := Work.bind_eq_ok_iff.mp h
    obtain ⟨-, hdisk⟩ := Disk.Act.look_eq_ok_iff.mp (Job.of_onDisk htext)
    cases hsong :
      SongEntry.ofDescriptor (Descriptor.parse text) (project.fileName?.getD []) now with
    | error fault =>
        rw [hsong] at h
        cases h
    | ok song =>
        rw [hsong] at h
        dsimp only at h
        by_cases hid : song.id = []
        · rw [if_pos hid] at h
          cases h
        · rw [if_neg hid] at h
          obtain ⟨_, s₃, hsave, h⟩ := Work.bind_eq_ok_iff.mp h
          obtain ⟨rfl, rfl⟩ := Work.pure_eq_ok_iff.mp h
          have hwrite := Disk.Act.change_eq_ok_iff.mp (Job.of_onDisk hsave)
          obtain ⟨hframe, hfile⟩ :=
            Disk.frame_write (hdisk ▸ (hp.join plain_songListName).straight) hwrite
          rw [← hdisk, Disk.spot_join _ _ plain_songListName] at hframe hfile
          exact ⟨hid, (SongEntry.made_of_ofDescriptor hsong).id, hframe, _, hfile⟩
  · rw [if_neg hfound] at h
    cases h

theorem frame_writeSongList (hp : s.disk.Direct project) (now : Int64) :
    Frame [s.disk.spot project ++ [songListName]] [] s.disk
      (writeSongList now project s).2.disk := by
  rw [writeSongList]
  refine Job.frame_bind (.refl _ _ _) fun found s₁ _ h₁ => ?_
  split
  · refine Job.frame_bind (.refl _ _ _) fun text s₂ _ h₂ => ?_
    cases SongEntry.ofDescriptor (Descriptor.parse text) (project.fileName?.getD []) now with
    | error fault => exact .refl _ _ _
    | ok song =>
        dsimp only
        split
        · exact .refl _ _ _
        · refine Job.frame_bind ?_ fun _ _ _ _ => .refl _ _ _
          refine Disk.Act.frame_change fun d' hwrite => ?_
          have hp₂ := (h₁.trans h₂).direct_within hp (by simp)
          have hframe := (Disk.frame_write (hp₂.join plain_songListName).straight hwrite).1
          rwa [Disk.spot_join _ _ plain_songListName, h₂.spot, h₁.spot] at hframe
  · exact .refl _ _ _

theorem frame_survey (hc : crew.Contained) (hd : s.disk.WellFormed)
    (hp : s.disk.Direct places.workFolder) (now : Int64) :
    Frame [s.disk.spot places.workFolder] (places.workFolder.ancestors.map s.disk.spot) s.disk
      (survey crew places now s).2.disk := by
  refine Job.frame_bind (hc.unpack _ _ s hd hp) fun _ s₁ _ h₁ => ?_
  have hp₁ := h₁.direct_within hp (by simp)
  refine Job.frame_bind ?_ fun project s₂ hproject h₂ => ?_
  · rw [disk_findProject hp₁.straight]
    exact .refl _ _ _
  · obtain ⟨hdisk, n, hn, rfl, -⟩ := findProject_eq_ok hp₁.straight hproject
    refine Job.frame_bind ?_ fun _ _ _ _ => .refl _ _ _
    have hplain := ((h₁.wellFormed hd).proper_of_mem_names hn).toPlain
    have hframe := frame_writeSongList ((hdisk ▸ hp₁).join hplain) now
    rw [Disk.spot_join _ _ hplain, h₂.spot, h₁.spot, List.append_assoc] at hframe
    exact hframe.within (List.prefix_append _ _) List.mem_cons_self (List.nil_subset _)

theorem frame_makeJacketsOf (hc : crew.Contained) (hd : s.disk.WellFormed)
    (hp : s.disk.Direct project) {n : Text} (hn : Path.Plain n) :
    Frame [s.disk.spot project] [] s.disk (makeJacketsOf crew settings project n s).2.disk := by
  refine Job.frame_bind ?_ fun _ s₁ _ h₁ => Job.frame_bind ?_ fun _ s₂ _ h₂ => ?_
  · exact .entry (.refl _ _ _) ((hc.resize _ _ _ _).frame plain_jacketName hd hp)
      List.mem_cons_self
  · refine h₁.entry ((hc.resize _ _ _ _).frame plain_thumbnailName (h₁.wellFormed hd) ?_)
      List.mem_cons_self
    exact h₁.direct_within hp (by simp)
  · split
    · exact .refl _ _ _
    · have hp₂ := (h₁.trans h₂).direct_within hp (by simp)
      have hdelete := Disk.Act.frame_delete (hp₂.join hn).way
      rw [Disk.spot_join _ _ hn] at hdelete
      exact (h₁.trans h₂).entry hdelete List.mem_cons_self

theorem frame_makeJacketsFrom (hc : crew.Contained) (hd : s.disk.WellFormed)
    (hp : s.disk.Direct project) {names : List Text} (hnames : ∀ n ∈ names, Path.Plain n) :
    Frame [s.disk.spot project] [] s.disk
      (makeJacketsFrom crew settings project names s).2.disk := by
  induction names generalizing s with
  | nil => exact .refl _ _ _
  | cons n names ih =>
      rw [List.forall_mem_cons] at hnames
      refine Job.frame_bind (.refl _ _ _) fun size s₁ _ h₁ => ?_
      have hp₁ := h₁.direct_within hp (by simp)
      rw [← h₁.spot]
      have hskip := ih (h₁.wellFormed hd) hp₁ hnames.2
      cases size with
      | none => exact hskip
      | some size =>
          dsimp only
          split
          · exact Job.frame_bind (frame_makeJacketsOf hc (h₁.wellFormed hd) hp₁ hnames.1)
              fun _ _ _ _ => .refl _ _ _
          · exact hskip

theorem frame_makeJackets (hc : crew.Contained) (hd : s.disk.WellFormed)
    (hp : s.disk.Direct project) :
    Frame [s.disk.spot project] [] s.disk (makeJackets crew settings project s).2.disk := by
  refine Job.frame_bind (.refl _ _ _) fun names s₁ hnames h₁ => ?_
  obtain ⟨-, hmem⟩ := Disk.Act.filesWithExtension_eq_ok hp.straight (Job.of_onDisk hnames)
  rw [← h₁.spot]
  exact frame_makeJacketsFrom hc (h₁.wellFormed hd) (h₁.direct_within hp (by simp)) fun n hn =>
    (hd.proper_of_mem_names (hmem n hn).1).toPlain

theorem frame_makeTrack (hc : crew.Contained) (hd : s.disk.WellFormed)
    (hp : s.disk.Direct project) :
    Frame [s.disk.spot project] [] s.disk (makeTrack crew project s).2.disk := by
  refine Job.frame_bind (.refl _ _ _) fun names s₁ hnames h₁ => ?_
  obtain ⟨-, hmem⟩ := Disk.Act.filesWithExtension_eq_ok hp.straight (Job.of_onDisk hnames)
  cases hfind : names.find? (· ≠ trackName) with
  | none => exact .refl _ _ _
  | some n =>
      have hn := (hd.proper_of_mem_names (hmem n (List.mem_of_find?_eq_some hfind)).1).toPlain
      refine Job.frame_bind ?_ fun _ s₂ _ h₂ => Job.frame_bind ?_ fun _ _ _ _ => .refl _ _ _
      · rw [Work.snd_adapt]
        exact h₁.entry ((hc.transcode _ _).frame plain_trackName (h₁.wellFormed hd)
          (h₁.direct_within hp (by simp))) List.mem_cons_self
      · have hp₂ := (h₁.trans h₂).direct_within hp (by simp)
        have hdelete := Disk.Act.frame_delete (hp₂.join hn).way
        rw [Disk.spot_join _ _ hn] at hdelete
        exact (h₁.trans h₂).entry hdelete List.mem_cons_self

theorem frame_makePreview (hc : crew.Contained) (hd : s.disk.WellFormed)
    (hp : s.disk.Direct project) :
    Frame [s.disk.spot project] [] s.disk (makePreview crew settings project s).2.disk := by
  refine Job.frame_bind (.refl _ _ _) fun found s₁ _ h₁ => ?_
  split
  · refine Job.frame_bind ?_ fun start s₂ _ h₂ => ?_
    · rw [Job.disk_ask]
      exact .refl _ _ _
    · rw [Work.snd_adapt]
      have h₂ := h₁.trans h₂
      exact h₂.entry ((hc.clip _ _ _).frame plain_previewName (h₂.wellFormed hd)
        (h₂.direct_within hp (by simp))) List.mem_cons_self
  · exact .refl _ _ _

theorem frame_publishDownloads {d : Disk} (hd : d.WellFormed) {folder : Path}
    (hp : d.Direct project) (hf : d.Direct folder) :
    Frame [d.spot project, d.spot folder] (folder.ancestors.map d.spot) d
      (publishDownloads project folder d).2 := by
  refine Disk.Act.frame_bind ?_ fun _ d₁ _ h₁ => Disk.Act.frame_bind ?_ fun _ _ _ _ => .refl _ _ _
  · exact (Disk.Act.frame_ensureFolders hf.way).mono (by simp) (List.Subset.refl _)
  · have hroots := Disk.Act.clean_spots hp hf
    have hmove := Disk.Act.frame_moveContents (h₁.direct hroots hp) (h₁.direct hroots hf)
      (h₁.wellFormed hd) downloadNames.contains
    rw [h₁.spot, h₁.spot] at hmove
    exact hmove.mono (fun root hroot => ⟨root, hroot, List.prefix_refl _⟩) (List.nil_subset _)

/-- Whether an entry is of use to the editor of the project only. -/
def isSource (name : Text) : Bool := name == descriptorName || Text.endsWith ".json" name

theorem frame_discardSources {d : Disk} (hd : d.WellFormed) (hp : d.Direct project) :
    Frame (((d.names (d.spot project)).filter isSource).map (d.spot project ++ [·])) [] d
      (discardSources project d).2 := by
  refine Disk.Act.frame_bind (.refl _ _ _) fun names d₁ hnames h₁ => Disk.Act.frame_forM ?_
  obtain ⟨hlist, rfl⟩ := Disk.Act.look_eq_ok_iff.mp hnames
  obtain ⟨l, hl, -, rfl⟩ := Disk.list_eq_ok_iff.mp hlist
  obtain rfl := Disk.spot_of_locate hp.straight hl
  intro n hn d₂ h₂
  have hplain := (hd.proper_of_mem_names (List.mem_of_mem_filter hn)).toPlain
  have hdelete := Disk.Act.frame_delete ((h₂.direct_of_entries hp).join hplain).way
  rw [Disk.spot_join _ _ hplain, h₂.spot] at hdelete
  exact hdelete.within (List.prefix_refl _) (List.mem_map_of_mem hn) (List.Subset.refl _)

theorem frame_cleanUp {d : Disk} {songId? : Option Text} (hfree : places.Free d songId?)
    (settings : Settings) :
    Frame [d.spot places.workFolder, d.spot places.archive, d.spot places.package] [] d
      (cleanUp settings places d).2 := by
  have hroots : ∀ root ∈ [d.spot places.workFolder, d.spot places.archive, d.spot places.package],
      d.Clean root := by
    simpa using ⟨hfree.workFolder.clean, hfree.archive.clean, hfree.package.clean⟩
  refine Disk.Act.frame_bind ?_ fun _ d₁ _ h₁ => Disk.Act.frame_bind ?_ fun _ d₂ _ h₂ => ?_
  · exact (Disk.Act.frame_delete hfree.workFolder.way).within (List.prefix_refl _) (by simp)
      (List.Subset.refl _)
  · refine (Disk.Act.frame_delete (h₁.direct hroots hfree.archive).way).within
      (List.prefix_refl _) ?_ (List.Subset.refl _)
    simp [h₁.spot]
  · split
    · exact .refl _ _ _
    · refine (Disk.Act.frame_delete ((h₁.trans h₂).direct hroots hfree.package).way).within
        (List.prefix_refl _) ?_ (List.Subset.refl _)
      simp [h₁.spot, h₂.spot]

/-! The charts. -/

theorem plain_of_refusal? {d : Disk} {chart name : Text}
    (h : refusal? d project chart name = none) :
    Path.Plain name ∧ (name ≠ chart → d.isTaken (project.join name) = false) := by
  rw [refusal?] at h
  split at h
  · cases h
  · split at h
    · cases h
    · next hname =>
        split at h
        · cases h
        · next htaken =>
            rw [not_not] at hname
            obtain ⟨-, -, -, -, hplain, -⟩ := Path.segments_of_fileName? hname
            refine ⟨hplain, fun hne => ?_⟩
            simpa [hne] using htaken

theorem chartNames_eq_ok {d d' : Disk} (hp : d.Straight project) {charts : List Text}
    (h : chartNames project d = (.ok charts, d')) :
    d = d' ∧ d.get? (d.spot project) = some .folder ∧
      charts = (d.names (d.spot project)).filter fun name =>
        Text.endsWith chartExtension name && d.isFile (project.join name) := by
  obtain ⟨hlook, rfl⟩ := Disk.Act.look_eq_ok_iff.mp h
  obtain ⟨all, hlist, hcharts⟩ := Except.bind_eq_ok_iff.mp hlook
  obtain ⟨l, hl, hfolder, rfl⟩ := Disk.list_eq_ok_iff.mp hlist
  obtain rfl := Disk.spot_of_locate hp hl
  exact ⟨rfl, hfolder, (Except.ok.inj hcharts).symm⟩

theorem frame_sanitizeChart {d : Disk} (hp : d.Direct project) (allowed : Whitelists)
    {name : Text} (hname : Path.Plain name) :
    Frame [d.spot project] [] d (sanitizeChart allowed project name d).2 := by
  refine Disk.Act.frame_bind (.refl _ _ _) fun text d₁ _ h₁ => ?_
  refine Disk.Act.frame_bind (Disk.Act.frame_change fun d' hwrite => ?_) fun _ d₂ _ h₂ =>
    Disk.Act.frame_bind (Disk.Act.frame_forM ?_) fun _ _ _ _ => .refl _ _ _
  · have hp₁ := h₁.direct_within hp (by simp)
    have hframe := (Disk.frame_write (hp₁.join hname).straight hwrite).1
    rw [Disk.spot_join _ _ hname] at hframe
    exact h₁.entry hframe List.mem_cons_self
  · intro c _ d₃ h₃
    split
    · exact .refl _ _ _
    · refine Disk.Act.frame_change fun d' hcopy => ?_
      have h₃ := (h₁.trans h₂).trans h₃
      have hp₃ := h₃.direct_within hp (by simp)
      have hframe := (Disk.frame_copy (hp₃.join (plain_chartName c)).straight hcopy).1
      rw [Disk.spot_join _ _ (plain_chartName c)] at hframe
      exact h₃.entry hframe List.mem_cons_self

theorem frame_renameChart (hp : s.disk.Direct project) {chart name : Text}
    (hchart : Path.Plain chart) :
    Frame [s.disk.spot project] [] s.disk (renameChart crew project chart name s).2.disk := by
  refine Job.frame_bind (.refl _ _ _) fun reason s₁ hreason h₁ => ?_
  obtain ⟨hrefusal, -⟩ := Job.look_eq_ok_iff.mp hreason
  cases reason with
  | some reason => exact .refl _ _ _
  | none =>
      have hname := (plain_of_refusal? hrefusal).1
      refine Job.frame_bind ?_ fun _ s₂ _ _ => Job.frame_bind ?_ fun _ _ _ _ => .refl _ _ _
      · rw [Work.snd_adapt]
        refine Disk.Act.frame_change fun d' hrename => ?_
        have hp₁ := h₁.direct_within hp (by simp)
        have hframe := (Disk.frame_rename (hp₁.join hchart).way (hp₁.join hname).way hrename).1
        rw [Disk.spot_join _ _ hchart, Disk.spot_join _ _ hname, h₁.spot] at hframe
        refine hframe.mono ?_ (List.Subset.refl _)
        simp
      · rw [Crew.disk_tell]
        exact .refl _ _ _

theorem frame_askForNames (hp : s.disk.Direct project) {charts : List Text}
    (hcharts : ∀ n ∈ charts, Path.Plain n) :
    Frame [s.disk.spot project] [] s.disk (askForNames crew project charts s).2.disk := by
  refine Job.frame_bind ?_ fun _ s₁ _ h₁ => Job.frame_bind (Job.frame_forM ?_) fun _ s₂ _ h₂ =>
    Job.frame_bind ?_ fun names s₃ _ h₃ => ?_
  · rw [Crew.disk_tell]
    exact .refl _ _ _
  · intro _ _ s₂ _
    rw [Crew.disk_tell]
    exact .refl _ _ _
  · rw [Job.disk_ask]
    exact .refl _ _ _
  · rw [renameCharts]
    split
    · exact .refl _ _ _
    · refine Job.frame_bind (Job.frame_mapM ?_) fun _ _ _ _ => .refl _ _ _
      intro pair hpair s₄ h₄
      have h₄ := ((h₁.trans h₂).trans h₃).trans h₄
      rw [← h₄.spot]
      exact frame_renameChart (h₄.direct_within hp (by simp))
        (hcharts _ (List.of_mem_zip hpair).1)

theorem frame_processCharts (hd : s.disk.WellFormed) (hp : s.disk.Direct project)
    (crew : Crew σ) (allowed : Whitelists) :
    Frame [s.disk.spot project] [] s.disk (processCharts crew allowed project s).2.disk := by
  refine Job.frame_bind (.refl _ _ _) fun charts s₁ hcharts h₁ => ?_
  obtain ⟨-, -, hfilter⟩ := chartNames_eq_ok hp.straight (Job.of_onDisk hcharts)
  have hplain : ∀ n ∈ charts, Path.Plain n := by
    intro n hn
    rw [hfilter] at hn
    exact (hd.proper_of_mem_names (List.mem_of_mem_filter hn)).toPlain
  have hp₁ := h₁.direct_within hp (by simp)
  rw [← h₁.spot]
  cases charts with
  | nil => exact .refl _ _ _
  | cons name charts =>
      cases charts with
      | nil => exact frame_sanitizeChart hp₁ allowed (hplain name List.mem_cons_self)
      | cons other charts => exact frame_askForNames hp₁ hplain

/-! The stretches. -/

theorem frame_furnish (hc : crew.Contained) (hd : s.disk.WellFormed) (hp : s.disk.Direct project)
    {songId : Text} (hdown : s.disk.Direct (places.downloadFolder songId))
    (hcontent : s.disk.Direct (places.contentFolder songId)) (settings : Settings) :
    Frame [s.disk.spot project, s.disk.spot (places.downloadFolder songId)]
      (((places.downloadFolder songId).ancestors ++ (places.contentFolder songId).ancestors).map
        s.disk.spot)
      s.disk (furnish crew settings places project songId s).2.disk := by
  have hroots := Disk.Act.clean_spots hp hdown
  have hproject : ∀ {d d' : Disk}, d.spot project = s.disk.spot project →
      Frame [d.spot project] [] d d' →
        Frame [s.disk.spot project, s.disk.spot (places.downloadFolder songId)]
        (((places.downloadFolder songId).ancestors ++ (places.contentFolder songId).ancestors).map
          s.disk.spot) d d' := by
    intro d d' hspot hframe
    rw [hspot] at hframe
    exact hframe.within (List.prefix_refl _) List.mem_cons_self (List.nil_subset _)
  refine Job.frame_bind (hproject rfl (frame_makeJackets hc hd hp)) fun _ s₁ _ h₁ => ?_
  refine Job.frame_bind (hproject (h₁.spot _) (frame_makeTrack hc (h₁.wellFormed hd)
    (h₁.direct hroots hp))) fun _ s₂ _ h₂ => ?_
  have h₂ := h₁.trans h₂
  refine Job.frame_bind (hproject (h₂.spot _) (frame_makePreview hc (h₂.wellFormed hd)
    (h₂.direct hroots hp))) fun _ s₃ _ h₃ => ?_
  have h₃ := h₂.trans h₃
  refine Job.frame_bind ?_ fun _ s₄ _ h₄ => Job.frame_bind ?_ fun _ s₅ _ h₅ =>
    Job.frame_bind ?_ fun _ _ _ _ =>
    .refl _ _ _
  · have hpublish := frame_publishDownloads (h₃.wellFormed hd) (h₃.direct hroots hp)
      (h₃.direct hroots hdown)
    rw [funext h₃.spot] at hpublish
    refine hpublish.mono (fun root hroot => ⟨root, hroot, List.prefix_refl _⟩) ?_
    rw [List.map_append]
    exact List.subset_append_left _ _
  · have hensure :=
      Disk.Act.frame_ensureFolders ((h₃.trans h₄).direct hroots hcontent).way
    rw [funext h₄.spot, funext h₃.spot] at hensure
    refine hensure.mono (by simp) ?_
    rw [List.map_append]
    exact List.subset_append_right _ _
  · have h₅ := (h₃.trans h₄).trans h₅
    refine hproject (h₅.spot _)
      ((frame_discardSources (h₅.wellFormed hd) (h₅.direct hroots hp)).mono ?_
        (List.Subset.refl _))
    intro root hroot
    obtain ⟨n, -, rfl⟩ := List.mem_map.mp hroot
    exact ⟨_, List.mem_cons_self, List.prefix_append _ _⟩

theorem frame_gather (hd : s.disk.WellFormed) (hp : s.disk.Direct project) {songId : Text}
    (hcontent : s.disk.Direct (places.contentFolder songId)) (crew : Crew σ)
    (allowed : Whitelists) :
    Frame [s.disk.spot project, s.disk.spot (places.contentFolder songId)] [] s.disk
      (gather crew allowed places project songId s).2.disk := by
  refine Job.frame_bind ?_ fun _ s₁ _ h₁ => Job.frame_bind ?_ fun _ _ _ _ => .refl _ _ _
  · exact (frame_processCharts hd hp crew allowed).within (List.prefix_refl _) (by simp)
      (List.Subset.refl _)
  · have hroots := Disk.Act.clean_spots hp hcontent
    have hmove := Disk.Act.frame_moveContents (h₁.direct hroots hp) (h₁.direct hroots hcontent)
      (h₁.wellFormed hd) (fun _ => true)
    rwa [h₁.spot, h₁.spot] at hmove

/-! ### A crew that may change anything -/

section

variable {I : Disk → Prop}

theorem steady_delete {d : Disk} {p : Path} (hp : d.Direct p) : Steady d (Disk.Act.delete p d).2 :=
  (Disk.Act.frame_delete hp.way).steady_within hp.clean (by simp)

theorem steady_makeJacketsOf (hc : crew.SteadyOn I) (hd : I s.disk) (hp : s.disk.Direct project)
    {name : Text} (hname : Path.Plain name) :
    Steady s.disk (makeJacketsOf crew settings project name s).2.disk := by
  refine Job.steady_bind (hc.resize _ _ _ _ _ hd (hp.join plain_jacketName)) fun _ s₁ _ h₁ => ?_
  refine Job.steady_bind (hc.resize _ _ _ _ _ (hc.lasts _ _ h₁ hd)
    ((h₁.direct hp).join plain_thumbnailName)) fun _ s₂ _ h₂ => ?_
  split
  · exact .refl _
  · exact steady_delete (((h₁.trans h₂).direct hp).join hname)

theorem steady_makeJacketsFrom (hc : crew.SteadyOn I) (hd : I s.disk) (hp : s.disk.Direct project)
    {names : List Text} (hnames : ∀ n ∈ names, Path.Plain n) :
    Steady s.disk (makeJacketsFrom crew settings project names s).2.disk := by
  induction names generalizing s with
  | nil => exact .refl _
  | cons n names ih =>
      rw [List.forall_mem_cons] at hnames
      refine Job.steady_bind (.refl _) fun size s₁ _ h₁ => ?_
      have hd₁ := hc.lasts _ _ h₁ hd
      have hskip := ih hd₁ (h₁.direct hp) hnames.2
      cases size with
      | none => exact hskip
      | some size =>
          dsimp only
          split
          · exact Job.steady_bind (steady_makeJacketsOf hc hd₁ (h₁.direct hp) hnames.1)
              fun _ _ _ _ => .refl _
          · exact hskip

theorem steady_makeJackets (hc : crew.SteadyOn I) (hd : I s.disk) (hp : s.disk.Direct project)
    (settings : Settings) : Steady s.disk (makeJackets crew settings project s).2.disk := by
  refine Job.steady_bind (.refl _) fun names s₁ hnames h₁ => ?_
  obtain ⟨-, hmem⟩ := Disk.Act.filesWithExtension_eq_ok hp.straight (Job.of_onDisk hnames)
  exact steady_makeJacketsFrom hc (hc.lasts _ _ h₁ hd) (h₁.direct hp) fun n hn =>
    ((hc.formed _ hd).proper_of_mem_names (hmem n hn).1).toPlain

theorem steady_makeTrack (hc : crew.SteadyOn I) (hd : I s.disk) (hp : s.disk.Direct project) :
    Steady s.disk (makeTrack crew project s).2.disk := by
  refine Job.steady_bind (.refl _) fun names s₁ hnames h₁ => ?_
  obtain ⟨-, hmem⟩ := Disk.Act.filesWithExtension_eq_ok hp.straight (Job.of_onDisk hnames)
  cases hfind : names.find? (· ≠ trackName) with
  | none => exact .refl _
  | some n =>
      have hn := hmem n (List.mem_of_find?_eq_some hfind)
      have hplain := ((hc.formed _ hd).proper_of_mem_names hn.1).toPlain
      refine Job.steady_bind ?_ fun _ s₂ _ h₂ => Job.steady_bind ?_ fun _ _ _ _ => .refl _
      · rw [Work.snd_adapt]
        exact hc.transcode _ _ _ (hc.lasts _ _ h₁ hd) ((h₁.direct hp).join plain_trackName)
      · exact steady_delete (((h₁.trans h₂).direct hp).join hplain)

theorem steady_makePreview (hc : crew.SteadyOn I) (hd : I s.disk) (hp : s.disk.Direct project)
    (settings : Settings) : Steady s.disk (makePreview crew settings project s).2.disk := by
  refine Job.steady_bind (.refl _) fun found s₁ _ h₁ => ?_
  split
  · refine Job.steady_bind ?_ fun start s₂ _ h₂ => ?_
    · rw [Job.disk_ask]
      exact .refl _
    · rw [Work.snd_adapt]
      have h₂ := h₁.trans h₂
      exact hc.clip _ _ _ _ (hc.lasts _ _ h₂ hd) ((h₂.direct hp).join plain_previewName)
  · exact .refl _

theorem steady_discardSources {d : Disk} (hd : d.WellFormed) (hp : d.Direct project) :
    Steady d (discardSources project d).2 := by
  refine (frame_discardSources hd hp).steady_within hp.clean fun root hroot => ?_
  obtain ⟨n, -, rfl⟩ := List.mem_map.mp hroot
  exact List.prefix_append _ _

theorem steady_furnish (hc : crew.SteadyOn I) (hd : I s.disk) (hp : s.disk.Direct project)
    {songId : Text} (hdown : s.disk.Direct (places.downloadFolder songId))
    (hcontent : s.disk.Direct (places.contentFolder songId)) (settings : Settings) :
    Steady s.disk (furnish crew settings places project songId s).2.disk := by
  refine Job.steady_bind (steady_makeJackets hc hd hp settings) fun _ s₁ _ h₁ => ?_
  refine Job.steady_bind (steady_makeTrack hc (hc.lasts _ _ h₁ hd) (h₁.direct hp))
    fun _ s₂ _ h₂ => ?_
  have h₂ := h₁.trans h₂
  refine Job.steady_bind (steady_makePreview hc (hc.lasts _ _ h₂ hd) (h₂.direct hp) settings)
    fun _ s₃ _ h₃ => ?_
  have h₃ := h₂.trans h₃
  have hd₃ := hc.formed _ (hc.lasts _ _ h₃ hd)
  refine Job.steady_bind ?_ fun _ s₄ _ h₄ => Job.steady_bind ?_ fun _ s₅ _ h₅ =>
    Job.steady_bind ?_ fun _ _ _ _ => .refl _
  · exact (frame_publishDownloads hd₃ (h₃.direct hp) (h₃.direct hdown)).steady
      (Disk.Act.clean_spots (h₃.direct hp) (h₃.direct hdown))
  · exact (Disk.Act.frame_ensureFolders ((h₃.trans h₄).direct hcontent).way).steady (by simp)
  · have h₅ := h₄.trans h₅
    exact steady_discardSources (h₅.wellFormed hd₃) (h₅.direct (h₃.direct hp))

theorem steady_takeIn (hp : s.disk.Direct places.package) (ha : s.disk.Direct places.archive)
    (settings : Settings) : Steady s.disk (takeIn settings places s).2.disk :=
  (frame_takeIn hp ha settings).steady (Disk.Act.clean_spots hp ha)

variable {package : Path}

theorem steady_opening (hc : crew.SteadyOn I) (hd : I s.disk)
    (hfree : (Places.ofPackage package settings.outputFolder).Free s.disk none) (now : Int64) :
    Steady s.disk (opening crew settings now package s).2.disk := by
  refine Job.steady_bind (steady_takeIn hfree.package hfree.archive settings) fun _ s₁ _ h₁ => ?_
  refine Job.steady_bind (hc.unpack _ _ _ (hc.lasts _ _ h₁ hd) (h₁.direct hfree.workFolder))
    fun _ s₂ _ h₂ => ?_
  have h₂ := h₁.trans h₂
  have hwork := h₂.direct hfree.workFolder
  refine Job.steady_bind ?_ fun project s₃ hproject h₃ => Job.steady_bind ?_ fun _ _ _ _ => .refl _
  · rw [disk_findProject hwork.straight]
    exact .refl _
  · obtain ⟨-, n, hn, rfl, -⟩ := findProject_eq_ok hwork.straight hproject
    have hd₂ := hc.formed _ (hc.lasts _ _ h₂ hd)
    have hp := (h₃.direct hwork).join (hd₂.proper_of_mem_names hn).toPlain
    exact (frame_writeSongList hp now).steady_within hp.clean (by simp)

theorem survey_eq_ok (hc : crew.SteadyOn I) (hd : I s.disk) (hp : s.disk.Direct places.workFolder)
    {now : Int64} {id : Text} (h : survey crew places now s = (.ok (project, id), s')) :
    ∃ n, Path.Plain n ∧ project = places.workFolder.join n ∧ id = songId n ∧ id ≠ [] := by
  obtain ⟨_, s₁, hunpack, h⟩ := Work.bind_eq_ok_iff.mp h
  obtain ⟨found, s₂, hfind, h⟩ := Work.bind_eq_ok_iff.mp h
  obtain ⟨written, s₃, hwrite, h⟩ := Work.bind_eq_ok_iff.mp h
  obtain ⟨heq, -⟩ := Work.pure_eq_ok_iff.mp h
  obtain ⟨rfl, rfl⟩ := Prod.mk.inj heq
  have hunpacked := hc.unpack places.archive places.workFolder s hd hp
  rw [hunpack] at hunpacked
  have hp₁ := hunpacked.direct hp
  obtain ⟨hdisk, n, hn, rfl, -⟩ := findProject_eq_ok hp₁.straight hfind
  have hplain := ((hunpacked.wellFormed (hc.formed _ hd)).proper_of_mem_names hn).toPlain
  obtain ⟨hne, hid, -⟩ := writeSongList_eq_ok ((hdisk ▸ hp₁).join hplain) hwrite
  rw [Path.fileName?_join _ hplain, Option.getD_some] at hid
  exact ⟨n, hplain, rfl, hid, hne⟩

theorem opening_eq_ok (hc : crew.SteadyOn I) (hd : I s.disk)
    (hfree : (Places.ofPackage package settings.outputFolder).Free s.disk none) {now : Int64}
    {id : Text} (h : opening crew settings now package s = (.ok (project, id), s')) :
    ∃ n, Path.Plain n ∧
      project = (Places.ofPackage package settings.outputFolder).workFolder.join n ∧
      id = songId n ∧ id ≠ [] := by
  obtain ⟨_, s₁, htake, h⟩ := Work.bind_eq_ok_iff.mp h
  have h₁ := steady_takeIn hfree.package hfree.archive settings
  rw [htake] at h₁
  exact survey_eq_ok hc (hc.lasts _ _ h₁ hd) (h₁.direct hfree.workFolder) h

end

/-! ### What a run may change -/

/-- The ways to what lies next to the package lead through folders, also when the package is taken
in, unless they lead through the package itself. -/
theorem way_of_takeIn {package : Path} {output : Option Path} (hd : s.disk.WellFormed)
    (hfree : (Places.ofPackage package output).Free s.disk none)
    (h : takeIn settings (Places.ofPackage package output) s = (.ok (), s')) {m : Location}
    (hm : m ∈ s.disk.way (Places.ofPackage package output).workFolder) :
    s.disk.get? m = some .folder ∧ (s'.disk.get? m = some .folder ∨ s.disk.spot package <+: m) := by
  have harchive := Places.mem_way_archive.mpr hm
  have hs := hfree.archive.straight
  rw [takeIn] at h
  split at h
  · have hcopy := Disk.Act.change_eq_ok_iff.mp (Job.of_onDisk h)
    obtain ⟨_, _, -, -, l, hl, -⟩ := Disk.copy_eq_ok_iff.mp hcopy
    have hfolder := ((Disk.locate_eq_ok_iff hs).mp hl).2.1 m harchive
    exact ⟨hfolder, Or.inl (Disk.folder_of_copy hd hs hcopy hfolder)⟩
  · have hrename := Disk.Act.change_eq_ok_iff.mp (Job.of_onDisk h)
    obtain ⟨-, -, -, -, b, -, -, -, hb, -, -⟩ :=
      (Disk.rename_eq_ok_iff hfree.package.way hfree.archive.way).mp hrename
    have hneat := Path.neat_join (Places.folderOf package) (Places.plain_archiveName package)
    have hl := (Disk.aim_eq_ok_iff_locate hs hneat).mp hb
    have hfolder := ((Disk.locate_eq_ok_iff hs).mp hl).2.1 m harchive
    refine ⟨hfolder, ?_⟩
    by_cases hin : s.disk.spot package <+: m
    · exact Or.inr hin
    · exact Or.inl
        (Disk.folder_of_rename hfree.package.way hfree.archive.way hd hrename hfolder hin)

theorem frame_opening {package : Path} (hc : crew.Contained) (hd : s.disk.WellFormed)
    (hfree : (Places.ofPackage package settings.outputFolder).Free s.disk none) (now : Int64) :
    Frame ((Places.ofPackage package settings.outputFolder).reach s.disk none) [] s.disk
      (opening crew settings now package s).2.disk := by
  refine Job.frame_bind ?_ fun _ s₁ htake h₁ => ?_
  · refine (frame_takeIn hfree.package hfree.archive settings).mono ?_ (List.Subset.refl _)
    simp [Places.reach]
  · have hsurvey := frame_survey hc (h₁.wellFormed hd) (h₁.direct hfree.clean hfree.workFolder) now
    rw [funext h₁.spot] at hsurvey
    refine Frame.drop_made (hsurvey.within (List.prefix_refl _) ?_ (List.Subset.refl _)) ?_
    · simp [Places.reach]
    · intro m hm
      obtain ⟨p, hp, rfl⟩ := List.mem_map.mp hm
      cases (Disk.ancestors_lead s.disk hp).1 with
      | inl heq =>
          refine Or.inl ⟨_, ?_, List.prefix_refl _⟩
          simp [Places.reach, heq]
      | inr hway =>
          refine (way_of_takeIn hd hfree htake hway).2.symm.imp ?_ ?_
          · intro hin
            exact ⟨_, List.mem_cons_self, hin⟩
          · intro hfolder
            rw [hfolder]
            exact Option.some_ne_none _

theorem frame_make (hc : crew.Contained) (hd : s.disk.WellFormed) (hp : s.disk.Direct project)
    {songId : Text} (hdown : s.disk.Direct (places.downloadFolder songId))
    (hcontent : s.disk.Direct (places.contentFolder songId)) (settings : Settings)
    (allowed : Whitelists) :
    Frame [s.disk.spot project, s.disk.spot (places.downloadFolder songId),
        s.disk.spot (places.contentFolder songId)] (places.approach s.disk (some songId)) s.disk
      (make crew settings allowed places project songId s).2.disk := by
  have hroots : ∀ root ∈ [s.disk.spot project, s.disk.spot (places.downloadFolder songId),
      s.disk.spot (places.contentFolder songId)], s.disk.Clean root := by
    simpa using ⟨hp.clean, hdown.clean, hcontent.clean⟩
  refine Job.frame_bind ?_ fun _ s₁ _ h₁ => Job.frame_bind ?_ fun _ _ _ _ => .refl _ _ _
  · exact (frame_furnish hc hd hp hdown hcontent settings).mono (by simp) (List.Subset.refl _)
  · have hgather := frame_gather (h₁.wellFormed hd) (h₁.direct hroots hp)
      (h₁.direct hroots hcontent) crew allowed
    rw [h₁.spot, h₁.spot] at hgather
    exact hgather.mono (by simp) (List.nil_subset _)

end

/-! ### A rehearsal -/

open Rehearsal (homeWith sound_homeWith)

namespace Sample

open Rehearsal (Script Scene Event Deed)

def descriptor : Text :=
  "title: A\ncomposer: B\ndifficulty: 9\ncharter: C\nillustrator: D\nbpmText: 1\nbaseBpm: 1"

def chart : Text := "timing(0);\n\nscenecontrol(1,B,1);arc(5,5);"

def sanitizedChart : Text := "timing(0);\narc(5,5);"

/-- A project with a descriptor, its track, a chart and a text. -/
def archive : Content := .archive
  [("song/project.arcproj", .bytes (Utf8.encode descriptor)), ("song/base.ogg", .bytes [1]),
    ("song/x.aff", .bytes (Utf8.encode chart)), ("song/readme.txt", .bytes [2])]

/-- A script for all but the preview. -/
def scripted (clip : Deed) : Script where
  links := false
  audio := .scripted .perform clip
  prompter := .fixed 0 none
  program := []

def script : Script := scripted .perform

/-- The places of a package called `song`, with or without its extension. -/
def places (package : Path) : Places where
  package := package
  archive := "./song.zip"
  workFolder := "./extracted_song"
  outputFolder := "."

def folder : Path := "./extracted_song/song"

def song : SongEntry :=
  let difficulty (ratingClass : RatingClass) : Difficulty :=
    { ratingClass, chartDesigner := "C", jacketDesigner := "D", rating := some 9,
      ratingPlus := none }
  { index := 0, id := "song", title := "A", artist := "B", searchTitle := .same "A",
    searchArtist := .same "B",
    bpm := "1", bpmBase := (Leading.read? "1".toList).getD .nan, set :=
      "custom", purchase := "song",
    audioPreview := 0, audioPreviewEnd := 0, side := 0, background := [], backgroundInverse := [],
    remoteDownload := true, worldUnlock := false, date := 0, version := [],
    difficulties := RatingClass.all.map difficulty }

def songList : Content := .bytes (Utf8.encode song.render)

def preview : Content := .bytes (Utf8.encode "preview")

def unpacking : Event := .unpack "./song.zip" "./extracted_song"

def clipping : Event :=
  .clip "./extracted_song/song/base.ogg" "./extracted_song/song/preview.ogg" ⟨0, 20, 1⟩

/-- What is on the disk all the time. -/
def surroundings : List (Location × Item) :=
  [(["w"], .folder), (["w", "notes.txt"], .file (.bytes [3]))]

def withArchive : List (Location × Item) := (["w", "song.zip"], .file archive) :: surroundings

def stage (entries : List (Location × Item)) (events : List Event) : Stage Scene where
  disk := { entries := entries ++ withArchive, home := ["w"] }
  crew := { events, terminal := { input := [], output := [] } }

def taken : Stage Scene := stage [] []

def unpacked : Stage Scene := stage
  [(["w", "extracted_song", "song", "readme.txt"], .file (.bytes [2])),
    (["w", "extracted_song", "song", "x.aff"], .file (.bytes (Utf8.encode chart))),
    (["w", "extracted_song", "song", "base.ogg"], .file (.bytes [1])),
    (["w", "extracted_song", "song", "project.arcproj"], .file (.bytes (Utf8.encode descriptor))),
    (["w", "extracted_song", "song"], .folder), (["w", "extracted_song"], .folder)]
  [unpacking]

def surveyed (songList : Content) : Stage Scene := stage
  [(["w", "extracted_song", "song", "songlist"], .file songList),
    (["w", "extracted_song", "song", "readme.txt"], .file (.bytes [2])),
    (["w", "extracted_song", "song", "x.aff"], .file (.bytes (Utf8.encode chart))),
    (["w", "extracted_song", "song", "base.ogg"], .file (.bytes [1])),
    (["w", "extracted_song", "song", "project.arcproj"], .file (.bytes (Utf8.encode descriptor))),
    (["w", "extracted_song", "song"], .folder), (["w", "extracted_song"], .folder)]
  [unpacking]

def furnished (songList : Content) : Stage Scene := stage
  [(["w", "song"], .folder), (["w", "dl_song", "preview.ogg"], .file preview),
    (["w", "dl_song"], .folder),
    (["w", "extracted_song", "song", "songlist"], .file songList),
    (["w", "extracted_song", "song", "readme.txt"], .file (.bytes [2])),
    (["w", "extracted_song", "song", "x.aff"], .file (.bytes (Utf8.encode chart))),
    (["w", "extracted_song", "song", "base.ogg"], .file (.bytes [1])),
    (["w", "extracted_song", "song"], .folder), (["w", "extracted_song"], .folder)]
  [unpacking, clipping]

def sanitized : Item := .file (.bytes (Utf8.encode sanitizedChart))

/-- What is in the folders of the song. -/
def published (songList : Content) : List (Location × Item) :=
  [(["w", "song", "x.aff"], sanitized), (["w", "song", "songlist"], .file songList),
    (["w", "song", "readme.txt"], .file (.bytes [2])),
    (["w", "song", "base.ogg"], .file (.bytes [1])), (["w", "song", "2.aff"], sanitized),
    (["w", "song", "1.aff"], sanitized), (["w", "song", "0.aff"], sanitized),
    (["w", "song"], .folder), (["w", "dl_song", "preview.ogg"], .file preview),
    (["w", "dl_song"], .folder)]

def gathered (songList : Content) : Stage Scene := stage
  (published songList ++
    ([(["w", "extracted_song", "song"], .folder), (["w", "extracted_song"], .folder)] :
      List (Location × Item)))
  [unpacking, clipping]

def outcome : Outcome where
  songId := "song"
  downloadFolder := "./dl_song"
  contentFolder := "./song"
  jacketSource := none
  trackSource := none
  charts := .sanitized "x.aff" ["0.aff", "1.aff", "2.aff"] { removed := 1 }

theorem unpack_taken (clip : Deed) :
    (scripted clip).crew.unpack "./song.zip" "./extracted_song" taken = (.ok (), unpacked) := by
  cbv

theorem findProject_unpacked (package : Path) :
    findProject (places package) unpacked = (.ok folder, unpacked) := by
  cbv

theorem writeSongList_sample {s : Stage Scene} {d : Disk}
    (hfile : s.disk.isFile (folder.join descriptorName) = true)
    (hread : s.disk.read (folder.join descriptorName) = .ok (.bytes (Utf8.encode descriptor)))
    (hwrite : Disk.write (folder.join songListName) songList s.disk = .ok d) :
    writeSongList 0 folder s = (.ok "song".toList, { s with disk := d }) := by
  have htext : s.disk.readText (folder.join descriptorName) = .ok descriptor := by
    rw [Disk.readText, hread]
    dsimp only [bind, Except.bind]
    rw [Utf8.decode?_encode]
  have hsong : SongEntry.ofDescriptor (Descriptor.parse descriptor) (folder.fileName?.getD []) 0 =
      .ok song := by
    decide +kernel
  have hid : song.id ≠ [] := by decide
  have hsave : song.save (folder.join songListName) s.disk = .ok d := hwrite
  refine Work.bind_eq_ok_iff.mpr ⟨true, s, Job.look_eq_ok_iff.mpr ⟨hfile, rfl⟩, ?_⟩
  rw [if_pos rfl]
  refine Work.bind_eq_ok_iff.mpr ⟨descriptor, s, ?_, ?_⟩
  · rw [Job.onDisk, Disk.Act.look, htext]
    rfl
  · rw [hsong]
    dsimp only
    rw [if_neg hid]
    refine Work.bind_eq_ok_iff.mpr ⟨(), { s with disk := d }, ?_, rfl⟩
    rw [Job.onDisk, Disk.Act.change, hsave]
    rfl

theorem writeSongList_unpacked :
    writeSongList 0 folder unpacked = (.ok "song".toList, surveyed songList) := by
  have hwrite : ∀ c, Disk.write (folder.join songListName) c unpacked.disk = .ok
      (surveyed c).disk := by
    intro c
    cbv
  exact writeSongList_sample (by decide +kernel) (by cbv) (hwrite _)

/-- The opening of a run for a package called `song`. -/
theorem opening_sample (clip : Deed) (package : Path)
    (hplaces : Places.ofPackage package none = places package)
    (htake : takeIn {} (places package) (homeWith package archive) = (.ok (), taken)) :
    opening (scripted clip).crew {} 0 package (homeWith package archive) =
      (.ok (folder, "song"), surveyed songList) := by
  have hsurvey : survey (scripted clip).crew (places package) 0 taken =
      (.ok (folder, "song"), surveyed songList) :=
    Work.bind_eq_ok_iff.mpr
      ⟨_, _, unpack_taken clip, Work.bind_eq_ok_iff.mpr ⟨_, _, findProject_unpacked package,
      Work.bind_eq_ok_iff.mpr ⟨_, _, writeSongList_unpacked, rfl⟩⟩⟩
  refine Work.bind_eq_ok_iff.mpr ⟨(), taken, ?_, ?_⟩
  · rw [← htake, ← hplaces]
  · rw [← hsurvey, ← hplaces]

theorem furnish_surveyed (package : Path) (c : Content) :
    furnish script.crew {} (places package) folder "song" (surveyed c) =
      (.ok (none, none), furnished c) := by cbv

theorem gather_furnished (package : Path) (c : Content) :
    gather script.crew {} (places package) folder "song" (furnished c) =
      (.ok outcome.charts, gathered c) := by cbv

/-- A run for a package called `song`, with or without its extension. -/
theorem run_sample {package : Path} {d : Content → Disk}
    (hplaces : Places.ofPackage package none = places package)
    (htake : takeIn {} (places package) (homeWith package archive) = (.ok (), taken))
    (hclean : ∀ c, cleanUp {} (places package) (gathered c).disk = (.ok (), d c)) :
    run script.crew {} {} 0 package (homeWith package archive) =
      (.ok outcome, { disk := d songList, crew := (gathered songList).crew }) := by
  have hopen := opening_sample .perform package hplaces htake
  have hfurnish := furnish_surveyed package songList
  have hgather := gather_furnished package songList
  have hclean := hclean songList
  rw [← hplaces] at hfurnish hgather hclean
  refine run_of_stretches hopen hfurnish hgather hclean ?_ ?_
  · exact (congrArg (·.downloadFolder "song") hplaces).symm
  · exact (congrArg (·.contentFolder "song") hplaces).symm

theorem takeIn_song :
    takeIn {} (places "song.arcpkg") (homeWith "song.arcpkg" archive) = (.ok (), taken) := by
  cbv

theorem unpack_song :
    unpack script.crew {} (places "song.arcpkg") (homeWith "song.arcpkg" archive) =
      (.ok (), unpacked) := by
  rw [unpack_eq]
  exact Work.bind_eq_ok_iff.mpr ⟨_, _, takeIn_song, unpack_taken .perform⟩

/-- The stage at the end of the run for the package with its extension. -/
def done : Stage Scene where
  disk := { entries := published songList ++ surroundings, home := ["w"] }
  crew := (gathered songList).crew

theorem run_song :
    run script.crew {} {} 0 "song.arcpkg" (homeWith "song.arcpkg" archive) = (.ok outcome, done) :=
  run_sample (d := fun c => { entries := published c ++ surroundings, home := ["w"] }) rfl
    takeIn_song fun c => by cbv

end Sample

namespace Sample

open Rehearsal (Scene)

/-- A project without a track. -/
def silent : Content := .archive [("song/project.arcproj", .bytes (Utf8.encode descriptor))]

/-- What lies around a package when an earlier run has left a link in place of the song list. -/
def leavings (target : Path) : List (Location × Item) :=
  (["w", "extracted_song", "song", "songlist"], .link target) ::
    (["w", "extracted_song", "song"], .folder) :: (["w", "extracted_song"], .folder) ::
    (["w", "song", "readme.txt"], .file (.bytes [4])) :: (["w", "song"], .folder) :: surroundings

def misled (target : Path) : Stage Scene where
  disk := { entries := (["w", "song.arcpkg"], .file silent) :: leavings target, home := ["w"] }
  crew := { terminal := { input := [], output := [] } }

/-- The stage when the package has been unpacked. -/
def misledUnpacked (target : Path) : Stage Scene where
  disk :=
    { entries := (["w", "extracted_song", "song", "project.arcproj"],
          .file (.bytes (Utf8.encode descriptor))) :: (["w", "song.zip"], .file silent) ::
        leavings target
      home := ["w"] }
  crew := { events := [unpacking], terminal := { input := [], output := [] } }

/-- The stage when the song list has been written to another place. -/
def misledListed (target : Path) (place : Location) (songList : Content) : Stage Scene :=
  { misledUnpacked target with
    disk := (misledUnpacked target).disk.put place (.file songList) }

/-- Links, and where they lead from the project folder. -/
def links : List (Path × Location) :=
  [("../../notes.txt", ["w", "notes.txt"]), ("../../song.zip", ["w", "song.zip"]),
    ("../../song/readme.txt", ["w", "song", "readme.txt"])]

/-- The song list is written to where the link leads. -/
theorem opening_misled : ∀ link ∈ links,
    opening script.crew {} 0 "song.arcpkg" (misled link.1) =
      (.ok (folder, "song".toList), misledListed link.1 link.2 songList) := by
  have htake : ∀ target, ∃ s, takeIn {} (places "song.arcpkg") (misled target) = (.ok (), s) ∧
      script.crew.unpack "./song.zip" "./extracted_song" s = (.ok (), misledUnpacked target) := by
    intro target
    have hunpack : unpack script.crew {} (places "song.arcpkg") (misled target) =
        (.ok (), misledUnpacked target) := by cbv
    rw [unpack_eq] at hunpack
    obtain ⟨_, s, htake, hunpack⟩ := Work.bind_eq_ok_iff.mp hunpack
    exact ⟨s, htake, hunpack⟩
  have hfind : ∀ target, findProject (places "song.arcpkg") (misledUnpacked target) =
      (.ok folder, misledUnpacked target) := by
    intro target
    cbv
  have hfile : ∀ target,
      (misledUnpacked target).disk.isFile (folder.join descriptorName) = true := by
    intro target
    cbv
  have hread : ∀ target, (misledUnpacked target).disk.read (folder.join descriptorName) =
      .ok (.bytes (Utf8.encode descriptor)) := by
    intro target
    cbv
  have hwrite : ∀ link ∈ links, ∀ c, Disk.write (folder.join songListName) c
      (misledUnpacked link.1).disk = .ok (misledListed link.1 link.2 c).disk := by
    simp only [links, List.forall_mem_cons, List.not_mem_nil, IsEmpty.forall_iff, implies_true,
      and_true]
    refine ⟨?_, ?_, ?_⟩
    all_goals
      intro c
      cbv
  intro link hlink
  obtain ⟨s, htake, hunpack⟩ := htake link.1
  exact Work.bind_eq_ok_iff.mpr ⟨_, s, htake, Work.bind_eq_ok_iff.mpr ⟨_, _, hunpack,
    Work.bind_eq_ok_iff.mpr ⟨_, _, hfind link.1, Work.bind_eq_ok_iff.mpr ⟨_, _,
      writeSongList_sample (hfile _) (hread _) (hwrite link hlink songList), rfl⟩⟩⟩⟩

/-- Then the run fails for want of a track. -/
theorem run_misled : ∀ link ∈ links,
    run script.crew {} {} 0 "song.arcpkg" (misled link.1) =
      (.error (.noAudio "base.ogg"), misledListed link.1 link.2 songList) := by
  have hmake : ∀ link ∈ links, ∀ c, make script.crew {} {} (places "song.arcpkg") folder "song"
      (misledListed link.1 link.2 c) =
        (.error (.noAudio "base.ogg"), misledListed link.1 link.2 c) := by
    simp only [links, List.forall_mem_cons, List.not_mem_nil, IsEmpty.forall_iff, implies_true,
      and_true]
    refine ⟨?_, ?_, ?_⟩
    all_goals
      intro c
      cbv
  intro link hlink
  rw [run_eq]
  exact Work.bind_eq_error_iff.mpr (.inr ⟨(folder, "song".toList), _, opening_misled link hlink,
    Work.bind_eq_error_iff.mpr (.inl (hmake link hlink songList))⟩)

end Sample

end Conversion
end ChartPackage
