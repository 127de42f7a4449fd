import Mathlib
import ChartPackage.Proofs.Conversion.Charts

/-!
The folders of a song. They are made before the charts are processed, take in what is moved there
and are still there when all else is cleaned up, unless the package has the name of one of them.
-/

namespace ChartPackage.Conversion

open Disk (Frame Kept Apart Steady)

variable {σ : Type} {crew : Crew σ} {settings : Settings} {places : Places} {project : Path}

/-- What a run does between making its files and processing the charts: the entries for the download
folder are moved there, those for the editor go, and all others stay. -/
structure Published (project download content : Location) (d d' : Disk) : Prop where
  steady : Steady d d'
  downloads : ∀ n ∈ downloadNames, Kept d (project ++ [n]) d' (download ++ [n])
  others : ∀ n ∉ downloadNames, isSource n = false → Kept d (project ++ [n]) d' (project ++ [n])
  download : d'.get? download = some .folder
  content : d'.get? content = some .folder
  folders : ∀ m, d.get? m = some .folder → ¬ project <+: m → d'.get? m = some .folder

theorem published {d d₁ d₂ d' : Disk} (hd : d.WellFormed) {download content : Path}
    (hp : d.Direct project) (hdown : d.Direct download) (hto : d.Direct content)
    (hdownload : download ≠ []) (hcontent : content ≠ [])
    (hpublish : publishDownloads project download d = (.ok (), d₁))
    (hensure : Disk.Act.ensureFolders content d₁ = (.ok (), d₂))
    (hdiscard : discardSources project d₂ = (.ok (), d'))
    (hapart : Apart (d.spot project) (d.spot download))
    (hapart' : Apart (d.spot project) (d.spot content)) :
    Published (d.spot project) (d.spot download) (d.spot content) d d' := by
  obtain ⟨_, d₀, hensure₀, hpublish⟩ := Work.bind_eq_ok_iff.mp hpublish
  obtain ⟨names, d₃, hmove, hpublish⟩ := Work.bind_eq_ok_iff.mp hpublish
  obtain ⟨-, rfl⟩ := Work.pure_eq_ok_iff.mp hpublish
  have h₀ := Disk.Act.frame_ensureFolders hdown.way
  have hfolder := Disk.Act.folder_of_ensureFolders hdown hdownload hensure₀
  rw [hensure₀] at h₀
  have hensured : Steady d d₀ := h₀.steady (by simp)
  have hd₀ := hensured.wellFormed hd
  have hp₀ := hensured.direct hp
  have hdown₀ := hensured.direct hdown
  obtain ⟨hnames, hmoved⟩ := Disk.Act.moved_of_moveContents hd₀ hp₀ hdown₀
    (by rwa [h₀.spot, h₀.spot]) hmove
  have hmoving : Steady d₀ d₃ := by
    have hframe := Disk.Act.frame_moveContents hp₀ hdown₀ hd₀ downloadNames.contains
    rw [hmove] at hframe
    exact hframe.steady (Disk.Act.clean_spots hp₀ hdown₀)
  have hto₁ := hmoving.direct (hensured.direct hto)
  have h₂ := Disk.Act.frame_ensureFolders hto₁.way
  have hfolder' := Disk.Act.folder_of_ensureFolders hto₁ hcontent hensure
  rw [hensure] at h₂
  rw [h₀.spot] at hnames
  rw [h₀.spot, h₀.spot] at hmoved
  have hsteady₂ := (hensured.trans hmoving).trans (h₂.steady (by simp))
  have hd₂ := hsteady₂.wellFormed hd
  have hp₂ := hsteady₂.direct hp
  have h₃ := frame_discardSources hd₂ hp₂
  have hdiscarded := steady_discardSources hd₂ hp₂
  rw [hdiscard] at h₃ hdiscarded
  rw [hsteady₂.spot] at h₃
  rw [hmoving.spot, h₀.spot] at hfolder'
  have hfolders : ∀ m, d₀.get? m = some .folder → ¬ d.spot project <+: m →
      d'.get? m = some .folder := by
    intro m hm hout
    have hm₁ := hmoved.folders hd₀ m hm fun n _ hin =>
      hout ((List.prefix_append _ _).trans hin)
    exact h₃.some_of_some (Disk.not_in_entries hout _) (h₂.some_of_some (by simp) hm₁)
  refine ⟨hsteady₂.trans hdiscarded, ?_, ?_, ?_, ?_, ?_⟩
  · intro n hn r e he
    have he₀ := h₀.some_of_some (by simp) he
    have hthere : n ∈ names := by
      rw [hnames]
      exact List.mem_filter.mpr ⟨Disk.mem_names.mpr (hd₀.some_above he₀),
        List.contains_iff_mem.mpr hn⟩
    exact h₃.some_of_some (Disk.not_in_entries ((hapart.append_right [n]).not_prefix_append r) _)
      (h₂.some_of_some (by simp) (hmoved.kept hthere r e he₀))
  · intro n hn hsource r e he
    have hstays : n ∉ names := by
      rw [hnames]
      intro hmem
      exact hn (List.contains_iff_mem.mp (List.of_mem_filter hmem))
    have hother := hmoved.kept_other hapart hstays r e (h₀.some_of_some (by simp) he)
    refine h₃.kept_entry ?_ r e (h₂.some_of_some (by simp) hother)
    intro hmem
    have hdiscarded := List.of_mem_filter hmem
    rw [hsource] at hdiscarded
    cases hdiscarded
  · exact hfolders _ hfolder hapart.1
  · exact h₃.some_of_some (Disk.not_in_entries hapart'.1 _) hfolder'
  · intro m hm hout
    exact hfolders m (h₀.some_of_some (by simp) hm) hout

theorem downloadFolder_ne_nil (places : Places) (folder : Text) :
    places.downloadFolder (songId folder) ≠ [] :=
  Path.join_ne_nil (Places.plain_downloadName folder)

theorem contentFolder_ne_nil (places : Places) {folder : Text} (h : songId folder ≠ []) :
    places.contentFolder (songId folder) ≠ [] := Path.join_ne_nil (plain_songId h)

variable {s s' : Stage σ} {allowed : Whitelists} {now : Int64} {package : Path}
  {I : Disk → Prop}

/-- The files are made one after the other, and then published. -/
theorem published_of_furnish (hc : crew.SteadyOn I) (hd : I s.disk) (hp : s.disk.Direct project)
    {folder : Text} (hid : songId folder ≠ [])
    (hdown : s.disk.Direct (places.downloadFolder (songId folder)))
    (hto : s.disk.Direct (places.contentFolder (songId folder)))
    (hdownload : Apart (s.disk.spot project) (s.disk.spot (places.downloadFolder (songId folder))))
    (hcontent : Apart (s.disk.spot project) (s.disk.spot (places.contentFolder (songId folder))))
    {sources : Option Text × Option Text}
    (h : furnish crew settings places project (songId folder) s = (.ok sources, s')) :
    ∃ s₁ s₂ s₃, makeJackets crew settings project s = (.ok sources.1, s₁) ∧
      makeTrack crew project s₁ = (.ok sources.2, s₂) ∧ makePreview crew settings project s₂ =
        (.ok (), s₃) ∧
      Steady s.disk s₃.disk ∧
      Published (s.disk.spot project) (s.disk.spot (places.downloadFolder (songId folder)))
        (s.disk.spot (places.contentFolder (songId folder))) s₃.disk s'.disk := by
  obtain ⟨s₁, s₂, s₃, d₁, d₂, hjackets, htrack, hpreview, hpublish, hensure, hdiscard⟩ :=
    furnish_eq_ok h
  have h₁ := steady_makeJackets hc hd hp settings
  rw [hjackets] at h₁
  have h₂ := steady_makeTrack hc (hc.lasts _ _ h₁ hd) (h₁.direct hp)
  rw [htrack] at h₂
  have h₂ := h₁.trans h₂
  have h₃ := steady_makePreview hc (hc.lasts _ _ h₂ hd) (h₂.direct hp) settings
  rw [hpreview] at h₃
  have h₃ := h₂.trans h₃
  refine ⟨s₁, s₂, s₃, hjackets, htrack, hpreview, h₃, ?_⟩
  rw [← h₃.spot, ← h₃.spot] at hdownload
  rw [← h₃.spot, ← h₃.spot] at hcontent
  rw [← h₃.spot, ← h₃.spot, ← h₃.spot]
  exact published (h₃.wellFormed (hc.formed _ hd)) (h₃.direct hp) (h₃.direct hdown)
    (h₃.direct hto) (downloadFolder_ne_nil places folder) (contentFolder_ne_nil places hid)
    hpublish hensure hdiscard hdownload hcontent

/-- A run that succeeds leaves the folders of its song, as long as its places are separate. -/
theorem folders_of_run (hc : crew.SteadyOn I) (hd : I s.disk) {o : Outcome}
    (hfree : (Places.ofPackage package settings.outputFolder).Free s.disk (some o.songId))
    (h : run crew settings allowed now package s = (.ok o, s'))
    (hapart :
      ((Places.ofPackage package settings.outputFolder).spots s.disk o.songId).Pairwise Apart) :
    s'.disk.get? (s.disk.spot o.downloadFolder) = some .folder ∧
      s'.disk.get? (s.disk.spot o.contentFolder) = some .folder := by
  have hseparate := Places.separate_of_pairwise hapart
  obtain ⟨project, s₁, s₂, s₃, hopen, hfurnish, hgather, hclean, hdownload, hcontent⟩ := run_eq_ok h
  obtain ⟨n, hn, rfl, hid, hne⟩ := opening_eq_ok hc hd hfree.beside hopen
  have h₁ := steady_opening hc hd hfree.beside now
  rw [hopen] at h₁
  generalize Places.ofPackage package settings.outputFolder = places at *
  have hproject : s.disk.spot (places.workFolder.join n) = s.disk.spot places.workFolder ++ [n] :=
    Disk.spot_join _ _ hn
  have hp : s.disk.Direct (places.workFolder.join n) := hfree.workFolder.join hn
  rw [hdownload, hcontent]
  rw [hid] at hfree hfurnish hgather hseparate hne ⊢
  obtain ⟨-, -, s₄, -, -, -, h₄, hpublished⟩ :=
    published_of_furnish hc (hc.lasts _ _ h₁ hd) (h₁.direct hp) hne
      (h₁.direct hfree.downloadFolder) (h₁.direct hfree.contentFolder)
      (by rw [h₁.spot, h₁.spot, hproject]; exact hseparate.work_download.append_left [n])
      (by rw [h₁.spot, h₁.spot, hproject]; exact hseparate.work_content.append_left [n]) hfurnish
  have h₂ := (h₁.trans h₄).trans hpublished.steady
  have hd₂ := h₂.wellFormed (hc.formed _ hd)
  have hp₂ := h₂.direct hp
  have hto₂ := h₂.direct hfree.contentFolder
  rw [h₁.spot, h₁.spot, h₁.spot, hproject] at hpublished
  obtain ⟨-, -, hfolders⟩ := gather_eq_ok hd₂ hp₂ hto₂
    (by rw [h₂.spot, h₂.spot, hproject]; exact hseparate.work_content.append_left [n]) hgather
  have hmoved := frame_gather hd₂ hp₂ hto₂ crew allowed
  rw [hgather] at hmoved
  have h₃ := h₂.trans (hmoved.steady (Disk.Act.clean_spots hp₂ hto₂))
  have hcleaned := frame_cleanUp (fun q hq => h₃.direct (hfree q hq)) settings
  rw [hclean, h₃.spot, h₃.spot, h₃.spot] at hcleaned
  rw [h₂.spot, hproject] at hfolders
  have hkept : ∀ l, Apart (s.disk.spot places.workFolder) l → Apart (s.disk.spot places.archive) l →
      Apart (s.disk.spot places.package) l → s₂.disk.get? l = some .folder →
        s'.disk.get? l = some .folder := by
    intro l hwork harchive hpackage hl
    refine hcleaned.some_of_some ?_ (hfolders l hl (hwork.append_left [n]).1)
    simp only [List.forall_mem_cons, List.not_mem_nil, IsEmpty.forall_iff, implies_true, and_true]
    exact ⟨hwork.1, harchive.1, hpackage.1⟩
  exact ⟨hkept _ hseparate.work_download hseparate.archive_download hseparate.package_download
    hpublished.download,
    hkept _ hseparate.work_content hseparate.archive_content hseparate.package_content
      hpublished.content⟩

/-- The places next to a package differ, and a run leaves the folders of its song there, unless the
package has the name of one of them. -/
theorem song_folders_survive {file : Text} (hfile : package.fileName? = some file) :
    (∀ d folder, songId folder ≠ [] →
      (((Places.ofPackage package none).spots d (songId folder)).Nodup ↔
        file ≠ "dl_".toList ++ songId folder ∧ file ≠ songId folder)) ∧
    ∀ (crew : Crew σ) settings allowed now s s' o, crew.Orderly → s.disk.Sound →
      settings.outputFolder = none →
      run crew settings allowed now package s = (.ok o, s') →
      file ≠ "dl_".toList ++ o.songId → file ≠ o.songId →
      s'.disk.get? (s.disk.spot o.downloadFolder) = some .folder ∧
        s'.disk.get? (s.disk.spot o.contentFolder) = some .folder := by
  refine ⟨fun d folder hid => Places.nodup_spots_iff package d hfile hid, ?_⟩
  intro crew settings allowed now s s' o hc hd houtput h hdownload hcontent
  obtain ⟨project, s₁, -, -, hopen, -⟩ := run_eq_ok h
  obtain ⟨n, -, -, hid, hne⟩ := opening_eq_ok hc.steady hd (Places.free_of_sound hd) hopen
  refine folders_of_run hc.steady hd (Places.free_of_sound hd) h ?_
  rw [hid] at hdownload hcontent hne ⊢
  rw [houtput]
  exact Places.apart_spots package s.disk hfile hne
    ((Places.nodup_spots_iff package s.disk hfile hne).mpr ⟨hdownload, hcontent⟩)

open Rehearsal (homeWith sound_homeWith)

theorem song_folders_survive_sample :
    run Sample.script.crew {} {} 0 "song.arcpkg" (homeWith "song.arcpkg" Sample.archive) =
        (.ok Sample.outcome, Sample.done) ∧
      Sample.done.disk.get? ["w", "dl_song"] = some .folder ∧ Sample.done.disk.get? ["w", "song"] =
        some .folder := by
  have hfile : Path.fileName? "song.arcpkg" = some "song.arcpkg".toList := by decide
  have hsound : (homeWith "song.arcpkg" Sample.archive).disk.Sound :=
    sound_homeWith (by decide) _
  exact ⟨Sample.run_song, (song_folders_survive hfile).2 Sample.script.crew {} {} 0 _ _ _
    (Rehearsal.Script.contained _ rfl).orderly hsound rfl Sample.run_song
      (by decide) (by decide)⟩

/-- The package `song` of the song `song` lies where the song's folder is made, which is deleted in
its place. -/
theorem song_folder_deleted :
    ∃ s', run Sample.script.crew {} {} 0 "song" (homeWith "song" Sample.archive) =
      (.ok Sample.outcome, s') ∧
      s'.disk.get? ((homeWith "song" Sample.archive).disk.spot Sample.outcome.contentFolder) =
        none ∧
      ¬ ((Places.ofPackage "song" none).spots (homeWith "song" Sample.archive).disk
        "song").Nodup := by
  have hclean : ∀ c, cleanUp {} (Sample.places "song") (Sample.gathered c).disk =
      (.ok (),
        { entries := (["w", "dl_song", "preview.ogg"], .file Sample.preview) ::
            (["w", "dl_song"], .folder) :: Sample.surroundings
          home := ["w"] }) := by
    intro c
    cbv
  have htake : takeIn {} (Sample.places "song") (homeWith "song" Sample.archive) =
      (.ok (), Sample.taken) := by
    cbv
  refine ⟨_, Sample.run_sample rfl htake hclean, ?_, ?_⟩
  · rfl
  · decide +kernel

end ChartPackage.Conversion
