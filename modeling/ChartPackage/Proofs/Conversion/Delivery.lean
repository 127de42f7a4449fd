import Mathlib
import ChartPackage.Proofs.Conversion.Making
import ChartPackage.Proofs.Conversion.Publishing
import ChartPackage.Proofs.Conversion.Survival

/-!
What a run that succeeds leaves. The package, its archive and the work folder are gone, and all of
the project is in the folders of its song, but for what only its editor needs and what has been made
into something else.
-/

namespace ChartPackage.Conversion

open Disk (Frame Kept Apart Steady)

variable {σ : Type} {crew : Crew σ} {settings : Settings} {allowed : Whitelists} {package : Path}
  {output : Option Path}

/-! ### What is gone -/

/-- The work folder and the archive next to it are gone once both have been deleted, and the way to
where they lay is as open as it was. -/
theorem gone_of_deletions {d d₁ d₂ : Disk} {c : Content} (hd : d.WellFormed)
    (hfree : (Places.ofPackage package output).Free d none)
    (hapart : Apart (d.spot (Places.ofPackage package output).archive)
      (d.spot (Places.ofPackage package output).workFolder))
    (hway : ∀ m ∈ d.way (Places.ofPackage package output).workFolder,
      d.get? m = some .folder ∧ ¬ d.spot (Places.ofPackage package output).workFolder <+: m)
    (harchive : d.get? (d.spot (Places.ofPackage package output).archive) = some (.file c))
    (hfirst : Disk.Act.delete (Places.ofPackage package output).workFolder d = (.ok (), d₁))
    (hsecond : Disk.Act.delete (Places.ofPackage package output).archive d₁ = (.ok (), d₂)) :
    Frame [d.spot (Places.ofPackage package output).workFolder,
      d.spot (Places.ofPackage package output).archive]
        [] d d₂ ∧
      d₂.get? (d.spot (Places.ofPackage package output).workFolder) = none ∧
      d₂.get? (d.spot (Places.ofPackage package output).archive) = none ∧
      ∀ m ∈ d.way (Places.ofPackage package output).workFolder, d₂.get? m = some .folder := by
  have hworkNil : (Places.ofPackage package output).workFolder ≠ [] :=
    Path.join_ne_nil (Places.plain_workName package)
  have harchiveNil : (Places.ofPackage package output).archive ≠ [] :=
    Path.join_ne_nil (Places.plain_archiveName package)
  have hways : ∀ m, m ∈ d.way (Places.ofPackage package output).archive ↔
      m ∈ d.way (Places.ofPackage package output).workFolder := fun m => Places.mem_way_archive
  generalize Places.ofPackage package output = places at *
  have h₁ := Disk.Act.frame_delete hfree.workFolder.way
  rw [hfirst] at h₁
  have ha₁ := h₁.direct (by simpa using hfree.workFolder.clean) hfree.archive
  have h₂ := Disk.Act.frame_delete ha₁.way
  rw [hsecond, h₁.spot] at h₂
  have hopen₁ : ∀ m ∈ d.way places.workFolder, d₁.get? m = some .folder := fun m hm =>
    h₁.some_of_some (by simpa using (hway m hm).2) (hway m hm).1
  -- No way leads through the archive, which is a file.
  have hout : ∀ m ∈ d.way places.workFolder, ¬ d.spot places.archive <+: m :=
    fun m hm => hd.not_prefix_of_file harchive (hway m hm).1
  have hwork := Disk.Act.none_of_delete hd hfree.workFolder hworkNil
    (fun m hm => Or.inr (hway m hm)) hfirst []
  have hgone := Disk.Act.none_of_delete (h₁.wellFormed hd) ha₁ harchiveNil (fun m hm => by
    rw [h₁.way, hways] at hm
    rw [h₁.spot]
    exact Or.inr ⟨hopen₁ m hm, hout m hm⟩) hsecond []
  rw [List.append_nil] at hwork hgone
  rw [h₁.spot] at hgone
  refine ⟨?_, (h₂.get?_eq (by simpa using hapart.1)).trans hwork, hgone, ?_⟩
  · exact (h₁.mono (by simp) (List.Subset.refl _)).trans (h₂.mono (by simp) (List.Subset.refl _))
  · exact fun m hm => h₂.some_of_some (by simpa using hout m hm) (hopen₁ m hm)

/-- Cleaning up that succeeds has deleted everything, since the ways to what is deleted are open. -/
theorem gone_of_cleanUp {d d' : Disk} {c : Content} (hd : d.WellFormed)
    (hfree : (Places.ofPackage package output).Free d none)
    (hapart :
      ([(Places.ofPackage package output).package, (Places.ofPackage package output).archive,
      (Places.ofPackage package output).workFolder].map d.spot).Pairwise Apart)
    (hway : ∀ m ∈ d.way (Places.ofPackage package output).workFolder,
      d.get? m = some .folder ∧ ¬ d.spot (Places.ofPackage package output).workFolder <+: m)
    (harchive : d.get? (d.spot (Places.ofPackage package output).archive) = some (.file c))
    (hdelete : settings.keepPackage = false → Deletable d (Places.ofPackage package output))
    (h : cleanUp settings (Places.ofPackage package output) d = (.ok (), d')) :
    d'.get? (d.spot (Places.ofPackage package output).workFolder) = none ∧
      d'.get? (d.spot (Places.ofPackage package output).archive) = none ∧
      d'.get? (d.spot package) = if settings.keepPackage then d.get?
        (d.spot package) else none := by
  have hways : ∀ m, m ∈ d.way (Places.ofPackage package output).archive ↔
      m ∈ d.way (Places.ofPackage package output).workFolder := fun m => Places.mem_way_archive
  obtain ⟨hpackageArchive, hpackageWork, harchiveWork⟩ := Places.pairwise_beside_iff.mp hapart
  obtain ⟨_, d₁, hfirst, h⟩ := Work.bind_eq_ok_iff.mp h
  obtain ⟨_, d₂, hsecond, h⟩ := Work.bind_eq_ok_iff.mp h
  obtain ⟨hframe, hwork, hgone, hopen⟩ :=
    gone_of_deletions hd hfree harchiveWork hway harchive hfirst hsecond
  generalize hplaces : Places.ofPackage package output = places at *
  obtain rfl : places.package = package := by rw [← hplaces]; rfl
  cases hkeep : settings.keepPackage with
  | true =>
      rw [hkeep] at h
      obtain ⟨-, rfl⟩ := Work.pure_eq_ok_iff.mp h
      exact ⟨hwork, hgone, hframe.get?_eq (by simpa using ⟨hpackageWork.2, hpackageArchive.2⟩)⟩
  | false =>
      rw [hkeep] at h
      have hp₂ := hframe.direct
        (by simpa using ⟨hfree.workFolder.clean, hfree.archive.clean⟩) hfree.package
      have hlast := Disk.Act.frame_delete hp₂.way
      rw [show Disk.Act.delete places.package d₂ = (.ok (), d') from h, hframe.spot] at hlast
      have hdeletable := hdelete hkeep
      have hpackage := Disk.Act.none_of_delete (hframe.wellFormed hd) hp₂ hdeletable.neat.ne_nil
        (fun m hm => by
        rw [hframe.way] at hm
        rw [hframe.spot]
        obtain ⟨hmem, hbeyond⟩ := hdeletable.way m hm
        exact Or.inr ⟨hopen m ((hways m).mp hmem), hbeyond⟩) h []
      rw [List.append_nil, hframe.spot] at hpackage
      refine ⟨?_, ?_, hpackage⟩
      · rw [hlast.get?_eq (by simpa using hpackageWork.1), hwork]
      · rw [hlast.get?_eq (by simpa using hpackageArchive.1), hgone]

/-! ### What is where -/

/-- The names of the entries that a run uses up or makes anew. -/
def spentNames (o : Outcome) : List Text :=
  songListName :: previewName ::
    (jacketNames o.jacketSource ++ trackNames o.trackSource ++ changedNames o.charts)

/-- What has become of a project, of which one disk has what was unpacked and another the folders of
the song. -/
structure Delivered (crew : Crew σ) (allowed : Whitelists) (o : Outcome) (d : Disk)
    (project : Location)
    (d' : Disk) (download content : Location) : Prop where
  preview : ∃ c, d'.get? (download ++ [previewName]) = some (.file c)
  jackets : o.jacketSource ≠ none → ∀ k ∈ [jacketName, thumbnailName],
    ∃ c, d'.get? (download ++ [k]) = some (.file c)
  songList : ∃ c, d'.get? (content ++ [songListName]) = some (.file c)
  track : ∃ c, d'.get? (content ++ [trackName]) = some (.file c)
  charts :
    ∃ d₁, (∀ n, Text.endsWith chartExtension n = true →
      Kept d (project ++ [n]) d₁ (project ++ [n])) ∧
    Processed crew allowed (chartsAt d₁ project) d₁ project d' content o.charts
  others : ∀ n ∉ spentNames o, isSource n = false →
    Kept d (project ++ [n]) d' ((if n ∈ downloadNames then download else content) ++ [n])

/-- What is done elsewhere afterwards does not matter. -/
theorem Delivered.kept {o : Outcome} {d d₁ d' : Disk} {project download content : Location}
    (h : Delivered crew allowed o d project d₁ download content)
    (hdownload : Kept d₁ download d' download)
    (hcontent : Kept d₁ content d' content) :
      Delivered crew allowed o d project d' download content where
  preview := (hdownload.entry _).file h.preview
  jackets hsome k hk := (hdownload.entry _).file (h.jackets hsome k hk)
  songList := (hcontent.entry _).file h.songList
  track := (hcontent.entry _).file h.track
  charts := by
    obtain ⟨d₂, hstay, hprocessed⟩ := h.charts
    refine ⟨d₂, hstay, hprocessed.moved (fun n hn => (of_mem_chartsAt hn).2) ?_⟩
    intro k e he
    exact hcontent [k] e he
  others n hn hsource := by
    refine (h.others n hn hsource).trans ?_
    split
    · exact hdownload.entry n
    · exact hcontent.entry n

/-- A chart is neither picture nor audio. -/
theorem not_matches_of_chart {extensions : List Text} {n : Text}
    (hn : Text.endsWith chartExtension n = true)
    (hextensions : extensions.any (Text.sameIgnoringCase "aff") = false) :
      ¬ Disk.Act.Matches extensions n := by
  obtain ⟨base, hbase⟩ := Option.isSome_iff_exists.mp hn
  obtain rfl := Text.dropTail?_eq_some_iff.mp hbase
  intro hmatch
  obtain ⟨extension, hextension, hany⟩ := hmatch
  have hreverse : (base ++ chartExtension).reverse = 'f' :: 'f' :: 'a' :: '.' :: base.reverse :=
    List.reverse_append
  have haff : extension = "aff".toList := by
    have hspan : ('f' :: 'f' :: 'a' :: '.' :: base.reverse).span (· ≠ '.') =
        (['f', 'f', 'a'], '.' :: base.reverse) := rfl
    rw [Path.extension?, hreverse, hspan] at hextension
    dsimp only at hextension
    split at hextension
    · cases hextension
    · cases hextension
    · split at hextension
      · cases hextension
      · exact (Option.some.inj hextension).symm
  rw [haff, hextensions] at hany
  cases hany

theorem not_mem_of_chart {names : List Text} {n : Text} (hn : Text.endsWith chartExtension n = true)
    (hnames : ∀ k ∈ names, Text.endsWith chartExtension k = false) : n ∉ names := by
  intro hmem
  rw [hnames n hmem] at hn
  cases hn

/-- A chart is of use not only to the editor. -/
theorem isSource_of_chart {n : Text} (hn : Text.endsWith chartExtension n = true) :
    isSource n = false := by
  have hdescriptor : Text.endsWith chartExtension descriptorName = false := by decide
  rw [isSource, Bool.or_eq_false_iff, beq_eq_false_iff_ne]
  refine ⟨?_, ?_⟩
  · intro heq
    rw [heq, hdescriptor] at hn
    cases hn
  · obtain ⟨base, hbase⟩ := Option.isSome_iff_exists.mp hn
    obtain rfl := Text.dropTail?_eq_some_iff.mp hbase
    have hreverse : (base ++ chartExtension).reverse = 'f' :: 'f' :: 'a' :: '.' :: base.reverse :=
      List.reverse_append
    rw [Text.endsWith, Text.dropTail?, hreverse]
    rfl

variable {s s₁ s₂ s₃ : Stage σ} {places : Places} {project : Path} {now : Int64}

theorem frame_of_steps (hc : crew.Contained) (hd : s.disk.WellFormed)
    (hp : s.disk.Direct project) {id : Text} (hdown : s.disk.Direct (places.downloadFolder id))
    (hto : s.disk.Direct (places.contentFolder id)) {sources : Option Text × Option Text}
    {o : ChartOutcome} (hwrite : writeSongList now project s = (.ok id, s₁))
    (hfurnish : furnish crew settings places project id s₁ = (.ok sources, s₂))
    (hgather : gather crew allowed places project id s₂ = (.ok o, s₃)) :
    Frame [s.disk.spot project, s.disk.spot (places.downloadFolder id),
      s.disk.spot (places.contentFolder id)]
      (((places.downloadFolder id).ancestors ++ (places.contentFolder id).ancestors).map
        s.disk.spot) s.disk
      s₃.disk := by
  have h₁ := frame_writeSongList hp now
  rw [hwrite] at h₁
  have hsteady := h₁.steady_within hp.clean (by simp)
  have hd₁ := hsteady.wellFormed hd
  have hp₁ := hsteady.direct hp
  have hdown₁ := hsteady.direct hdown
  have hto₁ := hsteady.direct hto
  have h₂ := frame_furnish hc hd₁ hp₁ hdown₁ hto₁ settings
  rw [hfurnish] at h₂
  have hroots := Disk.Act.clean_spots hp₁ hdown₁
  have h₃ := frame_gather (h₂.wellFormed hd₁) (h₂.direct hroots hp₁) (h₂.direct hroots hto₁) crew
    allowed
  rw [funext h₁.spot] at h₂
  rw [hgather, h₂.spot, h₁.spot, h₂.spot, h₁.spot] at h₃
  exact (h₁.within (List.prefix_append _ _) List.mem_cons_self (List.nil_subset _)).trans
    ((h₂.mono (by simp) (List.Subset.refl _)).trans (h₃.mono (by simp) (List.nil_subset _)))

/-- What has been made goes to the one folder of the song, and what is not published goes to the
other. -/
theorem kept_of_published {d₁ d₂ d₃ : Disk} {project download content : Location}
    {changed : List Text}
    (hpublished : Published project download content d₁ d₂)
    (hgathered : Frame [project, content] [] d₂ d₃)
    (hmoved : ∀ n ∉ changed, Kept d₂ (project ++ [n]) d₃ (content ++ [n]))
    (hdownload : Apart project download) (hbetween : Apart download content) :
    (∀ n ∈ downloadNames, Kept d₁ (project ++ [n]) d₃ (download ++ [n])) ∧
      ∀ n ∉ downloadNames, isSource n = false → n ∉ changed →
        Kept d₁ (project ++ [n]) d₃ (content ++ [n]) := by
  refine ⟨fun n hn => ?_, fun n hn hsource hchanged => ?_⟩
  · refine (hpublished.downloads n hn).trans (Kept.entry (hgathered.kept ?_) n)
    rw [List.forall_mem_cons, List.forall_mem_singleton]
    exact ⟨hdownload, hbetween.symm⟩
  · exact (hpublished.others n hn hsource).trans (hmoved n hchanged)

/-- What has been unpacked is in the folders of the song when all has been moved. -/
theorem delivered_of_steps (hc : crew.Faithful) (hd : s.disk.WellFormed)
    (hp : s.disk.Direct project) {o : Outcome}
    (hdown : s.disk.Direct (places.downloadFolder o.songId))
    (hto : s.disk.Direct (places.contentFolder o.songId))
    (hwrite : writeSongList now project s = (.ok o.songId, s₁))
    (hfurnish : furnish crew settings places project o.songId s₁ =
      (.ok (o.jacketSource, o.trackSource), s₂))
    (hgather : gather crew allowed places project o.songId s₂ = (.ok o.charts, s₃))
    (hdownload : Apart (s.disk.spot project) (s.disk.spot (places.downloadFolder o.songId)))
    (hcontent : Apart (s.disk.spot project) (s.disk.spot (places.contentFolder o.songId)))
    (hbetween : Apart (s.disk.spot (places.downloadFolder o.songId))
      (s.disk.spot (places.contentFolder o.songId))) :
    Delivered crew allowed o s.disk (s.disk.spot project) s₃.disk
        (s.disk.spot (places.downloadFolder o.songId))
        (s.disk.spot (places.contentFolder o.songId)) ∧
      ∀ m, s.disk.get? m = some .folder → ¬ s.disk.spot project <+: m →
        s₃.disk.get? m = some .folder := by
  obtain ⟨hne, hid, hlist, hlistFile⟩ := writeSongList_eq_ok hp hwrite
  rw [hid] at hne hdown hto hfurnish hgather hdownload hcontent hbetween ⊢
  have hlisted : Steady s.disk s₁.disk := hlist.steady_within hp.clean (by simp)
  have hd₁ := hlisted.wellFormed hd
  have hp₁ := hlisted.direct hp
  obtain ⟨t₁, t₂, t₃, hjackets, htrack, hpreview, hsteady, hpublished⟩ :=
    published_of_furnish hc.toContained.steady hd₁ hp₁ hne (hlisted.direct hdown)
      (hlisted.direct hto) (by rwa [hlist.spot, hlist.spot]) (by rwa [hlist.spot, hlist.spot])
      hfurnish
  have hmade := made_of_steps hc hd₁ hp₁ hjackets htrack hpreview
  have hbefore := hlisted.trans (hsteady.trans hpublished.steady)
  have hspot : s₂.disk.spot = s.disk.spot := funext hbefore.spot
  have hd₂ := hbefore.wellFormed hd
  have hgathered := frame_gather hd₂ (hbefore.direct hp) (hbefore.direct hto) crew allowed
  rw [hgather] at hgathered
  obtain ⟨hprocessed, hmoved, hfolders⟩ :=
    gather_eq_ok hd₂ (hbefore.direct hp) (hbefore.direct hto) (by rwa [hspot]) hgather
  rw [hspot] at hprocessed hmoved hfolders hgathered
  rw [funext hlist.spot] at hpublished hmade
  have hcharts := hprocessed.endsWith_of_mem fun n hn => (of_mem_chartsAt hn).1
  have hunchanged : ∀ n, Text.endsWith chartExtension n = false → n ∉ changedNames o.charts := by
    intro n hn hmem
    rw [hcharts n hmem] at hn
    cases hn
  obtain ⟨hpublic, hprivate⟩ := kept_of_published hpublished hgathered hmoved hdownload hbetween
  refine ⟨⟨?_, ?_, ?_, ?_, ?_, ?_⟩, ?_⟩
  · exact (hpublic _ (by decide)).file hmade.preview
  · intro hsome k hk
    have hjacketNames : [jacketName, thumbnailName] ⊆ downloadNames := by decide
    exact (hpublic k (hjacketNames hk)).file (hmade.jackets hsome k hk)
  · exact (hprivate _ (by decide) (by decide) (hunchanged _ (by decide))).file
      ((hmade.kept (by decide) (by decide) (by decide)).file hlistFile)
  · exact (hprivate _ (by decide) (by decide) (hunchanged _ (by decide))).file hmade.track
  · refine ⟨s₂.disk, fun n hn => ?_, hprocessed⟩
    have hsongList : n ∉ [songListName] := not_mem_of_chart hn (by decide)
    have hlisted := hlist.kept_entry hsongList
    have hmade := hmade.kept (not_mem_of_chart hn (by decide)) (not_matches_of_chart hn (by decide))
      (not_matches_of_chart hn (by decide))
    exact hlisted.trans (hmade.trans
      (hpublished.others n (not_mem_of_chart hn (by decide)) (isSource_of_chart hn)))
  · intro n hn hsource
    simp only [spentNames, List.mem_cons, List.mem_append, not_or] at hn
    obtain ⟨hsongList, hpreviewName, ⟨hpicture, haudio⟩, hchart⟩ := hn
    have hbeforeMoving := (hlist.kept_entry (n := n) (by simpa using hsongList)).trans
      (hmade.frame.kept_entry (n := n) (by simp [hpreviewName, hpicture, haudio]))
    split
    · next hmem => exact hbeforeMoving.trans (hpublic n hmem)
    · next hmem => exact hbeforeMoving.trans (hprivate n hmem hsource hchart)
  · intro m hm hout
    have hlisted := hlist.some_of_some (Disk.not_in_entries hout [songListName]) hm
    have hmade := hmade.frame.some_of_some (Disk.not_in_entries hout _) hlisted
    exact hfolders m (hpublished.folders m hmade hout) hout

/-- The archive has the content of the package, which stays where it is if it is to be kept. -/
theorem taken_of_takeIn (hp : s.disk.Direct places.package) (ha : s.disk.Direct places.archive)
    (hapart : Apart (s.disk.spot places.package) (s.disk.spot places.archive))
    (h : takeIn settings places s = (.ok (), s₁)) (hfile : s₁.disk.isFile places.archive = true) :
    ∃ c, s.disk.get? (s.disk.spot places.package) = some (.file c) ∧
      s₁.disk.get? (s.disk.spot places.archive) = some (.file c) ∧
      (settings.keepPackage = true → s₁.disk.get? (s.disk.spot places.package) = some
        (.file c)) := by
  obtain ⟨c, hentry⟩ := Disk.isFile_iff.mp hfile
  have hframe := frame_takeIn hp ha settings
  rw [h] at hframe
  have ha₁ := hframe.direct (Disk.Act.clean_spots hp ha) ha
  have harchive := Disk.get?_of_entry ha₁.straight hentry
  rw [hframe.spot] at harchive
  rw [takeIn] at h
  split at h
  · have hcopy := Disk.Act.change_eq_ok_iff.mp (Job.of_onDisk h)
    have hcopied := Disk.get?_of_copy hp.straight ha.straight
      (fun heq => hapart.1 (heq ▸ List.prefix_refl _)) hcopy
    rw [harchive] at hcopied
    exact ⟨c, hcopied.symm, harchive, fun _ =>
      (Disk.frame_copy ha.straight hcopy).1.some_of_some (by simpa using hapart.2) hcopied.symm⟩
  · next hkeep =>
      obtain ⟨-, harrived, -⟩ :=
        Disk.frame_rename hp.way ha.way (Disk.Act.change_eq_ok_iff.mp (Job.of_onDisk h))
      have hmoved := harrived []
      rw [List.append_nil, List.append_nil, harchive] at hmoved
      exact ⟨c, hmoved.symm, harchive, fun h => absurd h hkeep⟩

/-- The ways to what lies next to the package lead through folders when it has been taken in, and
not through the work folder if that is not there. -/
theorem ways_of_takeIn {c : Content} (hd : s.disk.WellFormed)
    (hfree : (Places.ofPackage package output).Free s.disk none)
    (hpackage : s.disk.get? (s.disk.spot package) = some (.file c))
    (hwork : s.disk.get? (s.disk.spot (Places.ofPackage package output).workFolder) = none)
    (h : takeIn settings (Places.ofPackage package output) s = (.ok (), s₁)) :
    ∀ m ∈ s.disk.way (Places.ofPackage package output).workFolder,
      s₁.disk.get? m = some .folder ∧
        ¬ s.disk.spot (Places.ofPackage package output).workFolder <+: m := by
  intro m hm
  obtain ⟨hfolder, htaken⟩ := way_of_takeIn hd hfree h hm
  refine ⟨htaken.resolve_right (hd.not_prefix_of_file hpackage hfolder), fun hin => ?_⟩
  rw [hd.none_of_prefix hwork hin] at hfolder
  cases hfolder

theorem opening_steps {id : Text}
    (h : opening crew settings now package s = (.ok (project, id), s₁)) :
    ∃ t₁ t₂ t₃, takeIn settings (Places.ofPackage package settings.outputFolder) s = (.ok (), t₁) ∧
      crew.unpack (Places.ofPackage package settings.outputFolder).archive
        (Places.ofPackage package settings.outputFolder).workFolder t₁ = (.ok (), t₂) ∧
      findProject (Places.ofPackage package settings.outputFolder) t₂ = (.ok project, t₃) ∧
      writeSongList now project t₃ = (.ok id, s₁) := by
  obtain ⟨_, t₁, htake, h⟩ := Work.bind_eq_ok_iff.mp h
  obtain ⟨_, t₂, hunpack, h⟩ := Work.bind_eq_ok_iff.mp h
  obtain ⟨found, t₃, hfind, h⟩ := Work.bind_eq_ok_iff.mp h
  obtain ⟨written, t₄, hwrite, h⟩ := Work.bind_eq_ok_iff.mp h
  obtain ⟨hfound, rfl⟩ := Work.pure_eq_ok_iff.mp h
  obtain ⟨rfl, rfl⟩ := Prod.mk.inj hfound
  exact ⟨t₁, t₂, t₃, htake, hunpack, hfind, hwrite⟩

variable {s' : Stage σ}

/-- How things stand when a run has only to clean up. The archive has the content of the package,
and so has the package if it is to be kept; the ways to what is deleted are open. -/
structure Gathered (settings : Settings) (places : Places) (c : Content) (d d' : Disk) : Prop where
  steady : Steady d d'
  way : ∀ m ∈ d.way places.workFolder,
    d'.get? m = some .folder ∧ ¬ d.spot places.workFolder <+: m
  archive : d'.get? (d.spot places.archive) = some (.file c)
  package : settings.keepPackage = true → d'.get? (d.spot places.package) = some (.file c)
  deletable : settings.keepPackage = false → Deletable d' places

/-- Then cleaning up leaves nothing but the package, if that is to be kept. -/
theorem Gathered.gone {d d₁ d' : Disk} {c : Content} (hd : d.WellFormed)
    (hfree : (Places.ofPackage package output).Free d none)
    (hapart :
      ([(Places.ofPackage package output).package, (Places.ofPackage package output).archive,
      (Places.ofPackage package output).workFolder].map d.spot).Pairwise Apart)
    (h : Gathered settings (Places.ofPackage package output) c d d₁)
    (hclean : cleanUp settings (Places.ofPackage package output) d₁ = (.ok (), d')) :
    d'.get? (d.spot (Places.ofPackage package output).workFolder) = none ∧
      d'.get? (d.spot (Places.ofPackage package output).archive) = none ∧
      d'.get? (d.spot package) = if settings.keepPackage then some (.file c) else none := by
  have hspot : d₁.spot = d.spot := funext h.steady.spot
  have hway : d₁.way = d.way := funext (Disk.way_of_home h.steady.home)
  obtain ⟨hgone, hgoneArchive, hgonePackage⟩ :=
    gone_of_cleanUp (h.steady.wellFormed hd) (fun q hq => h.steady.direct (hfree q hq))
      (by rwa [hspot]) (by rw [hway, hspot]; exact h.way) (by rw [hspot]; exact h.archive)
      h.deletable hclean
  rw [hspot] at hgone hgoneArchive hgonePackage
  refine ⟨hgone, hgoneArchive, hgonePackage.trans ?_⟩
  split
  · next hkeep => exact h.package hkeep
  · rfl

/-- When a run has only to clean up, what was unpacked is in the folders of the song. -/
theorem gathered_of_steps (hc : crew.Faithful) (hd : s.disk.WellFormed) {o : Outcome}
    (hfree : (Places.ofPackage package settings.outputFolder).Free s.disk (some o.songId))
    (hopen : opening crew settings now package s = (.ok (project, o.songId), s₁))
    (hfurnish : furnish crew settings (Places.ofPackage package settings.outputFolder) project
      o.songId s₁ = (.ok (o.jacketSource, o.trackSource), s₂))
    (hgather : gather crew allowed (Places.ofPackage package settings.outputFolder) project
      o.songId s₂ = (.ok o.charts, s₃))
    (hseparate :
      (Places.ofPackage package settings.outputFolder).Separate s.disk o.songId)
    (hwork : s.disk.get? (s.disk.spot (Places.ofPackage package settings.outputFolder).workFolder) =
      none) :
    (∃ c, s.disk.get? (s.disk.spot package) = some (.file c) ∧
      Gathered settings (Places.ofPackage package settings.outputFolder) c s.disk s₃.disk) ∧
      ∃ t₁ t₂, unpack crew settings (Places.ofPackage package settings.outputFolder) s =
          (.ok (), t₁) ∧
        findProject (Places.ofPackage package settings.outputFolder) t₁ = (.ok project, t₂) ∧
        Delivered crew allowed o t₁.disk (s.disk.spot project) s₃.disk
          (s.disk.spot
            ((Places.ofPackage package settings.outputFolder).downloadFolder o.songId))
          (s.disk.spot
            ((Places.ofPackage package settings.outputFolder).contentFolder o.songId)) := by
  obtain ⟨n, hn, hproject, -, -⟩ := opening_eq_ok hc.toContained.steady hd hfree.beside hopen
  have hp : s.disk.Direct project := hproject ▸ hfree.workFolder.join hn
  have hinside : s.disk.spot project =
      s.disk.spot (Places.ofPackage package settings.outputFolder).workFolder ++ [n] := by
    rw [hproject, Disk.spot_join _ _ hn]
  obtain ⟨t₁, t₂, t₃, htake, hunpack, hfind, hwrite⟩ := opening_steps hopen
  have h₁ := frame_takeIn hfree.package hfree.archive settings
  rw [htake] at h₁
  have htaken := h₁.steady (Disk.Act.clean_spots hfree.package hfree.archive)
  have hd₁ := htaken.wellFormed hd
  have hwork₁ := htaken.direct hfree.workFolder
  have h₂ := hc.unpack (Places.ofPackage package settings.outputFolder).archive
    (Places.ofPackage package settings.outputFolder).workFolder t₁ hd₁ hwork₁
  rw [hunpack] at h₂
  have hunpacked := htaken.trans (h₂.steady_within hwork₁.clean (by simp))
  rw [h₁.spot] at h₂
  have hspot₂ : t₂.disk.spot = s.disk.spot := funext hunpacked.spot
  -- To find the project leaves the disk as it is.
  have hdisk := (findProject_eq_ok (hunpacked.direct hfree.workFolder).straight hfind).1
  have hd₂ : t₃.disk.WellFormed := hdisk ▸ hunpacked.wellFormed hd
  have hp₂ : t₃.disk.Direct project := hdisk ▸ hunpacked.direct hp
  have hdown₂ := hdisk.symm ▸ hunpacked.direct hfree.downloadFolder
  have hto₂ := hdisk.symm ▸ hunpacked.direct hfree.contentFolder
  have h₃ := frame_of_steps hc.toContained hd₂ hp₂ hdown₂ hto₂ hwrite hfurnish hgather
  obtain ⟨hdelivered, hfolders⟩ := delivered_of_steps hc hd₂ hp₂ hdown₂ hto₂ hwrite hfurnish hgather
    (by rw [hdisk, hspot₂, hinside]; exact hseparate.work_download.append_left [n])
    (by rw [hdisk, hspot₂, hinside]; exact hseparate.work_content.append_left [n])
    (by rw [hdisk, hspot₂]; exact hseparate.download_content)
  have hgathered := h₃.steady (by simpa using ⟨hp₂.clean, hdown₂.clean, hto₂.clean⟩)
  rw [hdisk] at h₃ hdelivered hfolders hgathered
  rw [hspot₂] at h₃ hdelivered hfolders
  obtain ⟨c, hpackage, harchive, hkept⟩ :=
    taken_of_takeIn hfree.package hfree.archive hseparate.package_archive htake
      (hc.unpacked _ _ _ _ hd₁ hwork₁ hunpack)
  -- The package and the archive have no part in what is done between taking in and cleaning up.
  have hstay : ∀ l e,
      Apart (s.disk.spot (Places.ofPackage package settings.outputFolder).workFolder) l →
      Apart (s.disk.spot ((Places.ofPackage package settings.outputFolder).downloadFolder o.songId))
        l →
      Apart (s.disk.spot ((Places.ofPackage package settings.outputFolder).contentFolder o.songId))
        l →
      t₁.disk.get? l = some e → s₃.disk.get? l = some e := by
    intro l e hwork hdownload hcontent he
    refine h₃.some_of_some ?_ (h₂.some_of_some (by simpa using hwork.1) he)
    simp only [List.forall_mem_cons, List.not_mem_nil, IsEmpty.forall_iff, implies_true, and_true]
    rw [hinside]
    exact ⟨(hwork.append_left [n]).1, hdownload.1, hcontent.1⟩
  refine ⟨⟨c, hpackage, hunpacked.trans hgathered, ?_, ?_, ?_, ?_⟩, t₂, t₃, ?_, hfind, hdelivered⟩
  · intro m hm
    obtain ⟨hfolder, hout⟩ := ways_of_takeIn hd hfree.beside hpackage hwork htake m hm
    refine ⟨hfolders m (h₂.some_of_some (by simpa using hout) hfolder) ?_, hout⟩
    rw [hinside]
    exact fun hin => hout ((List.prefix_append _ _).trans hin)
  · exact hstay _ _ hseparate.archive_work.symm hseparate.archive_download.symm
      hseparate.archive_content.symm harchive
  · exact fun hkeep => hstay _ _ hseparate.package_work.symm hseparate.package_download.symm
      hseparate.package_content.symm (hkept hkeep)
  · intro hkeep
    have hdeletable := deletable_of_takeIn hd hfree.package hfree.archive hpackage htake hkeep
    exact (hdeletable.congr h₂).congr h₃
  · rw [unpack_eq]
    exact Work.bind_eq_ok_iff.mpr ⟨_, t₁, htake, hunpack⟩

open Rehearsal (Script homeWith sound_homeWith)

end ChartPackage.Conversion
