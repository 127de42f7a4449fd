import Mathlib
import ChartPackage.Proofs.Disk.Endings
import ChartPackage.Proofs.Disk.Frames
import ChartPackage.Proofs.Song.Id

/-!
The places of a conversion. The package, the archive and the work folder lie in the package's own
folder, and so do the folders of the song unless another folder is asked for. Only a package whose
name is that of a folder of the song gets in the way of it.
-/

namespace ChartPackage

theorem Path.Plain.of_mem {name : Text} {c : Char} (hc : c ∈ name) (hdot : c ≠ '.')
    (hslash : '/' ∉ name) : Plain name where
  ne_nil := List.ne_nil_of_mem hc
  ne_dot h := by
    rw [h] at hc
    exact hdot (by simpa using hc)
  ne_dots h := by
    rw [h] at hc
    exact hdot (by simpa using hc)
  no_slash := hslash

theorem plain_songId {folder : Text} (h : songId folder ≠ []) : Path.Plain (songId folder) := by
  obtain ⟨c, hc⟩ := List.exists_mem_of_ne_nil _ h
  refine .of_mem hc ?_ (not_mem_songId (by decide) folder)
  intro hdot
  rw [hdot] at hc
  exact not_mem_songId (by decide) folder hc

namespace Conversion.Places

/-- The places that a conversion uses for a song, as they are on a disk. -/
def spots (p : Places) (d : Disk) (songId : Text) : List Location :=
  [p.package, p.archive, p.workFolder, p.downloadFolder songId, p.contentFolder songId].map d.spot

/-- The places that a run may change: those next to the package, and the folders of the song once it
has an id. -/
def reach (p : Places) (d : Disk) : Option Text → List Location
  | none => [p.package, p.archive, p.workFolder].map d.spot
  | some songId => p.spots d songId

/-- The paths to the places that a run may change. -/
def used (p : Places) : Option Text → List Path
  | none => [p.package, p.archive, p.workFolder]
  | some songId =>
    [p.package, p.archive, p.workFolder, p.downloadFolder songId, p.contentFolder songId]

theorem reach_eq (p : Places) (d : Disk) (songId? : Option Text) :
    p.reach d songId? = (p.used songId?).map d.spot := by
  cases songId? with
  | none => rfl
  | some songId => rfl

/-- No link lies on the way to a place that a run may change, there or below. -/
def Free (p : Places) (d : Disk) (songId? : Option Text) : Prop :=
  ∀ q ∈ p.used songId?, d.Direct q

/-- The folders of a song and all the folders above them. -/
def approach (p : Places) (d : Disk) : Option Text → List Location
  | none => []
  | some songId =>
    ((p.downloadFolder songId).ancestors ++ (p.contentFolder songId).ancestors).map d.spot

/-- None of the places lies at or below another. -/
structure Separate (p : Places) (d : Disk) (songId : Text) : Prop where
  package_archive : Disk.Apart (d.spot p.package) (d.spot p.archive)
  package_work : Disk.Apart (d.spot p.package) (d.spot p.workFolder)
  package_download : Disk.Apart (d.spot p.package) (d.spot (p.downloadFolder songId))
  package_content : Disk.Apart (d.spot p.package) (d.spot (p.contentFolder songId))
  archive_work : Disk.Apart (d.spot p.archive) (d.spot p.workFolder)
  archive_download : Disk.Apart (d.spot p.archive) (d.spot (p.downloadFolder songId))
  archive_content : Disk.Apart (d.spot p.archive) (d.spot (p.contentFolder songId))
  work_download : Disk.Apart (d.spot p.workFolder) (d.spot (p.downloadFolder songId))
  work_content : Disk.Apart (d.spot p.workFolder) (d.spot (p.contentFolder songId))
  download_content : Disk.Apart (d.spot (p.downloadFolder songId)) (d.spot (p.contentFolder songId))

section

variable {p : Places} {d : Disk} {songId? : Option Text}

theorem mem_used {q : Path} (hq : q ∈ p.used none) : q ∈ p.used songId? := by
  cases songId? with
  | none => exact hq
  | some songId => exact List.mem_append_left [p.downloadFolder songId, p.contentFolder songId] hq

theorem Free.package (h : p.Free d songId?) : d.Direct p.package :=
  h _ (mem_used List.mem_cons_self)

theorem Free.archive (h : p.Free d songId?) : d.Direct p.archive :=
  h _ (mem_used (List.mem_cons_of_mem _ List.mem_cons_self))

theorem Free.workFolder (h : p.Free d songId?) : d.Direct p.workFolder :=
  h _ (mem_used (List.mem_cons_of_mem _ (List.mem_cons_of_mem _ List.mem_cons_self)))

theorem Free.beside (h : p.Free d songId?) : p.Free d none := fun q hq => h q (mem_used hq)

theorem Free.downloadFolder {songId : Text} (h : p.Free d (some songId)) :
    d.Direct (p.downloadFolder songId) := h _ (by simp [used])

theorem Free.contentFolder {songId : Text} (h : p.Free d (some songId)) :
    d.Direct (p.contentFolder songId) := h _ (by simp [used])

theorem Free.clean (h : p.Free d songId?) : ∀ root ∈ p.reach d songId?, d.Clean root := by
  rw [reach_eq]
  intro root hroot
  obtain ⟨q, hq, rfl⟩ := List.mem_map.mp hroot
  exact (h q hq).clean

theorem free_of_sound (hd : d.Sound) : p.Free d songId? := fun q _ => hd.direct q

end

theorem pairwise_beside_iff {p : Places} {d : Disk} :
    ([p.package, p.archive, p.workFolder].map d.spot).Pairwise Disk.Apart ↔
      Disk.Apart (d.spot p.package) (d.spot p.archive) ∧
        Disk.Apart (d.spot p.package) (d.spot p.workFolder) ∧
        Disk.Apart (d.spot p.archive) (d.spot p.workFolder) := by
  simp [and_assoc]

theorem separate_of_pairwise {p : Places} {d : Disk} {songId : Text}
    (h : (p.spots d songId).Pairwise Disk.Apart) : p.Separate d songId := by
  simp only [spots, List.map_cons, List.map_nil, List.pairwise_cons, List.mem_cons,
    List.not_mem_nil,
    or_false, forall_eq_or_imp, forall_eq, List.Pairwise.nil, and_true] at h
  obtain ⟨⟨hpa, hpw, hpd, hpc⟩, ⟨haw, had, hac⟩, ⟨hwd, hwc⟩, hdc, -⟩ := h
  exact ⟨hpa, hpw, hpd, hpc, haw, had, hac, hwd, hwc, hdc⟩

theorem stem_cases (name : Text) : stem name = name ∨ name = stem name ++ packageExtension := by
  rw [stem]
  split
  · exact Or.inl rfl
  · exact Or.inl rfl
  · next h => exact Or.inr (Text.dropTail?_eq_some_iff.mp h)

theorem no_slash_stem {name : Text} (h : '/' ∉ name) : '/' ∉ stem name := by
  cases stem_cases name with
  | inl heq => rwa [heq]
  | inr heq =>
      intro hstem
      rw [heq] at h
      exact h (List.mem_append_left _ hstem)

theorem no_slash_fileName (package : Path) : '/' ∉ package.fileName?.getD [] := by
  cases h : package.fileName? with
  | none => simp
  | some name =>
      obtain ⟨-, -, -, -, hplain, -⟩ := Path.segments_of_fileName? h
      exact hplain.no_slash

variable (package : Path) (output : Option Path)

theorem plain_archiveName : Path.Plain (stem (package.fileName?.getD []) ++ ".zip".toList) := by
  refine .of_mem (c := 'z') (List.mem_append_right _ (by decide)) (by decide) ?_
  rw [List.mem_append, not_or]
  exact ⟨no_slash_stem (no_slash_fileName package), by decide⟩

theorem plain_workName : Path.Plain ("extracted_".toList ++ stem (package.fileName?.getD [])) := by
  refine .of_mem (c := 'e') (List.mem_append_left _ (by decide)) (by decide) ?_
  rw [List.mem_append, not_or]
  exact ⟨by decide, no_slash_stem (no_slash_fileName package)⟩

theorem plain_downloadName (folder : Text) : Path.Plain ("dl_".toList ++ songId folder) := by
  refine .of_mem (c := 'd') (List.mem_append_left _ (by decide)) (by decide) ?_
  rw [List.mem_append, not_or]
  exact ⟨by decide, not_mem_songId (by decide) folder⟩

theorem spot_archive (d : Disk) : d.spot (ofPackage package output).archive =
    d.spot (folderOf package) ++ [stem (package.fileName?.getD []) ++ ".zip".toList] :=
  Disk.spot_join d _ (plain_archiveName package)

theorem spot_workFolder (d : Disk) : d.spot (ofPackage package output).workFolder =
    d.spot (folderOf package) ++ ["extracted_".toList ++ stem (package.fileName?.getD [])] :=
  Disk.spot_join d _ (plain_workName package)

variable {package output} in
theorem mem_way_archive {d : Disk} {m : Location} :
    m ∈ d.way (ofPackage package output).archive ↔
      m ∈ d.way (ofPackage package output).workFolder :=
  (Disk.mem_way_join (plain_archiveName package)).trans
    (Disk.mem_way_join (plain_workName package)).symm

variable {package output} in
/-- The archive lies next to the package. -/
theorem mem_way_package {d : Disk} {file : Text} (hfile : package.fileName? = some file)
    {m : Location}
    (hm : m ∈ d.way package) :
      m ∈ d.way (ofPackage package output).archive ∨ m = d.spot package := by
  rw [ofPackage, Disk.mem_way_join (plain_archiveName package), or_assoc]
  exact Disk.mem_way_folderOf hfile hm

theorem spot_downloadFolder (p : Places) (d : Disk) (folder : Text) :
    d.spot (p.downloadFolder (songId folder)) = d.spot p.outputFolder ++
      ["dl_".toList ++ songId folder] :=
  Disk.spot_join d _ (plain_downloadName folder)

theorem spot_contentFolder (p : Places) (d : Disk) {folder : Text} (h : songId folder ≠ []) :
    d.spot (p.contentFolder (songId folder)) = d.spot p.outputFolder ++ [songId folder] :=
  Disk.spot_join d _ (plain_songId h)

/-- The names of the places next to a package. -/
def names (file songId : Text) : List Text :=
  [file, stem file ++ ".zip".toList, "extracted_".toList ++ stem file, "dl_".toList ++
    songId, songId]

theorem spots_eq_names (d : Disk) {file folder : Text} (hfile : package.fileName? = some file)
    (hid : songId folder ≠ []) :
    (ofPackage package none).spots d (songId folder) =
      (names file (songId folder)).map (d.spot (folderOf package) ++ [·]) := by
  have hpackage : d.spot package = d.spot (folderOf package) ++ [file] :=
    Disk.spot_eq_folderOf d hfile
  have houtput : (ofPackage package none).outputFolder = folderOf package := rfl
  have harchive := spot_archive package none d
  have hwork := spot_workFolder package none d
  have hdownload := spot_downloadFolder (ofPackage package none) d folder
  have hcontent := spot_contentFolder (ofPackage package none) d hid
  rw [hfile, Option.getD_some] at harchive hwork
  rw [houtput] at hdownload hcontent
  simp only [spots, names, List.map_cons, List.map_nil, harchive, hwork, hdownload, hcontent]
  rw [← hpackage]
  rfl

theorem length_file (file : Text) :
    file.length = (stem file).length ∨ file.length = (stem file).length + 7 := by
  cases stem_cases file with
  | inl h => exact Or.inl (congrArg List.length h.symm)
  | inr h =>
      right
      conv_lhs => rw [h, List.length_append]
      rfl

/-- The package, the archive and the work folder have different names. -/
theorem names_beside (file : Text) :
    [file, stem file ++ ".zip".toList, "extracted_".toList ++ stem file].Nodup := by
  have hlengths := length_file file
  have hzip : (stem file ++ ".zip".toList).length = (stem file).length + 4 := List.length_append
  have hextracted : ("extracted_".toList ++ stem file).length = 10 + (stem file).length :=
    List.length_append
  have hfileArchive : file ≠ stem file ++ ".zip".toList := ne_of_apply_ne List.length (by omega)
  have hfileWork : file ≠ "extracted_".toList ++ stem file := ne_of_apply_ne List.length (by omega)
  have harchiveWork : stem file ++ ".zip".toList ≠ "extracted_".toList ++ stem file :=
    ne_of_apply_ne List.length (by omega)
  simp only [List.nodup_cons, List.mem_cons, List.not_mem_nil, or_false, not_or, List.nodup_nil,
    and_true, not_false_eq_true]
  exact ⟨⟨hfileArchive, hfileWork⟩, harchiveWork⟩

/-- The names differ but for a package with the name of a folder of the song. -/
theorem nodup_names_iff {file folder : Text} :
    (names file (songId folder)).Nodup ↔
      file ≠ "dl_".toList ++ songId folder ∧ file ≠ songId folder := by
  have hbeside := names_beside file
  have harchiveDownload : stem file ++ ".zip".toList ≠ "dl_".toList ++ songId folder := by
    intro h
    have hdot : '.' ∈ "dl_".toList ++ songId folder := h ▸ List.mem_append_right _ (by decide)
    cases List.mem_append.mp hdot with
    | inl hdot => exact absurd hdot (by decide)
    | inr hdot => exact not_mem_songId (by decide) folder hdot
  have harchiveContent : stem file ++ ".zip".toList ≠ songId folder := by
    intro h
    exact not_mem_songId (c := '.') (by decide) folder (h ▸ List.mem_append_right _ (by decide))
  have hworkDownload : "extracted_".toList ++ stem file ≠ "dl_".toList ++ songId folder := by
    intro h
    exact absurd (List.cons.inj h).1 (by decide)
  have hworkContent : "extracted_".toList ++ stem file ≠ songId folder := by
    intro h
    exact not_mem_songId (c := '_') (by decide) folder (h ▸ List.mem_append_left _ (by decide))
  have hdownloadContent : "dl_".toList ++ songId folder ≠ songId folder := by
    intro h
    exact not_mem_songId (c := '_') (by decide) folder (h ▸ List.mem_append_left _ (by decide))
  simp only [names, List.nodup_cons, List.mem_cons, List.not_mem_nil, or_false, not_or,
    List.nodup_nil,
    and_true, not_false_eq_true] at hbeside ⊢
  constructor
  · intro h
    exact h.1.2.2
  · intro h
    exact ⟨⟨hbeside.1.1, hbeside.1.2, h⟩, ⟨hbeside.2, harchiveDownload, harchiveContent⟩,
      ⟨hworkDownload, hworkContent⟩, hdownloadContent⟩

/-- The places next to a package differ, and then none of them lies in another, but for a package
with the name of a folder of the song. -/
theorem nodup_spots_iff (d : Disk) {file folder : Text} (hfile : package.fileName? = some file)
    (hid : songId folder ≠ []) :
    ((ofPackage package none).spots d (songId folder)).Nodup ↔
      file ≠ "dl_".toList ++ songId folder ∧ file ≠ songId folder := by
  have hinjective : Function.Injective (d.spot (folderOf package) ++ [·]) := by
    intro n k h
    exact List.singleton_inj.mp (List.append_cancel_left h)
  rw [spots_eq_names package d hfile hid, List.nodup_map_iff hinjective, nodup_names_iff]

theorem apart_spots (d : Disk) {file folder : Text} (hfile : package.fileName? = some file)
    (hid : songId folder ≠ []) (h : ((ofPackage package none).spots d (songId folder)).Nodup) :
    ((ofPackage package none).spots d (songId folder)).Pairwise Disk.Apart := by
  rw [spots_eq_names package d hfile hid] at h ⊢
  rw [List.pairwise_map]
  refine (List.Nodup.of_map _ h).imp ?_
  intro n k hne
  exact Disk.Apart.of_ne hne

/-- The package, the archive and the work folder never lie in each other. -/
theorem apart_beside (d : Disk) {file : Text} (hfile : package.fileName? = some file) :
    ([(ofPackage package output).package, (ofPackage package output).archive,
      (ofPackage package output).workFolder].map d.spot).Pairwise Disk.Apart := by
  have hpackage : d.spot package = d.spot (folderOf package) ++ [file] :=
    Disk.spot_eq_folderOf d hfile
  have harchive := spot_archive package output d
  have hwork := spot_workFolder package output d
  rw [hfile, Option.getD_some] at harchive hwork
  have hspots : [(ofPackage package output).package, (ofPackage package output).archive,
      (ofPackage package output).workFolder].map d.spot =
      [file, stem file ++ ".zip".toList, "extracted_".toList ++ stem file].map
        (d.spot (folderOf package) ++ [·]) := by
    simp only [List.map_cons, List.map_nil, harchive, hwork]
    rw [← hpackage]
    rfl
  rw [hspots, List.pairwise_map]
  refine (names_beside file).imp ?_
  intro n k hne
  exact Disk.Apart.of_ne hne

end Conversion.Places
end ChartPackage
