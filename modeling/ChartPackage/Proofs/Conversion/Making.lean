import Mathlib
import ChartPackage.Proofs.Conversion.Steps

/-!
The steps that make the files of a song in its project folder: the song list, the jackets, the track
and the preview. Each changes the entries that it makes or uses up, and no others.
-/

namespace ChartPackage

namespace Disk

variable {d d' : Disk}

theorem Kept.file {l l' : Location} (h : Kept d l d' l') (hfile : ∃ c, d.get? l = some (.file c)) :
    ∃ c, d'.get? l' = some (.file c) := by
  obtain ⟨c, hc⟩ := hfile
  exact ⟨c, h.at_place hc⟩

end Disk

namespace Conversion

open Disk (Frame Kept)

variable {σ : Type} {crew : Crew σ} {settings : Settings} {project : Path} {s s' : Stage σ}

/-- The entries that the jackets are made of and into. -/
def jacketNames : Option Text → List Text
  | none => []
  | some source => [jacketName, thumbnailName, source]

/-- The entries that the track is made of and into. -/
def trackNames : Option Text → List Text
  | none => []
  | some source => [trackName, source]

/-- A picture that the crew may find not to be square, or not to be readable. -/
def MayPass (crew : Crew σ) (project : Path) (d : Disk) (n : Text) : Prop :=
  ∃ c, ∀ side, (crew.measure (project.join n) d c).1 ≠ some (side, side)

/-- A picture that the crew may find to be square. -/
def MayServe (crew : Crew σ) (project : Path) (d : Disk) (n : Text) : Prop :=
  ∃ c side, (crew.measure (project.join n) d c).1 = some (side, side)

/-- The first picture is passed over, or the jackets are made of it. -/
theorem makeJacketsFrom_cons_eq_ok {n : Text} {names : List Text} {source : Option Text}
    (h : makeJacketsFrom crew settings project (n :: names) s = (.ok source, s')) :
    ∃ s₁, s₁.disk = s.disk ∧
      (MayPass crew project s.disk n ∧ makeJacketsFrom crew settings project names s₁ =
        (.ok source, s') ∨
        MayServe crew project s.disk n ∧ source = some n ∧
          makeJacketsOf crew settings project n s₁ = (.ok (), s')) := by
  rw [makeJacketsFrom] at h
  obtain ⟨size, s₁, hmeasure, h⟩ := Work.bind_eq_ok_iff.mp h
  obtain ⟨hsize, hstage⟩ := Prod.mk.inj hmeasure
  refine ⟨s₁, hstage ▸ rfl, ?_⟩
  cases size with
  | none =>
      refine Or.inl ⟨⟨s.crew, ?_⟩, h⟩
      simp [Except.ok.inj hsize]
  | some size =>
      obtain ⟨width, height⟩ := size
      dsimp only at h
      by_cases hsquare : width = height
      · rw [if_pos hsquare] at h
        obtain ⟨_, s₂, hmake, h⟩ := Work.bind_eq_ok_iff.mp h
        obtain ⟨rfl, rfl⟩ := Work.pure_eq_ok_iff.mp h
        refine Or.inr ⟨⟨s.crew, height, ?_⟩, rfl, hmake⟩
        rw [Except.ok.inj hsize, hsquare]
      · rw [if_neg hsquare] at h
        refine Or.inl ⟨⟨s.crew, ?_⟩, h⟩
        intro side heq
        rw [Except.ok.inj hsize] at heq
        cases heq
        exact hsquare rfl

/-- The jackets are made of the first picture that is not passed over; if there is none, nothing
changes. -/
theorem makeJacketsFrom_eq_ok {names : List Text} {source : Option Text}
    (h : makeJacketsFrom crew settings project names s = (.ok source, s')) :
    (source = none ∧ s'.disk = s.disk ∧ ∀ k ∈ names, MayPass crew project s.disk k) ∨
      ∃ before n after, names = before ++ n :: after ∧
        (∀ k ∈ before, MayPass crew project s.disk k) ∧
        MayServe crew project s.disk n ∧ source = some n ∧
        ∃ s₁, s₁.disk = s.disk ∧ makeJacketsOf crew settings project n s₁ = (.ok (), s') := by
  induction names generalizing s with
  | nil =>
      obtain ⟨rfl, rfl⟩ := Work.pure_eq_ok_iff.mp h
      exact Or.inl ⟨rfl, rfl, by simp⟩
  | cons n names ih =>
      obtain ⟨s₁, hdisk, ⟨hpass, hrest⟩ | ⟨hserve, hsource, hmake⟩⟩ := makeJacketsFrom_cons_eq_ok h
      · rw [← hdisk] at hpass ⊢
        rcases ih hrest with ⟨hsource, hsame, hall⟩ | ⟨before, k, after, rfl, hbefore, hmade⟩
        · exact Or.inl ⟨hsource, hsame, List.forall_mem_cons.mpr ⟨hpass, hall⟩⟩
        · exact Or.inr
            ⟨n :: before, k, after, rfl, List.forall_mem_cons.mpr ⟨hpass, hbefore⟩, hmade⟩
      · exact Or.inr ⟨[], n, names, rfl, by simp, hserve, hsource, s₁, hdisk, hmake⟩

/-- The picture that the jackets are made of goes, unless it is a file for the download folder. -/
theorem spent_eq_ok {n : Text} {p : Path}
    (h : (unless downloadNames.contains n do Job.onDisk (Disk.Act.delete p) : Job σ Unit) s =
      (.ok (), s')) :
    n ∈ downloadNames ∧ s' = s ∨ n ∉ downloadNames ∧
      Disk.Act.delete p s.disk = (.ok (), s'.disk) := by
  by_cases hdownload : n ∈ downloadNames
  · rw [if_pos (List.contains_iff_mem.mpr hdownload)] at h
    exact Or.inl ⟨hdownload, (Work.pure_eq_ok_iff.mp h).2.symm⟩
  · rw [if_neg (mt List.contains_iff_mem.mp hdownload)] at h
    exact Or.inr ⟨hdownload, Job.of_onDisk h⟩

theorem makeJacketsOf_eq_ok (hc : crew.Faithful) (hd : s.disk.WellFormed)
    (hp : s.disk.Direct project) {n : Text} (hn : Path.Plain n)
    (h : makeJacketsOf crew settings project n s = (.ok (), s')) :
    Frame ((jacketNames (some n)).map (s.disk.spot project ++ [·])) [] s.disk s'.disk ∧
      ∀ k ∈ [jacketName, thumbnailName], ∃ c, s'.disk.get? (s.disk.spot project ++ [k]) =
        some (.file c) := by
  obtain ⟨_, s₁, hlarge, h⟩ := Work.bind_eq_ok_iff.mp h
  obtain ⟨_, s₂, hsmall, h⟩ := Work.bind_eq_ok_iff.mp h
  obtain ⟨hframe₁, hfile₁⟩ :=
    Job.made plain_jacketName (hc.resize _ _ _ _) (hc.resized _ _ _ _) hd hp hlarge
  have hp₁ := hframe₁.direct_within hp (by simp)
  obtain ⟨hframe₂, hfile₂⟩ := Job.made plain_thumbnailName (hc.resize _ _ _ _)
    (hc.resized _ _ _ _) (hframe₁.wellFormed hd) hp₁ hsmall
  have hp₂ := hframe₂.direct_within hp₁ (by simp)
  rw [hframe₁.spot] at hframe₂ hfile₂
  have hend : Frame [s.disk.spot project ++ [n]] [] s₂.disk s'.disk ∧
      ∀ k ∈ downloadNames,
        Kept s₂.disk (s.disk.spot project ++ [k]) s'.disk (s.disk.spot project ++ [k]) := by
    rcases spent_eq_ok h with ⟨-, rfl⟩ | ⟨hdownload, hdeleted⟩
    · exact ⟨.refl _ _ _, fun k _ => (Frame.refl [] [] s'.disk).kept (by simp)⟩
    · have hdelete := Disk.Act.frame_delete (hp₂.join hn).way
      rw [hdeleted, Disk.spot_join _ _ hn, hframe₂.spot, hframe₁.spot] at hdelete
      refine ⟨hdelete, fun k hk => hdelete.kept_beside ?_⟩
      intro heq
      exact hdownload (heq ▸ hk)
  obtain ⟨hframe₃, hkept⟩ := hend
  have hjacket := (hframe₂.kept_beside (n := jacketName) (by decide)).file hfile₁
  constructor
  · exact (hframe₁.among (by simp [jacketNames])).trans
      ((hframe₂.among (by simp [jacketNames])).trans (hframe₃.among (by simp [jacketNames])))
  · rw [List.forall_mem_cons, List.forall_mem_singleton]
    exact ⟨(hkept jacketName (by decide)).file hjacket,
      (hkept thumbnailName (by decide)).file hfile₂⟩

theorem makeJackets_eq_ok (hc : crew.Faithful) (hd : s.disk.WellFormed)
    (hp : s.disk.Direct project) {source : Option Text}
    (h : makeJackets crew settings project s = (.ok source, s')) :
    Frame ((jacketNames source).map (s.disk.spot project ++ [·])) [] s.disk s'.disk ∧
      ∀ n, source = some n → Disk.Act.Matches pictureExtensions n ∧
        ∀ k ∈ [jacketName, thumbnailName],
        ∃ c, s'.disk.get? (s.disk.spot project ++ [k]) = some (.file c) := by
  obtain ⟨names, s₁, hnames, h⟩ := Work.bind_eq_ok_iff.mp h
  obtain ⟨hdisk, hnames⟩ := Disk.Act.filesWithExtension_eq_ok hp.straight (Job.of_onDisk hnames)
  cases makeJacketsFrom_eq_ok h with
  | inl hnone =>
      obtain ⟨rfl, hsame, -⟩ := hnone
      rw [hsame, ← hdisk]
      refine ⟨.refl _ _ _, ?_⟩
      intro n hn
      cases hn
  | inr hmade =>
      obtain ⟨before, n, after, rfl, -, -, rfl, s₂, hsame, hmade⟩ := hmade
      obtain ⟨hmem, hmatch⟩ := hnames n (by simp)
      have hd₂ : s₂.disk.WellFormed := by rwa [hsame, ← hdisk]
      have hp₂ : s₂.disk.Direct project := by rwa [hsame, ← hdisk]
      obtain ⟨hframe, hfiles⟩ :=
        makeJacketsOf_eq_ok hc hd₂ hp₂ (hd.proper_of_mem_names hmem).toPlain hmade
      rw [hsame, ← hdisk] at hframe hfiles
      refine ⟨hframe, ?_⟩
      intro k hk
      obtain rfl := Option.some.inj hk
      exact ⟨hmatch, hfiles⟩

theorem makeTrack_eq_ok (hc : crew.Faithful) (hd : s.disk.WellFormed)
    (hp : s.disk.Direct project) {source : Option Text}
    (h : makeTrack crew project s = (.ok source, s')) :
    Frame ((trackNames source).map (s.disk.spot project ++ [·])) [] s.disk s'.disk ∧
      ∀ n, source = some n → Disk.Act.Matches audioExtensions n ∧ n ≠ trackName := by
  obtain ⟨names, s₁, hnames, h⟩ := Work.bind_eq_ok_iff.mp h
  obtain ⟨hdisk, hnames⟩ := Disk.Act.filesWithExtension_eq_ok hp.straight (Job.of_onDisk hnames)
  cases hfind : names.find? (· ≠ trackName) with
  | none =>
      rw [hfind] at h
      obtain ⟨rfl, rfl⟩ := Work.pure_eq_ok_iff.mp h
      rw [hdisk]
      refine ⟨.refl _ _ _, ?_⟩
      intro n hn
      cases hn
  | some n =>
      rw [hfind] at h
      obtain ⟨hmem, hmatch⟩ := hnames n (List.mem_of_find?_eq_some hfind)
      have hn := (hd.proper_of_mem_names hmem).toPlain
      obtain ⟨_, s₂, htranscode, h⟩ := Work.bind_eq_ok_iff.mp h
      obtain ⟨_, s₃, hdelete, h⟩ := Work.bind_eq_ok_iff.mp h
      obtain ⟨rfl, rfl⟩ := Work.pure_eq_ok_iff.mp h
      obtain ⟨hframe₁, -⟩ := Job.made plain_trackName (hc.transcode _ _) (hc.transcoded _ _)
        (hdisk ▸ hd) (hdisk ▸ hp) (Work.adapt_eq_ok_iff.mp htranscode)
      have hp₂ := hframe₁.direct_within (hdisk ▸ hp) (by simp)
      have hframe₂ := Disk.Act.frame_delete (hp₂.join hn).way
      rw [Job.of_onDisk hdelete, Disk.spot_join _ _ hn, hframe₁.spot] at hframe₂
      rw [← hdisk] at hframe₁ hframe₂
      constructor
      · exact (hframe₁.among (by simp [trackNames])).trans (hframe₂.among (by simp [trackNames]))
      · intro k hk
        obtain rfl := Option.some.inj hk
        exact ⟨hmatch, by simpa using List.find?_some hfind⟩

theorem makePreview_eq_ok (hc : crew.Faithful) (hd : s.disk.WellFormed)
    (hp : s.disk.Direct project)
    (h : makePreview crew settings project s = (.ok (), s')) :
    (∃ c, s.disk.get? (s.disk.spot project ++ [trackName]) = some (.file c)) ∧
      Frame [s.disk.spot project ++ [previewName]] [] s.disk s'.disk ∧
      ∃ c, s'.disk.get? (s.disk.spot project ++ [previewName]) = some (.file c) := by
  obtain ⟨found, s₁, hlook, h⟩ := Work.bind_eq_ok_iff.mp h
  obtain ⟨hfound, rfl⟩ := Job.look_eq_ok_iff.mp hlook
  dsimp only at h
  by_cases htrack : found = true
  · rw [if_pos htrack] at h
    obtain ⟨start, s₂, hask, h⟩ := Work.bind_eq_ok_iff.mp h
    have hdisk : s₂.disk = s.disk := by
      rw [← Job.disk_ask crew.prompter.previewStart s, hask]
    obtain ⟨hframe, hfile⟩ := Job.made plain_previewName (hc.clip _ _ _) (hc.clipped _ _ _)
      (hdisk.symm ▸ hd) (hdisk.symm ▸ hp) (Work.adapt_eq_ok_iff.mp h)
    rw [hdisk] at hframe hfile
    rw [htrack] at hfound
    obtain ⟨c, hc⟩ := Disk.isFile_iff.mp hfound
    have htrackFile := Disk.get?_of_entry (hp.join plain_trackName).straight hc
    rw [Disk.spot_join _ _ plain_trackName] at htrackFile
    exact ⟨⟨c, htrackFile⟩, hframe, hfile⟩
  · rw [if_neg htrack] at h
    cases h

/-- What the files of a song are made of and into; all else stays. -/
structure Made (project : Location) (jacketSource trackSource : Option Text) (d d' : Disk) :
    Prop where
  frame : Frame ((previewName :: (jacketNames jacketSource ++ trackNames trackSource)).map
    (project ++ [·])) []
    d d'
  preview : ∃ c, d'.get? (project ++ [previewName]) = some (.file c)
  track : ∃ c, d'.get? (project ++ [trackName]) = some (.file c)
  jackets : jacketSource ≠ none → ∀ k ∈ [jacketName, thumbnailName],
    ∃ c, d'.get? (project ++ [k]) = some (.file c)
  picture : ∀ n, jacketSource = some n → Disk.Act.Matches pictureExtensions n
  audio : ∀ n, trackSource = some n → Disk.Act.Matches audioExtensions n

/-- What is neither picture nor audio and made by nobody stays. -/
theorem Made.kept {place : Location} {d d' : Disk} {jacketSource trackSource : Option Text}
    (h : Made place jacketSource trackSource d d') {n : Text}
    (hn : n ∉ [previewName, jacketName, thumbnailName, trackName])
    (hpicture : ¬ Disk.Act.Matches pictureExtensions n)
    (haudio : ¬ Disk.Act.Matches audioExtensions n) :
    Kept d (place ++ [n]) d' (place ++ [n]) := by
  simp only [List.mem_cons, List.not_mem_nil, or_false, not_or] at hn
  refine h.frame.kept_entry ?_
  rw [List.mem_cons, List.mem_append, not_or, not_or]
  refine ⟨hn.1, ?_, ?_⟩
  · cases jacketSource with
    | none => exact List.not_mem_nil
    | some source =>
        have hsource : n ≠ source := fun heq => hpicture (heq ▸ h.picture source rfl)
        simp [jacketNames, hn.2.1, hn.2.2.1, hsource]
  · cases trackSource with
    | none => exact List.not_mem_nil
    | some source =>
        have hsource : n ≠ source := fun heq => haudio (heq ▸ h.audio source rfl)
        simp [trackNames, hn.2.2.2, hsource]

theorem made_of_steps (hc : crew.Faithful) (hd : s.disk.WellFormed)
    (hp : s.disk.Direct project) {jacketSource trackSource : Option Text}
    {s₁ s₂ : Stage σ}
    (hjackets : makeJackets crew settings project s = (.ok jacketSource, s₁))
    (htrack : makeTrack crew project s₁ = (.ok trackSource, s₂))
    (hpreview : makePreview crew settings project s₂ = (.ok (), s')) :
    Made (s.disk.spot project) jacketSource trackSource s.disk s'.disk := by
  obtain ⟨h₁, hjacketFiles⟩ := makeJackets_eq_ok hc hd hp hjackets
  have hd₁ := h₁.wellFormed hd
  have hp₁ := h₁.direct_of_entries hp
  obtain ⟨h₂, hsource⟩ := makeTrack_eq_ok hc hd₁ hp₁ htrack
  obtain ⟨htrackFile, h₃, hpreviewFile⟩ :=
    makePreview_eq_ok hc (h₂.wellFormed hd₁) (h₂.direct_of_entries hp₁) hpreview
  rw [h₁.spot] at h₂
  rw [h₂.spot, h₁.spot] at htrackFile h₃ hpreviewFile
  refine ⟨?_, hpreviewFile, (h₃.kept_beside (by decide)).file htrackFile, ?_, fun n hn =>
    (hjacketFiles n hn).1,
    fun n hn => (hsource n hn).1⟩
  · refine (h₁.mono_names ?_).trans ((h₂.mono_names ?_).trans (h₃.among List.mem_cons_self))
    · exact fun k hk => List.mem_cons_of_mem _ (List.mem_append_left _ hk)
    · exact fun k hk => List.mem_cons_of_mem _ (List.mem_append_right _ hk)
  · intro hsome k hk
    obtain ⟨n, rfl⟩ := Option.ne_none_iff_exists'.mp hsome
    -- The track is made of a file with another extension than the jackets have.
    have hother : k ∉ trackNames trackSource := by
      have hpicture : k ≠ trackName ∧ ¬ Disk.Act.Matches audioExtensions k := by
        simp only [List.mem_cons, List.not_mem_nil, or_false] at hk
        cases hk with
        | inl hk => rw [hk]; decide
        | inr hk => rw [hk]; decide
      cases trackSource with
      | none => exact List.not_mem_nil
      | some source =>
          intro hmem
          simp only [trackNames, List.mem_cons, List.not_mem_nil, or_false] at hmem
          cases hmem with
          | inl htrack => exact hpicture.1 htrack
          | inr heq => exact hpicture.2 (heq ▸ (hsource source rfl).1)
    have hpreviewOther : previewName ≠ k := by
      simp only [List.mem_cons, List.not_mem_nil, or_false] at hk
      cases hk with
      | inl hk => rw [hk]; decide
      | inr hk => rw [hk]; decide
    exact (h₃.kept_beside hpreviewOther).file
      ((h₂.kept_entry hother).file ((hjacketFiles n rfl).2 k hk))

end Conversion
end ChartPackage
