import Mathlib
import ChartPackage.Proofs.Conversion.Crew
import ChartPackage.Proofs.Disk.Endings
import ChartPackage.Tools.Unpack

/-!
Unpacking stays in its folder: the names of a member are plain, and so all that is made for it lies
at or below the place where the folder is, whatever the archive says.
-/

namespace ChartPackage

namespace MemberName

theorem foldlM_property {α β : Type} {P : β → Prop} {f : β → α → Option β} {xs : List α}
    (hf : ∀ a ∈ xs, ∀ b b', P b → f b a = some b' → P b') {b b' : β} (hb : P b)
    (h : xs.foldlM f b = some b') : P b' := by
  induction xs generalizing b with
  | nil =>
      obtain rfl := Option.some.inj h
      exact hb
  | cons a xs ih =>
      rw [List.foldlM_cons] at h
      obtain ⟨b₁, hb₁, h⟩ := Option.bind_eq_some_iff.mp h
      rw [List.forall_mem_cons] at hf
      exact ih hf.2 (hf.1 b b₁ hb hb₁) h

theorem plain_of_names? {t : Text} {names : List Text} (h : names? t = some names) :
    ∀ n ∈ names, Path.Plain n := by
  rw [names?] at h
  split at h
  · cases h
  · refine foldlM_property (P := fun names => ∀ n ∈ names, Path.Plain n) ?_ (by simp) h
    intro s hs before after hbefore hstep
    split at hstep
    · obtain rfl := Option.some.inj hstep
      exact hbefore
    · next hidle =>
        split at hstep
        · split at hstep
          · cases hstep
          · obtain rfl := Option.some.inj hstep
            exact fun n hn => hbefore n (List.mem_of_mem_dropLast hn)
        · next hdots =>
            obtain rfl := Option.some.inj hstep
            have hplain : Path.Plain s :=
              { ne_nil := fun hnil => hidle (by rw [hnil]; decide)
                ne_dot := fun hdot => hidle (by rw [hdot]; decide)
                ne_dots := hdots
                no_slash := fun hslash => Text.not_of_mem_splitOnP hs '/' hslash (by decide) }
            simpa [or_imp, forall_and, hplain] using hbefore

end MemberName

namespace Disk

variable {d d' : Disk} {place : Location} {names : List Text} {p : Path}

/-- A path that leads to a place at or below another, through places above it only. -/
structure Below (d : Disk) (place : Location) (p : Path) : Prop where
  spot : place <+: d.spot p
  way : ∀ m ∈ d.way p, m <+: d.spot p

theorem Below.join (h : d.Below place p) {name : Text} (hname : Path.Plain name) :
    d.Below place (p.join name) where
  spot := by
    rw [spot_join _ _ hname]
    exact h.spot.trans (List.prefix_append _ _)
  way m hm := by
    rw [spot_join _ _ hname]
    cases (mem_way_join hname).mp hm with
    | inl hway => exact (h.way m hway).trans (List.prefix_append _ _)
    | inr heq => exact heq ▸ List.prefix_append _ _

theorem Below.congr (h : d.Below place p) {roots made : List Location}
    (h' : Frame roots made d d') :
    d'.Below place p := by
  constructor
  · rw [h'.spot]
    exact h.spot
  · rw [h'.spot, h'.way]
    exact h.way

theorem foldl_enter_plain (h : ∀ n ∈ names, Path.Plain n) (place : Location) :
    names.foldl enter place = place ++ names := by
  induction names generalizing place with
  | nil => simp
  | cons n names ih =>
      rw [List.forall_mem_cons] at h
      rw [List.foldl_cons, enter_of_plain h.1, ih h.2, List.append_assoc, List.singleton_append]

theorem prefix_of_mem_trail (h : ∀ n ∈ names, Path.Plain n) {m : Location}
    (hm : m ∈ trail place names) : m <+: place ++ names := by
  induction names generalizing place with
  | nil => cases hm
  | cons n names ih =>
      rw [List.forall_mem_cons] at h
      rw [trail, List.mem_cons] at hm
      cases hm with
      | inl heq => exact heq ▸ List.prefix_append _ _
      | inr hm =>
          rw [enter_of_plain h.1] at hm
          have hin := ih h.2 hm
          rwa [List.append_assoc, List.singleton_append] at hin

theorem segments_ofNames (hne : names ≠ []) (h : ∀ n ∈ names, Path.Plain n) :
    Path.segments (Path.ofNames names) = [] :: names := by
  rw [Path.segments, Path.ofNames]
  refine (List.splitOn_append_cons_self [] _).trans (congrArg ([] :: ·) ?_)
  exact List.splitOn_intercalate '/' (fun l hl => (h l hl).no_slash) hne

theorem start_ofNames (d : Disk) (names : List Text) : d.start (Path.ofNames names) = [] :=
  if_pos rfl

theorem spot_ofNames (d : Disk) (h : ∀ n ∈ place, Path.Plain n) :
    d.spot (Path.ofNames place) = place := by
  by_cases hne : place = []
  · rw [hne]
    rfl
  · rw [spot, start_ofNames, segments_ofNames hne h, List.foldl_cons, enter_of_idle rfl,
      foldl_enter_plain h]
    rfl

/-- The absolute path of a place leads straight to it. -/
theorem below_ofNames (d : Disk) (h : ∀ n ∈ place, Path.Plain n) :
    d.Below place (Path.ofNames place) := by
  refine ⟨(spot_ofNames d h).symm ▸ List.prefix_refl _, fun m hm => ?_⟩
  rw [spot_ofNames d h]
  by_cases hne : place = []
  · rw [hne] at hm
    obtain rfl : m = [] := by simpa using show m ∈ [[], []] from hm
    exact List.nil_prefix
  · rw [way, start_ofNames, segments_ofNames hne h, trail, enter_of_idle rfl, List.mem_cons] at hm
    cases hm with
    | inl hnil => exact hnil ▸ List.nil_prefix
    | inr hm => exact prefix_of_mem_trail h hm

/-- A change within a folder, which stays a folder. -/
structure Filling (place : Location) (d d' : Disk) : Prop where
  frame : Frame [place] [] d d'
  folder : d.get? place = some .folder → d'.get? place = some .folder

namespace Filling

theorem refl (place : Location) (d : Disk) : Filling place d d := ⟨.refl _ _ _, id⟩

theorem trans {d'' : Disk} (h : Filling place d d') (h' : Filling place d' d'') :
    Filling place d d'' :=
  ⟨h.frame.trans h'.frame, fun hd => h'.folder (h.folder hd)⟩

end Filling

/-- A folder of a well-formed disk with no links below it. -/
structure Ground (place : Location) (d : Disk) : Prop where
  formed : d.WellFormed
  folder : d.get? place = some .folder
  clean : d.Clean place

theorem Filling.ground (h : Filling place d d') (hd : d.Ground place) : d'.Ground place where
  formed := h.frame.wellFormed hd.formed
  folder := h.folder hd.folder
  clean := by
    have hclean := h.frame.clean (by simpa using hd.clean)
    simpa using hclean

/-- No link lies on the way to a place below such a folder. -/
theorem Below.direct (hp : d.Below place p) (hd : d.Ground place) : d.Direct p where
  way m hm := by
    cases List.prefix_or_prefix_of_prefix (hp.way m hm) hp.spot with
    | inl habove =>
        intro t
        rw [hd.formed.folder_of_prefix hd.folder habove]
        simp
    | inr hbelow => exact hd.clean.noLink_below hbelow
  clean := hd.clean.below hp.spot

theorem filling_write (hd : d.Ground place) (hp : d.Below place p) {c : Content}
    (h : write p c d = .ok d') : Filling place d d' := by
  have hs := (hp.direct hd).straight
  refine ⟨(frame_write hs h).1.within hp.spot List.mem_cons_self (List.Subset.refl _), ?_⟩
  intro hplace
  obtain ⟨l, hl, hfolder, rfl⟩ := write_eq_ok_iff.mp h
  have hne : place ≠ l := by
    intro heq
    exact hfolder (heq ▸ hplace)
  by_cases hroot : l = []
  · rw [hroot, get?_root] at hfolder
    exact absurd rfl hfolder
  · rw [get?_put hroot, if_neg hne, hplace]

/-- Folders on the way to a place below a folder are made below the folder only. -/
theorem filling_ensureFolders (hd : d.Ground place) (hp : d.Below place p) :
    Filling place d (Act.ensureFolders p d).2 := by
  have hframe := Act.frame_ensureFolders (hp.direct hd).way
  refine ⟨(hframe.mono (by simp) (List.Subset.refl _)).drop_made ?_, fun h => ?_⟩
  · intro m hm
    obtain ⟨q, hq, rfl⟩ := List.mem_map.mp hm
    have hin : d.spot q <+: d.spot p := by
      cases (ancestors_lead d hq).1 with
      | inl heq => rw [heq]
      | inr hway => exact hp.way _ hway
    cases List.prefix_or_prefix_of_prefix hin hp.spot with
    | inl habove =>
        rw [hd.formed.folder_of_prefix hd.folder habove]
        exact Or.inr (Option.some_ne_none _)
    | inr hbelow => exact Or.inl ⟨place, List.mem_cons_self, hbelow⟩
  · exact hframe.some_of_some (by simp) h

end Disk

namespace Unpack

open Disk (Frame Below Filling)

variable {d : Disk} {place : Location} {p : Path} {names : List Text}

theorem refuseLink_cases (p : Path) (d : Disk) :
    refuseLink p d = (.ok (), d) ∨ ∃ e, refuseLink p d = (.error e, d) := by
  rw [refuseLink]
  split
  · exact Or.inr ⟨_, rfl⟩
  · exact Or.inl rfl

theorem makeWay_stays (hd : d.Ground place) (hp : d.Below place p) :
    Filling place d (makeWay p d).2 := by
  rw [makeWay, Work.bind_apply, Disk.Act.look]
  dsimp only
  cases d.entry p with
  | ok _ => exact .refl _ _
  | error e =>
      cases e with
      | notFound => exact Disk.filling_ensureFolders hd hp
      | _ => exact .refl _ _

/-- The way to a member stays below the folder. -/
theorem openWay_stays (hd : d.Ground place) (hp : d.Below place p)
    (hnames : ∀ n ∈ names, Path.Plain n) :
    Filling place d (openWay p names d).2 ∧
      ∀ q d', openWay p names d = (.ok q, d') → d'.Below place q := by
  induction names generalizing d p with
  | nil =>
      refine ⟨.refl _ _, ?_⟩
      intro q d' h
      obtain ⟨rfl, rfl⟩ := Work.pure_eq_ok_iff.mp h
      exact hp
  | cons n names ih =>
      rw [List.forall_mem_cons] at hnames
      have hway := hp.join hnames.1
      rw [openWay, Work.bind_apply]
      rcases refuseLink_cases (p.join n) d with h | ⟨e, h⟩
      · rw [h]
        dsimp only
        split
        · exact ih hd hway hnames.2
        · rw [Work.bind_apply, onDisk, Work.adapt_apply]
          have hfill := makeWay_stays hd hway
          cases hmake : makeWay (p.join n) d with
          | mk result d₁ =>
              rw [hmake] at hfill
              cases result with
              | error e => exact ⟨hfill, fun _ _ hopen => by cases hopen⟩
              | ok _ =>
                  obtain ⟨hrest, hlead⟩ := ih (hfill.ground hd) (hway.congr hfill.frame) hnames.2
                  exact ⟨hfill.trans hrest, hlead⟩
      · rw [h]
        exact ⟨.refl _ _, fun _ _ hopen => by cases hopen⟩

/-- A member that is no link is written below the folder, or not at all. -/
theorem member_stays (hd : d.Ground place) (hp : d.Below place p) (name : Text) {stored : Stored}
    (hstored : stored.isLink = false) :
    Filling place d (member p name stored d).2 := by
  rw [member]
  cases hnames : MemberName.names? name with
  | none => exact .refl _ _
  | some names =>
      obtain ⟨hway, hlead⟩ := openWay_stays hd hp (MemberName.plain_of_names? hnames)
      dsimp only
      rw [Work.bind_apply]
      split
      · next q d₁ hopen =>
          rw [hopen] at hway
          have hq := hlead q d₁ hopen
          have hd₁ := hway.ground hd
          refine hway.trans ?_
          cases stored with
          | link t => cases hstored
          | file content =>
              dsimp only
              split
              · exact Disk.filling_ensureFolders hd₁ hq
              · rw [onDisk, Work.snd_adapt, Disk.Act.change]
                split
                · next hwrite => exact Disk.filling_write hd₁ hq hwrite
                · exact .refl _ _
      · next e d₁ hopen =>
          rw [hopen] at hway
          exact hway

variable {σ : Type}

theorem forM_stays {s : Stage σ} (hd : s.disk.Ground place) {members : List (Text × Stored)}
    (hmembers : ∀ m ∈ members, m.2.isLink = false) :
    Filling place s.disk (members.forM (m := Job σ) (fun (name, stored) =>
      archive.ofArchive (member (Path.ofNames place) name stored)) s).2.disk := by
  have hplain : ∀ n ∈ place, Path.Plain n :=
    fun n hn => (hd.formed.proper place _ hd.folder n hn).toPlain
  refine Work.forM_within (P := fun s : Stage σ => s.disk.Ground place)
    (R := fun s₁ s₂ : Stage σ => Filling place s₁.disk s₂.disk) (fun _ _ _ => Filling.trans) ?_
    (fun _ => .refl _ _) ?_ hd
  · exact fun _ _ h₁ hfill => hfill.ground h₁
  · intro m hm s₁ h₁
    exact member_stays h₁ (Disk.below_ofNames s₁.disk hplain) m.1 (hmembers m hm)

/-- Unpacking that refuses links changes nothing outside of its folder, but that it makes folders
on the way there. -/
theorem frame_archive {s : Stage σ} (hd : s.disk.WellFormed) (file : Path) {folder : Path}
    (hp : s.disk.Direct folder) :
    Frame [s.disk.spot folder] (folder.ancestors.map s.disk.spot) s.disk
      (archive false file folder s).2.disk := by
  refine Job.frame_bind (.refl _ _ _) fun e s₁ hlook h₁ => ?_
  obtain ⟨-, hdisk⟩ := Disk.Act.look_eq_ok_iff.mp (Job.of_onDisk hlook)
  rw [hdisk] at hd hp
  cases e with
  | folder => exact .refl _ _ _
  | link t => exact .refl _ _ _
  | file content =>
      dsimp only
      cases Archive.members content with
      | error fault => exact .refl _ _ _
      | ok members =>
          dsimp only
          by_cases hlinks : (!false && members.any (·.2.isLink)) = true
          · rw [if_pos hlinks]
            exact .refl _ _ _
          · rw [if_neg hlinks]
            have hmembers : ∀ m ∈ members, m.2.isLink = false := by simpa using hlinks
            refine Job.frame_bind ?_ fun _ s₂ hensure h₂ =>
              Job.frame_bind (.refl _ _ _) fun place s₃ hlocate h₃ => ?_
            · rw [hdisk]
              exact (Disk.Act.frame_ensureFolders hp.way).mono (by simp) (List.Subset.refl _)
            · have hensured := Disk.Act.frame_ensureFolders hp.way
              rw [Job.of_onDisk hensure] at hensured
              have hp₂ := hensured.direct (by simp) hp
              obtain ⟨hplace, heq⟩ := Disk.Act.look_eq_ok_iff.mp (Job.of_onDisk hlocate)
              obtain ⟨husable, -, hspot⟩ :=
                (Disk.locate_eq_ok_iff hp₂.straight).mp hplace
              have hfolder := Disk.Act.folder_of_ensureFolders hp husable.ne_nil
                (Job.of_onDisk hensure)
              have hground : s₃.disk.Ground place := by
                rw [← heq]
                refine ⟨hensured.wellFormed hd, ?_, hspot ▸ hp₂.clean⟩
                rw [hspot, hensured.spot, hfolder]
              rw [h₂.spot, h₁.spot] at hspot
              exact (forM_stays hground hmembers).frame.within (hspot ▸ List.prefix_refl _)
                List.mem_cons_self (List.nil_subset _)

/-- What can be unpacked is a file. -/
theorem isFile_of_archive {links : Bool} {s s' : Stage σ} {file folder : Path}
    (h : archive links file folder s = (.ok (), s')) :
    s.disk.isFile file := by
  obtain ⟨e, s₁, hlook, h⟩ := Work.bind_eq_ok_iff.mp h
  obtain ⟨hentry, -⟩ := Disk.Act.look_eq_ok_iff.mp (Job.of_onDisk hlook)
  cases e with
  | folder => cases h
  | link t => cases h
  | file c => exact Disk.isFile_iff.mpr ⟨c, hentry⟩

end Unpack

end ChartPackage
