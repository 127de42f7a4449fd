import Mathlib
import ChartPackage.Proofs.Disk.Litter
import ChartPackage.Proofs.Tools.Unpacking

/-!
Unpacking into a folder that is not empty. What an archive puts anew it puts over what lies there
before; so if there are only entries that it puts too, folders where it puts folders and files where
it puts files, then unpacking ends as it does where there is nothing, and leaves the same.
-/

namespace ChartPackage

namespace Disk

variable {d d' : Disk} {p : Path}

/-- Where a folder or a file lies. -/
def Solid (d : Disk) (m : Location) : Prop := d.get? m ≠ none ∧ d.NoLink m

theorem Grows.solid (h : Grows d d') {m : Location} (hm : d.Solid m) : d'.Solid m := by
  obtain ⟨e, he⟩ := Option.ne_none_iff_exists'.mp hm.1
  obtain ⟨e', he', hkind⟩ := h.kept m e he
  refine ⟨by simp [he'], fun t ht => ?_⟩
  obtain rfl := Option.some.inj (he'.symm.trans ht)
  cases e with
  | folder => cases hkind
  | file c => cases hkind
  | link t' => exact hm.2 t' he

theorem solid_of_folder {m : Location} (h : d.get? m = some .folder) : d.Solid m := by
  refine ⟨by simp [h], fun t ht => ?_⟩
  rw [h] at ht
  cases ht

theorem settled_of_solid {root : Location} (h : ∀ m ∈ d.way p, d.Solid m) :
    ∀ m ∈ d.way p, Settled root d m := fun m hm => Or.inr (h m hm).1

/-- A path that leads to a folder or a file, and through such places only. -/
structure Reached (d : Disk) (p : Path) : Prop where
  way : ∀ m ∈ d.way p, d.Solid m
  spot : d.Solid (d.spot p)

namespace Reached

variable {n : Text}

theorem grow (h : d.Reached p) (hgrows : Grows d d') : d'.Reached p where
  way m hm := hgrows.solid (h.way m (hgrows.way p ▸ hm))
  spot := by
    rw [hgrows.spot]
    exact hgrows.solid h.spot

theorem straight (h : d.Reached p) : d.Straight p :=
  straight_of_noLink (fun m hm => (h.way m hm).2) h.spot.2

theorem of_ensureFolders (hp : p ≠ []) (hway : ∀ m ∈ d.way p, d.Solid m) (hs : d.Straight p)
    (h : Act.ensureFolders p d = (.ok (), d')) : d'.Reached p := by
  have hthere : ∀ m ∈ d.way p, d.get? m ≠ none := fun m hm => (hway m hm).1
  have hlays : Act.Lays [] (Act.ensureFolders p) d := Act.lays_ensureFolders hthere hs
  have hgrows := hlays.grows
  rw [h] at hgrows
  constructor
  · exact fun m hm => hgrows.solid (hway m (hgrows.way p ▸ hm))
  · rw [hgrows.spot]
    exact solid_of_folder (Act.folder_of_straight hp hthere hs h)

theorem way_join (h : d.Reached p) (hn : Path.Plain n) :
    ∀ m ∈ d.way (p.join n), d.Solid m := by
  intro m hm
  cases (mem_way_join hn).mp hm with
  | inl hway => exact h.way m hway
  | inr hspot => exact hspot ▸ h.spot

theorem of_folder (hd : d.Sound) {l : Location} (hl : d.get? l = some .folder) :
    d.Reached (Path.ofNames l) := by
  have hplain : ∀ n ∈ l, Path.Plain n := fun n hn => (hd.proper l _ hl n hn).toPlain
  constructor
  · intro m hm
    have hin := (below_ofNames d hplain).way m hm
    rw [spot_ofNames d hplain] at hin
    exact solid_of_folder (hd.folder_of_prefix hl hin)
  · rw [spot_ofNames d hplain]
    exact solid_of_folder hl

end Reached

end Disk

namespace Unpack

open Disk (Littered Reached Settled Grows Solid settled_of_solid)
open Disk.Act (Lays)

variable {root : Location} {d d' : Disk} {p : Path} {n : Text} {names : List Text}

/-- Work of an unpacking that goes the same way over litter. -/
abbrev Lays {α : Type} (root : Location) (act : Act α) (d : Disk) : Prop :=
  Disk.Lays root (fun d => d) (fun _ _ => True) act d

section

variable {way : Path}

theorem makeWay_of_entry {e : Item} (h : d.entry way = .ok e) : makeWay way d = (.ok (), d) := by
  rw [makeWay, Work.bind_apply, Disk.Act.look, h]
  rfl

theorem makeWay_of_notFound (h : d.entry way = .error .notFound) :
    makeWay way d = Disk.Act.ensureFolders way d := by
  rw [makeWay, Work.bind_apply, Disk.Act.look, h]

theorem makeWay_of_error {e : DiskFault} (h : d.entry way = .error e) (he : e ≠ .notFound) :
    makeWay way d = (.error e, d) := by
  rw [makeWay, Work.bind_apply, Disk.Act.look, h]
  cases e with
  | notFound => exact absurd rfl he
  | _ => rfl

/-- A folder that is there may as well be made. -/
theorem makeWay_eq_ensureFolders (hne : way ≠ []) (hway : ∀ m ∈ d.way way, d.get? m ≠ none)
    (hs : d.Straight way) (h : d.entry way = .ok .folder ∨ d.entry way = .error .notFound) :
    makeWay way d = Disk.Act.ensureFolders way d := by
  cases h with
  | inl hfolder =>
      obtain ⟨l, hl, he⟩ := Disk.entry_eq_ok_iff.mp hfolder
      rw [makeWay_of_entry hfolder, Disk.Act.ensureFolders_eq hne hway hs,
        Disk.Act.ensureFolder_of_folder hs hl he]
  | inr hmissing => exact makeWay_of_notFound hmissing

/-- With litter or without, there is a folder to go on from. -/
theorem lays_makeWay (hne : way ≠ []) (hway : ∀ m ∈ d.way way, d.Solid m) (hs : d.Straight way) :
    Disk.Act.Lays root (makeWay way) d := by
  have hthere : ∀ m ∈ d.way way, d.get? m ≠ none := fun m hm => (hway m hm).1
  have hsettled : ∀ m ∈ d.way way, Settled root d m := settled_of_solid hway
  have hlocate : ∀ goal d', Littered root goal d d' → d'.locate way = d.locate way :=
    fun goal d' hlitter => (hlitter.tracked hsettled hs).locate
  cases hl : d.locate way with
  | error e =>
      have hfound : e ≠ .notFound := by
        rintro rfl
        obtain ⟨m, hm, hnone⟩ := Disk.missing_of_notFound hs hne hl
        exact hthere m hm hnone
      refine (Disk.lays_throw e).congr (makeWay_of_error (Disk.entry_of_error hl) hfound)
        fun goal d' _ hlitter _ => ?_
      exact makeWay_of_error (Disk.entry_of_error ((hlocate goal d' hlitter).trans hl)) hfound
  | ok l =>
      cases he : d.get? l with
      | some e =>
          have hentry : ∀ d₁ : Disk, d₁.locate way = .ok l → d₁.get? l = some e →
              makeWay way d₁ = (.ok (), d₁) := fun d₁ h₁ he₁ =>
            makeWay_of_entry (Disk.entry_eq_ok_iff.mpr ⟨l, h₁, he₁⟩)
          refine (Disk.lays_pure ()).congr (hentry d hl he) fun goal d' _ hlitter _ => ?_
          exact hentry d' ((hlocate goal d' hlitter).trans hl) (hlitter.same he)
      | none =>
          refine (Disk.Act.lays_ensureFolders hthere hs).congr
            (makeWay_of_notFound (Disk.entry_of_none hl he)) fun goal d' _ hlitter hgoal => ?_
          have hl' : d'.locate way = .ok l := (hlocate goal d' hlitter).trans hl
          refine makeWay_eq_ensureFolders hne
            (fun m hm => hlitter.present (hthere m (hlitter.alike.way way ▸ hm)))
            (hlitter.straight hsettled hs) ?_
          cases he' : d'.get? l with
          | none => exact Or.inr (Disk.entry_of_none hl' he')
          | some e' =>
              -- Litter lies here because a folder is put here.
              rw [Disk.Act.ensureFolders_eq hne hthere hs,
                Disk.Act.ensureFolder_of_none hs hl he] at hgoal
              have hroot : l ≠ [] := by
                rintro rfl
                rw [Disk.get?_root] at he
                cases he
              have hput : (d.put l .folder).get? l = some .folder :=
                (Disk.get?_put hroot _ d l).trans (if_pos rfl)
              obtain rfl := Item.eq_folder (hlitter.kind hgoal he hput he')
              exact Or.inl (Disk.entry_eq_ok_iff.mpr ⟨l, hl', he'⟩)

theorem reached_of_makeWay (hne : way ≠ []) (hway : ∀ m ∈ d.way way, d.Solid m)
    (hs : d.Straight way) (h : makeWay way d = (.ok (), d')) : d'.Reached way := by
  cases hentry : d.entry way with
  | ok e =>
      rw [makeWay_of_entry hentry] at h
      cases h
      obtain ⟨l, hl, he⟩ := Disk.entry_eq_ok_iff.mp hentry
      obtain rfl := Disk.spot_of_locate hs hl
      exact ⟨hway, by simp [he], hs.noLink hl⟩
  | error e =>
      by_cases he : e = .notFound
      · rw [he] at hentry
        rw [makeWay_of_notFound hentry] at h
        exact .of_ensureFolders hne hway hs h
      · rw [makeWay_of_error hentry he] at h
        cases h

/-- A link is refused, and nothing else is. -/
theorem refuseLink_eq_ok_iff : refuseLink way d = (.ok (), d') ↔ d.isLink way = false ∧ d = d' := by
  rw [refuseLink]
  cases d.isLink way with
  | false =>
      rw [if_neg Bool.false_ne_true, and_iff_right rfl]
      exact ⟨fun h => (Prod.mk.inj h).2, congrArg _⟩
  | true =>
      rw [if_pos rfl]
      refine iff_of_false ?_ (by simp)
      intro h
      cases (Prod.mk.inj h).1

theorem lays_refuseLink (hway : ∀ m ∈ d.way way, d.Solid m) : Lays root (refuseLink way) d := by
  have hsettled : ∀ m ∈ d.way way, Settled root d m := settled_of_solid hway
  cases hlink : d.isLink way with
  | true =>
      have hrefuse : ∀ {d₁ : Disk}, d₁.isLink way = true → refuseLink way d₁ =
          (.error (.invalid "Symlink is not inherently safe"), d₁) := by
        intro d₁ h₁
        rw [refuseLink, if_pos h₁]
      refine (Disk.lays_throw _).congr (hrefuse hlink) fun goal d' _ hlitter _ => hrefuse ?_
      rw [hlitter.isLink hsettled fun m hm => (hway m hm).2, hlink]
  | false =>
      refine (Disk.lays_pure ()).congr (refuseLink_eq_ok_iff.mpr ⟨hlink, rfl⟩)
        fun goal d' _ hlitter _ => refuseLink_eq_ok_iff.mpr ⟨?_, rfl⟩
      rw [hlitter.isLink hsettled fun m hm => (hway m hm).2, hlink]

/-- Past the check, a path with a solid way is straight. -/
theorem straight_of_refuseLink (hway : ∀ m ∈ d.way way, d.Solid m)
    (h : refuseLink way d = (.ok (), d')) : d = d' ∧ d.Straight way := by
  obtain ⟨hlink, rfl⟩ := refuseLink_eq_ok_iff.mp h
  exact ⟨rfl, fun m hm => (hway m hm).2, hlink⟩

end

theorem lays_onDisk {α : Type} {act : Disk.Act α} (h : Disk.Act.Lays root act d) :
    Lays root (onDisk act) d := Disk.Lays.adapt h _

theorem openWay_singleton (p : Path) (n : Text) : openWay p [n] = (do
    refuseLink (p.join n)
    return p.join n) := rfl

theorem openWay_cons (p : Path) (n next : Text) (names : List Text) :
    openWay p (n :: next :: names) = (do
      refuseLink (p.join n)
      onDisk (makeWay (p.join n))
      openWay (p.join n) (next :: names)) := rfl

theorem lays_openWay (hp : d.Reached p) (hnames : ∀ n ∈ names, Path.Plain n) :
    Lays root (openWay p names) d := by
  induction names generalizing d p with
  | nil => exact Disk.lays_pure p
  | cons n names ih =>
      rw [List.forall_mem_cons] at hnames
      have hway := hp.way_join hnames.1
      cases names with
      | nil => exact Disk.Lays.bind (lays_refuseLink hway) fun _ d₁ _ => Disk.lays_pure _
      | cons next names =>
          rw [openWay_cons]
          refine Disk.Lays.bind (lays_refuseLink hway) fun _ d₁ hrefuse => ?_
          obtain ⟨rfl, hs⟩ := straight_of_refuseLink hway hrefuse
          have hne : p.join n ≠ [] := Path.join_ne_nil hnames.1
          refine Disk.Lays.bind (lays_onDisk (lays_makeWay hne hway hs)) fun _ d₂ hmake => ?_
          exact ih (reached_of_makeWay hne hway hs (Work.adapt_eq_ok_iff.mp hmake)) hnames.2

/-- When the way is open, it is solid and does not end in a link. -/
theorem way_of_openWay (hp : d.Reached p) (hnames : ∀ n ∈ names, Path.Plain n) {q : Path}
    (h : openWay p names d = (.ok q, d')) : (∀ m ∈ d'.way q, d'.Solid m) ∧ d'.Straight q := by
  induction names generalizing d p with
  | nil =>
      obtain ⟨rfl, rfl⟩ := Work.pure_eq_ok_iff.mp h
      exact ⟨hp.way, hp.straight⟩
  | cons n names ih =>
      rw [List.forall_mem_cons] at hnames
      have hway := hp.way_join hnames.1
      cases names with
      | nil =>
          rw [openWay_singleton] at h
          obtain ⟨_, d₁, hrefuse, h⟩ := Work.bind_eq_ok_iff.mp h
          obtain ⟨rfl, hs⟩ := straight_of_refuseLink hway hrefuse
          obtain ⟨rfl, rfl⟩ := Work.pure_eq_ok_iff.mp h
          exact ⟨hway, hs⟩
      | cons next names =>
          rw [openWay_cons] at h
          obtain ⟨_, d₁, hrefuse, h⟩ := Work.bind_eq_ok_iff.mp h
          obtain ⟨rfl, hs⟩ := straight_of_refuseLink hway hrefuse
          obtain ⟨_, d₂, hmake, h⟩ := Work.bind_eq_ok_iff.mp h
          have hne : p.join n ≠ [] := Path.join_ne_nil hnames.1
          exact ih (reached_of_makeWay hne hway hs (Work.adapt_eq_ok_iff.mp hmake)) hnames.2 h

/-- A member goes the same way over litter. -/
theorem lays_member (hp : d.Reached p) (name : Text) (stored : Stored) :
    Lays root (member p name stored) d := by
  rw [member]
  cases hnames : MemberName.names? name with
  | none => exact Disk.lays_throw _
  | some names =>
      have hplain := MemberName.plain_of_names? hnames
      refine Disk.Lays.bind (lays_openWay hp hplain) fun q d₁ hopen => ?_
      obtain ⟨hway, hs⟩ := way_of_openWay hp hplain hopen
      have hsettled : ∀ m ∈ d₁.way q, Settled root d₁ m := settled_of_solid hway
      cases stored with
      | link target => exact lays_onDisk (Disk.Act.lays_makeLink hsettled hs)
      | file content =>
          dsimp only
          split
          · exact lays_onDisk (Disk.Act.lays_ensureFolders (fun m hm => (hway m hm).1) hs)
          · exact lays_onDisk (Disk.Act.lays_write hsettled hs)

end Unpack

/-! ### Archives -/

section

open Disk (Settled)

variable {σ α : Type} {root : Location} {s : Stage σ}

/-- A job that goes the same way over litter, provided that the crew is in the same state. -/
abbrev Job.Lays (root : Location) (job : Job σ α) (s : Stage σ) : Prop :=
  Disk.Lays root Stage.disk (fun s s' => s'.crew = s.crew) job s

theorem Job.lays_onDisk {act : Disk.Act α} (h : Disk.Act.Lays root act s.disk) :
    Job.Lays root (onDisk act) s := by
  refine ⟨h.grows, fun goal s' hcrew hlitter hgoal => ?_⟩
  obtain ⟨hresult, -, hrest⟩ := h.level goal s'.disk trivial hlitter hgoal
  exact ⟨congrArg (Except.mapError Fault.disk) hresult, hcrew, hrest⟩

theorem Job.lays_ask (chore : Chore σ α) (s : Stage σ) : Job.Lays root (ask chore) s := by
  refine ⟨.refl _, fun goal s' hcrew hlitter _ => ?_⟩
  rw [ask, ask, hcrew]
  exact ⟨rfl, rfl, hlitter⟩

namespace Unpack

theorem lays_ofArchive {act : Act Unit} (h : Lays root act s.disk) :
    Job.Lays root (archive.ofArchive act) s := by
  refine ⟨h.grows, fun goal s' hcrew hlitter hgoal => ?_⟩
  obtain ⟨hresult, -, hrest⟩ := h.level goal s'.disk trivial hlitter hgoal
  exact ⟨congrArg (Except.mapError Fault.archive) hresult, hcrew, hrest⟩

/-- Members are unpacked the same way into a folder with litter, which is made where its way is. -/
theorem lays_members (hd : s.disk.Sound) {folder : Path} (hne : folder ≠ [])
    (hway : ∀ m ∈ s.disk.way folder, s.disk.get? m = some .folder)
    (members : List (Text × Stored)) :
    Job.Lays root (do
      Job.onDisk (Disk.Act.ensureFolders folder)
      let place ← Job.onDisk (.look (·.locate folder))
      members.forM fun (name, stored) =>
        archive.ofArchive (member (Path.ofNames place) name stored)) s := by
  have hthere : ∀ m ∈ s.disk.way folder, s.disk.get? m ≠ none := fun m hm => by
    rw [hway m hm]
    exact Option.some_ne_none _
  have hmake : Job.Lays root (Job.onDisk (Disk.Act.ensureFolders folder)) s :=
    Job.lays_onDisk (Disk.Act.lays_ensureFolders hthere (hd.straight folder))
  refine Disk.Lays.bind hmake fun _ s₁ hensure => ?_
  have hgrows := hmake.grows
  rw [hensure] at hgrows
  have hmade := Job.of_onDisk hensure
  have hd₁ : s₁.disk.Sound := by
    have hframe := Disk.Act.frame_ensureFolders (hd.direct folder).way
    rw [hmade] at hframe
    exact hframe.sound hd
  have hthere₁ : ∀ m ∈ s₁.disk.way folder, s₁.disk.get? m ≠ none := fun m hm =>
    hgrows.present (hthere m (hgrows.way folder ▸ hm))
  refine Disk.Lays.bind (Job.lays_onDisk (Disk.Act.lays_look fun goal d' h => ?_))
    fun l s₂ hlocate => ?_
  · exact (h.tracked (fun m hm => Or.inr (hthere₁ m hm)) (hd₁.straight folder)).locate
  · obtain ⟨hl, hsame⟩ := Disk.Act.look_eq_ok_iff.mp (Job.of_onDisk hlocate)
    have hfolder := Disk.Act.folder_of_ensureFolders (hd.direct folder) hne hmade
    rw [← hgrows.spot, ← Disk.spot_of_locate (hd₁.straight folder) hl] at hfolder
    refine Disk.lays_forM (P := fun d => d.Reached (Path.ofNames l))
      (fun _ _ => Disk.Reached.grow)
      (fun m s₃ h₃ => lays_ofArchive (lays_member h₃ m.1 m.2)) members ?_
    rw [← hsame]
    exact .of_folder hd₁ hfolder

/-- An archive is unpacked the same way over litter, if there is none on the way to the archive. -/
theorem lays_archive (hd : s.disk.Sound) (links : Bool) {file folder : Path}
    (hway : ∀ m ∈ s.disk.way file, Settled root s.disk m)
    (hspot : Settled root s.disk (s.disk.spot file))
    (hbeside : ∀ m ∈ s.disk.way folder, m ∈ s.disk.way file) (hne : folder ≠ []) :
    Job.Lays root (archive links file folder) s := by
  have hs := hd.straight file
  refine Disk.Lays.bind (Job.lays_onDisk (Disk.Act.lays_look fun goal d' h => ?_))
    fun e s₁ hlook => ?_
  · exact h.alike.entry (h.tracked hway hs) fun l hl => Disk.spot_of_locate hs hl ▸ hspot
  · obtain ⟨hentry, hdisk⟩ := Disk.Act.look_eq_ok_iff.mp (Job.of_onDisk hlook)
    obtain ⟨-, hfolders, -⟩ := (Disk.entry_eq_ok_iff_spot hs).mp hentry
    cases e with
    | folder => exact Disk.lays_throw _
    | link t => exact Disk.lays_throw _
    | file c =>
        dsimp only
        cases hmembers : Archive.members c with
        | error fault => exact Disk.lays_throw _
        | ok members =>
            dsimp only
            split
            · exact Disk.lays_throw _
            · rw [hdisk] at hd hfolders hbeside
              exact lays_members hd hne (fun m hm => hfolders m (hbeside m hm)) members

end Unpack

/-- A crew that unpacks archives as they are unpacked here, when it has noted the work or refused
it. -/
def Crew.Unzips (crew : Crew σ) : Prop :=
  ∃ (note : Path → Path → Chore σ Unit) (links : Bool), ∀ archive folder,
    crew.unpack archive folder = (Job.ask (note archive folder) >>= fun _ =>
      Unpack.archive links archive folder)

theorem Crew.Unzips.lays {crew : Crew σ} (hu : crew.Unzips) (hd : s.disk.Sound)
    {file folder : Path} (hway : ∀ m ∈ s.disk.way file, Settled root s.disk m)
    (hspot : Settled root s.disk (s.disk.spot file))
    (hbeside : ∀ m ∈ s.disk.way folder, m ∈ s.disk.way file) (hne : folder ≠ []) :
    Job.Lays root (crew.unpack file folder) s := by
  obtain ⟨note, links, hnote⟩ := hu
  rw [hnote]
  refine Disk.Lays.bind (Job.lays_ask _ s) fun _ s₁ hask => ?_
  have hdisk : s₁.disk = s.disk := by
    rw [← Job.disk_ask (note file folder) s, hask]
  rw [← hdisk] at hd hway hspot hbeside
  exact Unpack.lays_archive hd links hway hspot hbeside hne

end

end ChartPackage
