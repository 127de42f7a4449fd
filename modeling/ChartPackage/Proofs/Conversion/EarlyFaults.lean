import Mathlib
import ChartPackage.Proofs.Conversion.Steps

/-!
Failures before anything is published. The disk and the prompter aside, each kind of fault belongs
to one stretch of a run; most kinds belong to the stretch that works in the places next to the
package only, so a run that ends with one of these has not touched the folders of the song.
-/

namespace ChartPackage

/-- The faults of reading the package and of making pictures and audio of it. -/
def Fault.isEarly : Fault → Bool
  | .noProject _ | .noDescriptor _ | .emptySongId _ | .missingKey _ | .archive _ | .image _
  | .transcoding .. | .preview _ | .noAudio _ => true
  | _ => false

namespace Job

variable {σ α β : Type} {P : Fault → Prop}

/-- Work that fails, if it fails, with a fault of some sort. -/
def Faults (job : Job σ α) (P : Fault → Prop) : Prop := ∀ s s' f, job s = (.error f, s') → P f

theorem faults_pure (a : α) : (pure a : Job σ α).Faults P := fun _ _ _ h => by cases h

theorem faults_throw {f : Fault} (h : P f) : (throw f : Job σ α).Faults P := by
  intro s s' e he
  cases he
  exact h

theorem Faults.bind {x : Job σ α} {f : α → Job σ β} (hx : x.Faults P) (hf : ∀ a, (f a).Faults P) :
    (x >>= f).Faults P := by
  intro s s' e h
  cases Work.bind_eq_error_iff.mp h with
  | inl hfirst => exact hx s s' e hfirst
  | inr hrest =>
      obtain ⟨a, s₁, -, hrest⟩ := hrest
      exact hf a s₁ s' e hrest

theorem faults_onDisk (act : Disk.Act α) (hP : ∀ cause, P (.disk cause)) :
    (onDisk act : Job σ α).Faults P := by
  intro s s' f h
  rw [onDisk] at h
  cases hact : act s.disk with
  | mk result d =>
      rw [hact] at h
      cases result with
      | ok a => cases h
      | error cause =>
          cases h
          exact hP cause

theorem faults_look (f : Disk → α) : (look f : Job σ α).Faults P := fun _ _ _ h => by cases h

theorem faults_ask {chore : Chore σ α} (h : ∀ state f, (chore state).1 = .error f → P f) :
    (ask chore).Faults P := by
  intro s s' f hask
  exact h s.crew f (congrArg Prod.fst hask)

theorem faults_adapt {x : Job σ α} {g : Fault → Fault} (h : x.Faults fun f => P (g f)) :
    Faults (x.adapt g) P := by
  intro s s' f hadapt
  have hx : ((x s).1.mapError g, (x s).2) = (.error f, s') := hadapt
  cases hresult : (x s).1 with
  | ok a =>
      rw [hresult] at hx
      cases hx
  | error e =>
      rw [hresult] at hx
      cases hx
      exact h s _ e (Prod.ext hresult rfl)

theorem faults_forM {f : α → Job σ PUnit} {xs : List α} (h : ∀ a ∈ xs, (f a).Faults P) :
    (xs.forM f).Faults P := by
  induction xs with
  | nil => exact faults_pure _
  | cons a xs ih =>
      exact Faults.bind (h a List.mem_cons_self) fun _ => ih fun b hb =>
        h b (List.mem_cons_of_mem a hb)

theorem faults_mapM {f : α → Job σ β} {xs : List α} (h : ∀ a ∈ xs, (f a).Faults P) :
    (xs.mapM f).Faults P := by
  induction xs with
  | nil => exact faults_pure _
  | cons a xs ih =>
      rw [List.mapM_cons]
      exact Faults.bind (h a List.mem_cons_self) fun _ =>
        Faults.bind (ih fun b hb => h b (List.mem_cons_of_mem a hb)) fun _ => faults_pure _

end Job
namespace Conversion

open Disk (Frame Apart)

variable {σ : Type} {crew : Crew σ} {settings : Settings} {places : Places} {s s' : Stage σ}
  {project package : Path} {f : Fault}

/-! ### Which stretch a fault belongs to -/

/-- A fault of the later stretches. -/
def Late (f : Fault) : Prop := f.isEarly = false

theorem late_onDisk (act : Disk.Act α) : (Job.onDisk act : Job σ α).Faults Late :=
  Job.faults_onDisk act fun _ => rfl

theorem late_tell (crew : Crew σ) (message : Text) : (crew.tell message).Faults Late :=
  Job.faults_ask fun _ _ h => by cases h

theorem late_renameChart (crew : Crew σ) (project : Path) (chart name : Text) :
    (renameChart crew project chart name).Faults Late := by
  refine (Job.faults_look _).bind fun reason => ?_
  cases reason with
  | some reason => exact Job.faults_throw rfl
  | none =>
      refine Job.Faults.bind (Job.faults_adapt (Job.faults_onDisk _ fun _ => rfl)) fun _ => ?_
      exact (late_tell crew _).bind fun _ => Job.faults_pure _

theorem late_renameCharts (crew : Crew σ) (project : Path) (charts names : List Text) :
    (renameCharts crew project charts names).Faults Late := by
  rw [renameCharts]
  split
  · exact Job.faults_throw rfl
  · refine Job.Faults.bind (Job.faults_mapM fun pair _ => ?_) fun _ => Job.faults_pure _
    exact late_renameChart crew project pair.1 pair.2

theorem late_processCharts (hnames : ∀ charts state f, (crew.prompter.chartNames charts state).1 =
    .error f → Late f)
    (allowed : Whitelists) (project : Path) : (processCharts crew allowed project).Faults Late := by
  refine (late_onDisk _).bind fun charts => ?_
  cases charts with
  | nil => exact Job.faults_throw rfl
  | cons name charts =>
      cases charts with
      | nil => exact late_onDisk _
      | cons other charts =>
          refine (late_tell crew _).bind fun _ =>
            Job.Faults.bind (Job.faults_forM fun pair _ => ?_) fun _ => ?_
          · exact late_tell crew _
          · exact (Job.faults_ask (hnames _)).bind fun names =>
              late_renameCharts crew project _ names

theorem late_gather (hnames : ∀ charts state f, (crew.prompter.chartNames charts state).1 =
    .error f → Late f)
    (allowed : Whitelists) (places : Places) (project : Path) (songId : Text) :
    (gather crew allowed places project songId).Faults Late :=
  (late_processCharts hnames allowed project).bind fun _ => (late_onDisk _).bind fun _ =>
    Job.faults_pure _

/-- A fault that is not late comes from the pictures and the audio, before anything is published. -/
theorem frame_early_furnish (hc : crew.Contained) (hd : s.disk.WellFormed)
    (hp : s.disk.Direct project) {songId : Text}
    (h : furnish crew settings places project songId s = (.error f, s')) (hf : ¬ Late f) :
    Frame [s.disk.spot project] [] s.disk s'.disk := by
  have hjackets : Frame [s.disk.spot project] [] s.disk
      (makeJackets crew settings project s).2.disk :=
    frame_makeJackets hc hd hp
  cases Work.bind_eq_error_iff.mp h with
  | inl herror =>
      rw [herror] at hjackets
      exact hjackets
  | inr h =>
      obtain ⟨_, s₁, hdone, h⟩ := h
      rw [hdone] at hjackets
      have htrack : Frame [s₁.disk.spot project] [] s₁.disk (makeTrack crew project s₁).2.disk :=
        frame_makeTrack hc (hjackets.wellFormed hd) (hjackets.direct_within hp (by simp))
      rw [hjackets.spot] at htrack
      cases Work.bind_eq_error_iff.mp h with
      | inl herror =>
          rw [herror] at htrack
          exact hjackets.trans htrack
      | inr h =>
          obtain ⟨_, s₂, hdone, h⟩ := h
          rw [hdone] at htrack
          have htrack := hjackets.trans htrack
          have hpreview : Frame [s₂.disk.spot project] [] s₂.disk
              (makePreview crew settings project s₂).2.disk :=
            frame_makePreview hc (htrack.wellFormed hd) (htrack.direct_within hp (by simp))
          rw [htrack.spot] at hpreview
          cases Work.bind_eq_error_iff.mp h with
          | inl herror =>
              rw [herror] at hpreview
              exact htrack.trans hpreview
          | inr h =>
              -- From here on only the disk can refuse.
              obtain ⟨_, s₃, -, h⟩ := h
              refine absurd (Job.Faults.bind (late_onDisk _) (fun _ => ?_) _ _ _ h) hf
              refine (late_onDisk _).bind fun _ => (late_onDisk _).bind fun _ => Job.faults_pure _

/-- The faults of a run that are not late leave all but the places next to the package alone. -/
theorem frame_early_run (hc : crew.Contained) (hd : s.disk.WellFormed)
    (hfree : (Places.ofPackage package settings.outputFolder).Free s.disk none)
    (hnames : ∀ charts state f, (crew.prompter.chartNames charts state).1 = .error f → Late f)
    {allowed : Whitelists} {now : Int64}
    (h : run crew settings allowed now package s = (.error f, s')) (hf : ¬ Late f) :
    Frame ((Places.ofPackage package settings.outputFolder).reach s.disk none)
      [] s.disk s'.disk := by
  have hopening := frame_opening hc hd hfree now
  rw [run_eq] at h
  cases Work.bind_eq_error_iff.mp h with
  | inl herror =>
      rw [herror] at hopening
      exact hopening
  | inr h =>
      obtain ⟨found, s₁, hopen, h⟩ := h
      rw [hopen] at hopening
      obtain ⟨project, id⟩ := found
      obtain ⟨n, hn, rfl, -, -⟩ := opening_eq_ok hc.steady hd hfree.beside hopen
      cases Work.bind_eq_error_iff.mp h with
      | inl hmake =>
          cases Work.bind_eq_error_iff.mp hmake with
          | inl hfurnish =>
              have hp := hopening.direct hfree.clean (hfree.workFolder.join hn)
              have hframe := frame_early_furnish hc (hopening.wellFormed hd) hp hfurnish hf
              rw [Disk.spot_join _ _ hn, hopening.spot] at hframe
              refine hopening.trans (hframe.within (List.prefix_append _ _) ?_ (List.Subset.refl _))
              simp [Places.reach]
          | inr hgather =>
              obtain ⟨sources, s₂, -, hgather⟩ := hgather
              refine absurd (Job.Faults.bind ?_ (fun _ => Job.faults_pure _) _ _ _ hgather) hf
              exact late_gather hnames allowed _ _ _
      | inr hclean =>
          obtain ⟨outcome, s₂, -, hclean⟩ := hclean
          exact absurd
            (Job.Faults.bind (late_onDisk _) (fun _ => Job.faults_pure _) _ _ _ hclean) hf

open Rehearsal (Script Scene)

/-- A package without a descriptor, where a song of the same name was published before, and there
is a link to its preview. -/
def publishedBefore : Stage Scene where
  disk :=
    { entries :=
        [(["w"], .folder), (["w", "dl_song"], .folder),
          (["w", "dl_song", "preview.ogg"], .file (.bytes [7])),
          (["w", "dl_song", "latest.ogg"], .link "preview.ogg"),
          (["w", "song.arcpkg"], .file (.archive [("song/x.aff", .bytes [])]))]
      home := ["w"] }
  crew := { terminal := { input := [], output := [] } }

theorem wellFormed_publishedBefore : publishedBefore.disk.WellFormed :=
  .of_entries (by decide +kernel)

theorem free_publishedBefore :
    (Places.ofPackage "song.arcpkg" none).Free publishedBefore.disk none := by
  simp only [Places.Free, Places.used, List.forall_mem_cons, List.not_mem_nil, IsEmpty.forall_iff,
    implies_true, and_true]
  refine ⟨.of_entries ?_, .of_entries ?_, .of_entries ?_⟩
  all_goals decide +kernel

end Conversion
end ChartPackage
