import Mathlib
import ChartPackage.Proofs.Conversion.Likeness
import ChartPackage.Proofs.Tools.Overwriting
import ChartPackage.Rehearsal.Crew

/-!
The rehearsing crew goes by what lies where: all that it makes of a disk, its pictures and its
audio, follows from what it reads there and from the script.
-/

namespace ChartPackage

open Disk (Same)
open Work (Respects respects_pure respects_throw)

namespace Pictures

variable {σ : Type} {d d' : Disk}

theorem measure_same (h : Same d d') (p : Path) : measure p d' = measure p d := by
  rw [measure, measure, h.read]

theorem respects_put (target : Path) (c : Content) :
    Respects Stage.Same (put target c : Job σ Unit) :=
  (Job.respects_onDisk (Disk.Act.respects_change fun _ _ h => h.write target c)).adapt _

theorem respects_resize (source target : Path) (width height : Nat) :
    Respects Stage.Same (resize source target width height : Job σ Unit) := by
  refine (Job.respects_seeing fun _ _ h => measure_same h source).bind fun size => ?_
  cases size with
  | none => exact respects_throw _
  | some size =>
      dsimp only
      cases target.fileName?.bind PictureFormat.ofName? with
      | none => exact respects_throw _
      | some format =>
          dsimp only
          split
          · exact respects_put target _
          · exact (respects_put target _).bind fun _ => respects_throw _

end Pictures

namespace Rehearsal

variable {d d' : Disk}

theorem findProgram_same (h : Same d d') (program : Text) :
    findProgram d' program = findProgram d program := by
  rw [findProgram, findProgram, h.entry, (h.tracked program).locate]

theorem encode_same (h : Same d d') (arguments : List Text) :
    Same (encode d arguments) (encode d' arguments) := by
  have hcontent : encoded? d' arguments = encoded? d arguments := by
    have hread : d'.read = d.read := funext h.read
    rw [encoded?, encoded?, hread]
  rw [encode, encode, hcontent]
  cases encoded? d arguments with
  | none => exact h
  | some content =>
      cases arguments.getLast? with
      | none => exact h
      | some target =>
          have hwrite := h.write target content
          dsimp only
          generalize d.write target content = x, d'.write target content = x' at hwrite
          cases hwrite with
          | ok hend => exact hend
          | error e => exact h

theorem perform_same (part : Part) (arguments : List Text) (h : Same d d') :
    (perform part arguments d').1 = (perform part arguments d).1 ∧
      Same (perform part arguments d).2 (perform part arguments d').2 := by
  rw [perform, perform]
  split
  · exact ⟨rfl, h⟩
  · refine ⟨rfl, ?_⟩
    dsimp only
    split
    · exact encode_same h arguments
    · exact h

theorem launch_same (place : Location) (parts : List Part) (program : Text) (arguments : List Text)
    {s s' : Stage Calls} (hs : Stage.Same s s') :
    (launch place parts program arguments s').1 = (launch place parts program arguments s).1 ∧
      Stage.Same (launch place parts program arguments s).2
        (launch place parts program arguments s').2 := by
  rw [launch, launch, findProgram_same hs.2]
  cases findProgram s.disk program with
  | error e => exact ⟨rfl, hs⟩
  | ok l =>
      dsimp only
      split
      · exact ⟨rfl, hs⟩
      · split
        · exact ⟨rfl, hs⟩
        · obtain ⟨hreport, hdisk⟩ := perform_same (parts[s.crew.length]?.getD {}) arguments hs.2
          rw [hs.1]
          exact ⟨congrArg Except.ok hreport, rfl, hdisk⟩

end Rehearsal

theorem Encoder.respects_run {σ : Type} {launch : Launcher σ}
    (h : ∀ program arguments s s', Stage.Same s s' →
      (launch program arguments s').1 = (launch program arguments s).1 ∧
        Stage.Same (launch program arguments s).2 (launch program arguments s').2)
    (program : Text) (arguments : List Text) (target : Path) :
    Respects Stage.Same (run launch program arguments target) := by
  intro s s' hs
  rw [run, run]
  dsimp only
  split
  · exact ⟨rfl, hs⟩
  · obtain ⟨hresult, hstage⟩ := h program arguments s s' hs
    generalize launch program arguments s = x, launch program arguments s' = x' at hresult hstage
    obtain ⟨result, s₁⟩ := x
    obtain ⟨result', s₁'⟩ := x'
    obtain rfl : result' = result := hresult
    cases result' with
    | error cause => exact ⟨rfl, hstage⟩
    | ok report =>
        dsimp only
        split
        · exact ⟨rfl, hstage⟩
        · exact ⟨rfl, hstage⟩

namespace Rehearsal.Script

variable (script : Script)

theorem launch_same (program : Text) (arguments : List Text) {s s' : Stage Scene}
    (hs : Stage.Same s s') :
    (script.launch program arguments s').1 = (script.launch program arguments s).1 ∧
      Stage.Same (script.launch program arguments s).2 (script.launch program arguments s').2 := by
  have hinner : Stage.Same (⟨s.disk, s.crew.calls⟩ : Stage Calls) ⟨s'.disk, s'.crew.calls⟩ :=
    ⟨congrArg Scene.calls hs.1, hs.2⟩
  obtain ⟨hresult, hcalls, hdisk⟩ :=
    Rehearsal.launch_same script.program script.parts program arguments hinner
  exact ⟨hresult, congrArg₂ (fun (scene : Scene) calls => { scene with calls }) hs.1 hcalls, hdisk⟩

theorem respects_note (e : Event) : Respects Stage.Same (note e) :=
  fun _ _ hs => ⟨rfl, congrArg (Scene.note e) hs.1, hs.2⟩

theorem respects_act {work : Job Scene Unit} (h : Respects Stage.Same work) (deed : Deed) :
    Respects Stage.Same (deed.act work) := by
  cases deed with
  | perform => exact h
  | pretend => exact respects_pure ()
  | fail f => exact respects_throw f

theorem respects_resizing (source target : Path) (width height : Nat) :
    Respects Stage.Same (script.resizing source target width height) := by
  refine (respects_note _).bind fun _ => Work.respects_get (fun s s' hs => by rw [hs.1]) fun s => ?_
  refine Respects.bind (fun _ _ hs => ⟨rfl, ?_, hs.2⟩) fun _ => ?_
  · exact congrArg (fun scene : Scene => { scene with resizes := s.crew.resizes + 1 }) hs.1
  · cases script.resize with
    | none => exact Pictures.respects_resize source target width height
    | some failure =>
        dsimp only
        split
        · exact respects_throw _
        · exact Pictures.respects_resize source target width height

/-- The rehearsing crew unpacks archives as they are unpacked, or fails as the script says. -/
theorem unzips : script.crew.Unzips := by
  refine ⟨fun archive folder scene =>
    (script.unpack.elim (.ok ()) .error, scene.note (.unpack archive folder)),
      script.links, fun archive folder => ?_⟩
  funext s
  rw [crew]
  dsimp only
  rw [Work.bind_apply, Work.bind_apply, Job.ask]
  cases script.unpack with
  | none => rfl
  | some f => rfl

/-- The rehearsing crew goes by what lies where. -/
theorem blind : script.crew.Blind where
  measure picture d d' h := by
    funext s
    change (Pictures.measure picture d', s.note (.measure picture (Pictures.measure picture d'))) =
      _
    rw [Pictures.measure_same h]
    rfl
  resize := script.respects_resizing
  transcode source target := by
    change Respects Stage.Same (script.transcoding source target)
    rw [transcoding]
    cases script.audio with
    | scripted deed _ =>
        refine (respects_note _).bind fun _ => respects_act (Job.respects_onDisk ?_) deed
        exact Disk.Act.respects_change fun _ _ h => h.copy source target
    | encoder program =>
        exact Encoder.respects_run (fun _ _ _ _ => script.launch_same _ _) program _ target
  clip source target c := by
    change Respects Stage.Same (script.clipping source target c)
    rw [clipping]
    cases script.audio with
    | scripted _ deed =>
        refine (respects_note _).bind fun _ => respects_act (Job.respects_onDisk ?_) deed
        exact Disk.Act.respects_change fun _ _ h => h.write target _
    | encoder program =>
        exact Encoder.respects_run (fun _ _ _ _ => script.launch_same _ _) program _ target

end Rehearsal.Script
end ChartPackage
