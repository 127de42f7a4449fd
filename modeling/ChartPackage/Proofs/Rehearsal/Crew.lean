import Mathlib
import ChartPackage.Proofs.Tools.Unpacking
import ChartPackage.Rehearsal.Crew

/-!
The rehearsing crew keeps to the places it is given, whatever the script says, and does its work
unless the script has it pretend to.
-/

namespace ChartPackage

open Disk (Frame)

namespace Disk

variable {d d' : Disk} {p : Path}

theorem read_of_write (hp : d.Direct p) {c : Content} (h : write p c d = .ok d') :
    d'.read p = .ok c := by
  obtain ⟨hframe, hfile⟩ := frame_write hp.straight h
  obtain ⟨l, hl, hfolder, rfl⟩ := write_eq_ok_iff.mp h
  obtain ⟨husable, hway, rfl⟩ := (locate_eq_ok_iff hp.straight).mp hl
  have hs := (hframe.direct_within hp (by simp)).straight
  refine read_eq_ok_iff.mpr ((entry_eq_ok_iff_spot hs).mpr ⟨husable, ?_, ?_⟩)
  · intro m hm
    rw [hframe.way] at hm
    rw [get?_put]
    · rw [if_neg, hway m hm]
      intro heq
      exact hfolder (heq ▸ hway m hm)
    · intro hroot
      exact hfolder (hroot ▸ get?_root d)
  · rw [hframe.spot]
    exact hfile

theorem isFile_of_write (hp : d.Direct p) {c : Content} (h : write p c d = .ok d') : d'.isFile p :=
  isFile_of_read (read_of_write hp h)

theorem Act.frame_write (hp : d.Direct p) (c : Content) :
    Frame [d.spot p] [] d (change (write p c) d).2 :=
  frame_change fun _ h => (Disk.frame_write hp.straight h).1

theorem Act.frame_copy (source : Path) {target : Path} (hp : d.Direct target) :
    Frame [d.spot target] [] d (change (copy source target) d).2 :=
  frame_change fun _ h => (Disk.frame_copy hp.straight h).1

end Disk

namespace Pictures

variable {σ : Type}

theorem touches_resize (source target : Path) (width height : Nat) :
    (resize source target width height : Job σ Unit).Touches target := by
  intro s _ hp
  refine Job.frame_bind (.refl _ _ _) fun size s₁ _ h₁ => ?_
  have hput : ∀ c, Frame [s.disk.spot target] [] s₁.disk (put target c s₁).2.disk := by
    intro c
    rw [put, Work.snd_adapt, ← h₁.spot]
    exact Disk.Act.frame_write (h₁.direct_within hp (by simp)) c
  cases size with
  | none => exact .refl _ _ _
  | some size =>
      dsimp only
      cases target.fileName?.bind PictureFormat.ofName? with
      | none => exact .refl _ _ _
      | some format =>
          dsimp only
          split
          · exact hput _
          · exact Job.frame_bind (hput _) fun _ _ _ _ => .refl _ _ _

/-- The size of a picture whose name announces the format it has. -/
def sizeOf (p : Path) : Content → Option (Nat × Nat)
  | .picture width height format =>
      if p.fileName?.bind PictureFormat.ofName? = some format then some (width, height) else none
  | _ => none

theorem measure_eq (p : Path) (d : Disk) : measure p d = (d.read p).toOption.bind (sizeOf p) := by
  rw [measure]
  cases d.read p with
  | error e => rfl
  | ok content =>
      cases content with
      | bytes bytes => rfl
      | picture width height format => rfl
      | archive members => rfl

theorem read_of_resize {source target : Path} {width height : Nat} {s s' : Stage σ} {u : Unit}
    (hp : s.disk.Direct target) (h : resize source target width height s = (.ok u, s')) :
    ∃ content, s'.disk.read target = .ok content ∧
      sizeOf target content = some (width, height) := by
  obtain ⟨size, s₁, hlook, h⟩ := Work.bind_eq_ok_iff.mp h
  cases size with
  | none => cases h
  | some size =>
      obtain ⟨-, rfl⟩ := Job.look_eq_ok_iff.mp hlook
      dsimp only at h
      cases hformat : target.fileName?.bind PictureFormat.ofName? with
      | none =>
          rw [hformat] at h
          cases h
      | some format =>
          rw [hformat] at h
          dsimp only at h
          split at h
          · have hwrite := Disk.Act.change_eq_ok_iff.mp (Job.of_onDisk (Work.adapt_eq_ok_iff.mp h))
            refine ⟨_, Disk.read_of_write hp hwrite, ?_⟩
            rw [sizeOf, if_pos hformat]
          · obtain ⟨_, s₂, -, h⟩ := Work.bind_eq_ok_iff.mp h
            cases h

theorem makes_resize (source target : Path) (width height : Nat) :
    (resize source target width height : Job σ Unit).Makes target := by
  intro s s' _ _ hp h
  obtain ⟨content, hread, -⟩ := read_of_resize hp h
  exact Disk.isFile_of_read hread

end Pictures

namespace Rehearsal

/-- A stage on which there are a package and some notes in the home folder. -/
def homeWith (package : Text) (content : Content) : Stage Scene where
  disk :=
    { entries := [(["w", package], .file content), (["w"], .folder),
        (["w", "notes.txt"], .file (.bytes [3]))]
      home := ["w"] }
  crew := { terminal := { input := [], output := [] } }

theorem sound_homeWith {package : Text} (h : Path.Proper package) (content : Content) :
    (homeWith package content).disk.Sound := by
  have hhome : Path.Proper ['w'] := by decide
  have hfolder : (homeWith package content).disk.get? ["w"] = some .folder := by
    simp [homeWith, Disk.get?, List.lookup_cons]
  refine .of_entries ?_
  simp only [homeWith, List.forall_mem_cons, List.not_mem_nil, IsEmpty.forall_iff,
    implies_true, and_true]
  exact ⟨⟨⟨hhome, h⟩, hfolder, by simp [Item.kind]⟩, ⟨hhome, rfl, by simp [Item.kind]⟩,
    ⟨hhome, by decide⟩, hfolder, by simp [Item.kind]⟩

theorem frame_encode {d : Disk} (arguments : List Text) {target : Path} (hp : d.Direct target) :
    Frame [d.spot target] [] d (encode d (arguments ++ [target])) := by
  rw [encode, List.getLast?_concat]
  cases encoded? d (arguments ++ [target]) with
  | none => exact .refl _ _ _
  | some content =>
      dsimp only
      cases hwrite : d.write target content with
      | error e => exact .refl _ _ _
      | ok d' => exact (Disk.frame_write hp.straight hwrite).1

theorem frame_launch (place : Location) (parts : List Part) (program : Text) (arguments : List Text)
    {target : Path} {s : Stage Calls} (hp : s.disk.Direct target) :
    Frame [s.disk.spot target] [] s.disk
      (launch place parts program (arguments ++ [target]) s).2.disk := by
  rw [launch]
  cases findProgram s.disk program with
  | error e => exact .refl _ _ _
  | ok l =>
      dsimp only
      split
      · exact .refl _ _ _
      · split
        · exact .refl _ _ _
        · dsimp only
          rw [perform]
          split
          · exact .refl _ _ _
          · dsimp only
            split
            · exact frame_encode arguments hp
            · exact .refl _ _ _

namespace Script

variable (script : Script)

theorem touches_encoder (program : Text) (arguments : List Text) (target : Path) :
    (Encoder.run script.launch program (arguments ++ [target]) target).Touches target := by
  intro s _ hp
  have hframe := frame_launch script.program script.parts program arguments
    (s := { disk := s.disk, crew := s.crew.calls }) hp
  rw [Encoder.run]
  dsimp only
  split
  · exact .refl _ _ _
  · rw [launch, Encoder.Launcher.within]
    dsimp only
    cases hlaunch : Rehearsal.launch script.program script.parts program (arguments ++ [target])
        { disk := s.disk, crew := s.crew.calls } with
    | mk result s₁ =>
        rw [hlaunch] at hframe
        cases result with
        | error cause => exact hframe
        | ok report =>
            dsimp only
            split
            · exact hframe
            · exact hframe

theorem touches_act {work : Job Scene Unit} {target : Path} (h : work.Touches target)
    (deed : Deed) :
    (deed.act work).Touches target := by
  intro s hd hp
  cases deed with
  | perform => exact h s hd hp
  | pretend => exact .refl _ _ _
  | fail f => exact .refl _ _ _

theorem touches_note {work : Job Scene Unit} {target : Path} (h : work.Touches target) (e : Event) :
    (note e >>= fun _ => work).Touches target := by
  intro s hd hp
  exact Job.frame_bind (.refl _ _ _) fun _ s₁ hnote _ => by
    obtain rfl : { s with crew := s.crew.note e } = s₁ := congrArg Prod.snd hnote
    exact h { s with crew := s.crew.note e } hd hp

theorem touches_resizing (source target : Path) (width height : Nat) :
    (script.resizing source target width height).Touches target := by
  refine touches_note ?_ _
  intro s hd hp
  have hresize := fun s₁ (h : s₁.disk = s.disk) =>
    Pictures.touches_resize source target width height (σ := Scene) s₁ (h ▸ hd) (h ▸ hp)
  refine Job.frame_bind (.refl _ _ _) fun now s₁ hget h₁ =>
    Job.frame_bind (.refl _ _ _) fun _ s₂ hset h₂ => ?_
  have hdisk : s₂.disk = s.disk := by
    cases hget
    cases hset
    rfl
  have hframe := hresize s₂ hdisk
  rw [hdisk] at hframe ⊢
  cases script.resize with
  | none => exact hframe
  | some failure =>
      dsimp only
      split
      · rw [← hdisk]
        exact .refl _ _ _
      · exact hframe

/-- The rehearsing crew keeps to its places, if it makes no links. -/
theorem contained (hlinks : script.links = false) : script.crew.Contained where
  unpack archive folder s hd hp := by
    refine Job.frame_bind (.refl _ _ _) fun _ s₁ hnote h₁ => ?_
    obtain rfl : { s with crew := s.crew.note (.unpack archive folder) } = s₁ :=
      congrArg Prod.snd hnote
    rw [hlinks]
    cases script.unpack with
    | some f => exact .refl _ _ _
    | none =>
        exact Unpack.frame_archive (s := ⟨s.disk, s.crew.note (.unpack archive folder)⟩) hd
          archive hp
  resize := script.touches_resizing
  transcode source target := by
    change (script.transcoding source target).Touches target
    rw [transcoding]
    cases script.audio with
    | scripted deed _ =>
        refine touches_note (touches_act ?_ deed) _
        intro s _ hp
        exact Disk.Act.frame_copy source hp
    | encoder program =>
        exact script.touches_encoder program (Encoder.commonArguments ++
          ["-i".toList, source, "-f".toList, "ogg".toList]) target
  clip source target c := by
    change (script.clipping source target c).Touches target
    rw [clipping]
    cases script.audio with
    | scripted _ deed =>
        refine touches_note (touches_act ?_ deed) _
        intro s _ hp
        exact Disk.Act.frame_write hp _
    | encoder program =>
        exact script.touches_encoder program (Encoder.commonArguments ++
          ["-ss".toList, Numeral.ofNat c.start, "-i".toList, source, "-t".toList,
            Numeral.ofNat c.length,
            "-af".toList, c.filters]) target

theorem makes_act {work : Job Scene Unit} {target : Path} (h : work.Makes target) {deed : Deed}
    (hdeed : deed ≠ .pretend) : (deed.act work).Makes target := by
  cases deed with
  | perform => exact h
  | pretend => exact absurd rfl hdeed
  | fail f =>
      intro s s' _ _ _ hfail
      cases hfail

theorem makes_note {work : Job Scene Unit} {target : Path} (h : work.Makes target) (e : Event) :
    (note e >>= fun _ => work).Makes target := by
  intro s s' a hd hp hwork
  obtain ⟨_, s₁, hnote, hwork⟩ := Work.bind_eq_ok_iff.mp hwork
  obtain rfl : { s with crew := s.crew.note e } = s₁ := congrArg Prod.snd hnote
  exact h { s with crew := s.crew.note e } s' a hd hp hwork

theorem resizing_eq_ok {source target : Path} {width height : Nat} {s s' : Stage Scene} {u : Unit}
    (h : script.resizing source target width height s = (.ok u, s')) :
    ∃ s₁, s₁.disk = s.disk ∧ Pictures.resize source target width height s₁ = (.ok u, s') := by
  obtain ⟨_, s₁, hnote, h⟩ := Work.bind_eq_ok_iff.mp h
  obtain ⟨now, s₂, hget, h⟩ := Work.bind_eq_ok_iff.mp h
  obtain ⟨_, s₃, hset, h⟩ := Work.bind_eq_ok_iff.mp h
  have hdisk : s₃.disk = s.disk := by
    cases hnote
    cases hget
    cases hset
    rfl
  refine ⟨s₃, hdisk, ?_⟩
  cases hresize : script.resize with
  | none =>
      rw [hresize] at h
      exact h
  | some failure =>
      rw [hresize] at h
      dsimp only at h
      split at h
      · cases h
      · exact h

theorem draws : script.crew.Draws Pictures.sizeOf where
  measured picture d _ := Pictures.measure_eq picture d
  resized source target width height s s' hd h := by
    have hframe := script.touches_resizing source target width height s hd.toWellFormed
      (hd.direct target)
    obtain ⟨s₁, hdisk, hresize⟩ := script.resizing_eq_ok h
    rw [show script.resizing source target width height s = (.ok (), s') from h] at hframe
    exact ⟨hframe, Pictures.read_of_resize (hdisk ▸ hd.direct target) hresize⟩

/-- The crew does its work, unless audio is only pretended to be made. -/
theorem faithful (hlinks : script.links = false) {transcode clip : Deed}
    (haudio : script.audio = .scripted transcode clip) (htranscode : transcode ≠ .pretend)
    (hclip : clip ≠ .pretend) : script.crew.Faithful where
  toContained := script.contained hlinks
  unpacked archive folder s s' _ _ h := by
    obtain ⟨_, s₁, hnote, h⟩ := Work.bind_eq_ok_iff.mp h
    obtain rfl : { s with crew := s.crew.note (.unpack archive folder) } = s₁ :=
      congrArg Prod.snd hnote
    cases hunpack : script.unpack with
    | some f =>
        rw [hunpack] at h
        cases h
    | none =>
        rw [hunpack] at h
        exact Unpack.isFile_of_archive (s := ⟨s.disk, s.crew.note (.unpack archive folder)⟩) h
  resized source target width height s s' u hd hp h := by
    obtain ⟨s₁, hdisk, hresize⟩ := script.resizing_eq_ok h
    exact Pictures.makes_resize source target width height s₁ s' u (hdisk ▸ hd) (hdisk ▸ hp) hresize
  transcoded source target := by
    change (script.transcoding source target).Makes target
    rw [transcoding, haudio]
    refine makes_note (makes_act ?_ htranscode) _
    intro s s' _ _ hp h
    obtain ⟨a, c, -, -, b, -, hwrite⟩ :=
      Disk.copy_eq_ok_iff.mp (Disk.Act.change_eq_ok_iff.mp (Job.of_onDisk h))
    exact Disk.isFile_of_write hp hwrite
  clipped source target c := by
    change (script.clipping source target c).Makes target
    rw [clipping, haudio]
    refine makes_note (makes_act ?_ hclip) _
    intro s s' _ _ hp h
    exact Disk.isFile_of_write hp (Disk.Act.change_eq_ok_iff.mp (Job.of_onDisk h))

end Script

end Rehearsal
end ChartPackage
