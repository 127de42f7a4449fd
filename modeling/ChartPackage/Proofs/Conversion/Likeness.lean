import Mathlib
import ChartPackage.Conversion.Run
import ChartPackage.Proofs.Conversion.Steps
import ChartPackage.Proofs.Disk.Likeness

/-!
A conversion on disks that are the same. Once the package is unpacked, a run goes by what lies where
and by nothing else of the disk, provided that the crew does too.
-/

namespace ChartPackage

namespace Work

variable {ε τ α β : Type} {R : τ → τ → Prop}

/-- Work that gives the same on related states and leaves related ones. -/
def Respects (R : τ → τ → Prop) (x : ExceptT ε (StateM τ) α) : Prop :=
  ∀ s s', R s s' → (x s').1 = (x s).1 ∧ R (x s).2 (x s').2

theorem respects_pure (a : α) : Respects R (pure a : ExceptT ε (StateM τ) α) :=
  fun _ _ h => ⟨rfl, h⟩

theorem respects_throw (e : ε) : Respects R (throw e : ExceptT ε (StateM τ) α) :=
  fun _ _ h => ⟨rfl, h⟩

theorem Respects.bind {x : ExceptT ε (StateM τ) α} {f : α → ExceptT ε (StateM τ) β}
    (hx : Respects R x)
    (hf : ∀ a, Respects R (f a)) : Respects R (x >>= f) := by
  intro s s' h
  obtain ⟨hresult, hstate⟩ := hx s s' h
  rw [bind_apply, bind_apply]
  generalize x s = p, x s' = p' at hresult hstate
  obtain ⟨result, s₁⟩ := p
  obtain ⟨result', s₁'⟩ := p'
  obtain rfl : result' = result := hresult
  cases result' with
  | ok a => exact hf a s₁ s₁' hstate
  | error e => exact ⟨rfl, hstate⟩

/-- Work that goes by what related states have in common. -/
theorem respects_get {f : τ → ExceptT ε (StateM τ) α} (hcommon : ∀ s s', R s s' → f s' = f s)
    (hf : ∀ s, Respects R (f s)) : Respects R (get >>= f) := by
  intro s s' h
  change (f s' s').1 = (f s s).1 ∧ R (f s s).2 (f s' s').2
  rw [hcommon s s' h]
  exact hf s s s' h

theorem Respects.tryCatch {x : ExceptT ε (StateM τ) α} {f : ε → ExceptT ε (StateM τ) α}
    (hx : Respects R x)
    (hf : ∀ e, Respects R (f e)) : Respects R (tryCatch x f) := by
  intro s s' h
  obtain ⟨hresult, hstate⟩ := hx s s' h
  rw [tryCatch_apply, tryCatch_apply]
  generalize x s = p, x s' = p' at hresult hstate
  obtain ⟨result, s₁⟩ := p
  obtain ⟨result', s₁'⟩ := p'
  obtain rfl : result' = result := hresult
  cases result' with
  | ok a => exact ⟨rfl, hstate⟩
  | error e => exact hf e s₁ s₁' hstate

theorem respects_forM {f : α → ExceptT ε (StateM τ) PUnit} (hf : ∀ a, Respects R (f a))
    (xs : List α) :
    Respects R (xs.forM f) := by
  induction xs with
  | nil => exact respects_pure ()
  | cons a xs ih => exact (hf a).bind fun _ => ih

theorem respects_mapM {f : α → ExceptT ε (StateM τ) β} (hf : ∀ a, Respects R (f a)) (xs : List α) :
    Respects R (xs.mapM f) := by
  induction xs with
  | nil => exact respects_pure []
  | cons a xs ih =>
      rw [List.mapM_cons]
      exact (hf a).bind fun b => ih.bind fun bs => respects_pure (b :: bs)

theorem Respects.adapt {ε' : Type} {x : ExceptT ε (StateM τ) α} (hx : Respects R x) (f : ε → ε') :
    Respects R (x.adapt f) := by
  intro s s' h
  obtain ⟨hresult, hstate⟩ := hx s s' h
  exact ⟨congrArg (Except.mapError f) hresult, hstate⟩

end Work

open Work (Respects respects_pure respects_throw respects_forM respects_mapM)

namespace Disk

variable {d d' : Disk}

/-- The same lies everywhere. -/
def Same (d d' : Disk) : Prop := Alike (fun _ => True) d d'

theorem displayed_all (d : Disk) (p : Path) : Alike.Displayed (fun _ => True) d p :=
  ⟨fun _ _ => trivial, fun _ _ _ _ => trivial⟩

namespace Same

theorem tracked (h : Same d d') (p : Path) : Tracked d d' p := Alike.tracked_all h p

theorem entry (h : Same d d') (p : Path) : d'.entry p = d.entry p :=
  Alike.entry h (h.tracked p) fun _ _ => trivial

theorem isFile (h : Same d d') (p : Path) : d'.isFile p = d.isFile p := by
  rw [Disk.isFile, Disk.isFile, h.entry]

theorem isFolder (h : Same d d') (p : Path) : d'.isFolder p = d.isFolder p := by
  rw [Disk.isFolder, Disk.isFolder, h.entry]

theorem isTaken (h : Same d d') (p : Path) : d'.isTaken p = d.isTaken p := by
  rw [Disk.isTaken, Disk.isTaken, h.entry]

theorem read (h : Same d d') (p : Path) : d'.read p = d.read p := by
  rw [Disk.read, Disk.read, h.entry]

theorem readText (h : Same d d') (p : Path) : d'.readText p = d.readText p := by
  rw [Disk.readText, Disk.readText, h.read]

theorem list (h : Same d d') (p : Path) : d'.list p = d.list p := by
  have hget : d'.get? = d.get? := funext fun m => h.same m trivial
  have hnames : d'.names = d.names := funext fun l => Alike.names h fun _ => trivial
  rw [Disk.list, Disk.list, (h.tracked p).locate, hget, hnames]

theorem write (h : Same d d') (p : Path) (c : Content) :
    AlikeEnd (fun _ => True) (write p c d) (write p c d') :=
  Alike.write h c (h.tracked p) fun _ _ => trivial

theorem copy (h : Same d d') (source target : Path) :
    AlikeEnd (fun _ => True) (copy source target d) (copy source target d') :=
  Alike.copy h (h.tracked source) (fun _ _ => trivial) (h.tracked target) fun _ _ => trivial

theorem rename (h : Same d d') (source target : Path) :
    AlikeEnd (fun _ => True) (rename source target d) (rename source target d') :=
  Alike.rename h (h.tracked source) (displayed_all d source) (h.tracked target)
    (displayed_all d target)

end Same

namespace Act

theorem respects_look {α : Type} {f : Disk → Except DiskFault α}
    (h : ∀ d d', Same d d' → f d' = f d) :
    Respects Same (look f) := fun d d' hd => ⟨h d d' hd, hd⟩

theorem change_alike {seen : Location → Prop} {f : Disk → Except DiskFault Disk}
    (hd : Alike seen d d')
    (h : AlikeEnd seen (f d) (f d')) :
    (change f d').1 = (change f d).1 ∧ Alike seen (change f d).2 (change f d').2 := by
  rw [change, change]
  generalize f d = x, f d' = x' at h
  cases h with
  | ok hend => exact ⟨rfl, hend⟩
  | error e => exact ⟨rfl, hd⟩

theorem respects_change {f : Disk → Except DiskFault Disk}
    (h : ∀ d d', Same d d' → AlikeEnd (fun _ => True) (f d) (f d')) : Respects Same (change f) :=
  fun d d' hd => change_alike hd (h d d' hd)

theorem respects_delete (p : Path) : Respects Same (delete p) := by
  intro d d' h
  rw [delete, delete, (h.tracked p).pin]
  split
  · exact ⟨rfl, h⟩
  · exact ⟨rfl, h⟩
  · next l _ =>
      rw [h.same l trivial]
      split
      · exact ⟨rfl, h⟩
      · have hclear := h.clear l
        have hremoved := hclear.removeFolder (hclear.tracked_all p) (displayed_all _ p)
        dsimp only
        generalize removeFolder p (d.clear l) = x, removeFolder p (d'.clear l) = x' at hremoved
        cases hremoved with
        | ok hend => exact ⟨rfl, hend⟩
        | error e =>
            cases e with
            | notFound => exact ⟨rfl, hclear⟩
            | _ => exact ⟨rfl, hclear⟩
      · exact ⟨rfl, h.remove l⟩

theorem respects_ensureFolder (p : Path) : Respects Same (ensureFolder p) := by
  refine respects_change fun d d' h => ?_
  have hmade : AlikeEnd (fun _ => True) (makeFolder p d) (makeFolder p d') :=
    Alike.make h .folder (h.tracked p) fun _ _ => trivial
  rw [h.isFolder]
  generalize makeFolder p d = x, makeFolder p d' = x' at hmade
  cases hmade with
  | ok hend => exact .ok hend
  | error e =>
      dsimp only
      split
      · exact .ok h
      · exact .error e

theorem respects_ensureChain (ps : List Path) : Respects Same (ensureChain ps) := by
  induction ps with
  | nil => exact respects_throw _
  | cons p above ih =>
      rw [ensureChain]
      split
      · exact respects_pure ()
      · refine (respects_ensureFolder p).tryCatch fun e => ?_
        split
        · exact ih.bind fun _ => respects_ensureFolder p
        · exact respects_throw e

theorem respects_ensureFolders (p : Path) : Respects Same (ensureFolders p) :=
  respects_ensureChain _

theorem respects_firstFolder? (folder : Path) : Respects Same (firstFolder? folder) := by
  refine respects_look fun d d' h => ?_
  have hfolder : d'.isFolder = d.isFolder := funext h.isFolder
  rw [h.list, hfolder]

theorem respects_filesWithExtension (extensions : List Text) (folder : Path) :
    Respects Same (filesWithExtension extensions folder) := by
  refine respects_look fun d d' h => ?_
  have hfile : d'.isFile = d.isFile := funext h.isFile
  rw [h.list, hfile]

theorem respects_moveEntry (source target : Path) : Respects Same (moveEntry source target) := by
  refine (respects_change fun d d' h => h.rename source target).tryCatch fun e => ?_
  refine (respects_look fun d d' h => by rw [h.isFile]).bind fun file => ?_
  split
  · exact (respects_change fun d d' h => h.copy source target).bind fun _ => respects_delete source
  · exact respects_throw e

theorem respects_moveContents (accept : Text → Bool) (source target : Path) :
    Respects Same (moveContents accept source target) := by
  refine (respects_look fun d d' h => h.list source).bind fun names => ?_
  exact (respects_forM (fun name => respects_moveEntry _ _) _).bind fun _ => respects_pure _

end Act
end Disk

open Disk (Same)
open Disk.Act
  (respects_look respects_change respects_delete respects_ensureFolders respects_moveContents)

/-- The same lies everywhere on the disk, and the crew is in the same state. -/
def Stage.Same {σ : Type} (s s' : Stage σ) : Prop := s'.crew = s.crew ∧ Disk.Same s.disk s'.disk

namespace Job

variable {σ α : Type}

theorem respects_onDisk {act : Disk.Act α} (h : Respects Disk.Same act) :
    Respects Stage.Same (onDisk act : Job σ α) := by
  intro s s' hs
  obtain ⟨hresult, hdisk⟩ := h s.disk s'.disk hs.2
  exact ⟨congrArg (Except.mapError Fault.disk) hresult, hs.1, hdisk⟩

theorem respects_seeing {f : Disk → α} (h : ∀ d d', Disk.Same d d' → f d' = f d) :
    Respects Stage.Same (look f : Job σ α) := fun _ _ hs => ⟨congrArg Except.ok (h _ _ hs.2), hs⟩

theorem respects_ask (chore : Chore σ α) : Respects Stage.Same (ask chore) := by
  intro s s' hs
  rw [ask, ask, hs.1]
  exact ⟨rfl, rfl, hs.2⟩

end Job

/-- A crew that goes by what lies where on the disk and by nothing else of it. -/
structure Crew.Blind {σ : Type} (crew : Crew σ) : Prop where
  measure : ∀ picture d d', Disk.Same d d' → crew.measure picture d' = crew.measure picture d
  resize :
    ∀ source target width height, Respects Stage.Same (crew.resize source target width height)
  transcode : ∀ source target, Respects Stage.Same (crew.transcode source target)
  clip : ∀ source target c, Respects Stage.Same (crew.clip source target c)

namespace Conversion

variable {σ : Type} {crew : Crew σ}

theorem respects_tell (crew : Crew σ) (message : Text) : Respects Stage.Same (crew.tell message) :=
  Job.respects_ask _

theorem respects_findProject (places : Places) :
    Respects Stage.Same (findProject places : Job σ Path) := by
  refine (Job.respects_onDisk (Disk.Act.respects_firstFolder? _)).bind fun project => ?_
  cases project with
  | none => exact respects_throw _
  | some project => exact respects_pure project

theorem respects_writeSongList (now : Int64) (project : Path) :
    Respects Stage.Same (writeSongList now project : Job σ Text) := by
  refine (Job.respects_seeing fun d d' h => h.isFile _).bind fun there => ?_
  split
  · refine (Job.respects_onDisk (respects_look fun d d' h => h.readText _)).bind fun text => ?_
    cases SongEntry.ofDescriptor (Descriptor.parse text) (project.fileName?.getD []) now with
    | error fault => exact respects_throw fault
    | ok song =>
        dsimp only
        split
        · exact respects_throw _
        · refine (Job.respects_onDisk (respects_change fun d d' h => h.write _ _)).bind fun _ => ?_
          exact respects_pure _
  · exact respects_throw _

theorem respects_makeJacketsFrom (hb : crew.Blind) (settings : Settings) (project : Path)
    (names : List Text) :
    Respects Stage.Same (makeJacketsFrom crew settings project names) := by
  have hmeasured : ∀ picture, Respects Stage.Same (crew.measured picture) := by
    intro picture s s' hs
    rw [Crew.measured, Crew.measured, hb.measure picture _ _ hs.2, hs.1]
    exact ⟨rfl, rfl, hs.2⟩
  have hmake : ∀ name, Respects Stage.Same (makeJacketsOf crew settings project name) := by
    intro name
    refine (hb.resize _ _ _ _).bind fun _ => (hb.resize _ _ _ _).bind fun _ => ?_
    split
    · exact respects_pure ()
    · exact Job.respects_onDisk (respects_delete _)
  induction names with
  | nil => exact respects_pure none
  | cons name names ih =>
      refine (hmeasured _).bind fun size => ?_
      cases size with
      | none => exact ih
      | some size =>
          dsimp only
          split
          · exact (hmake name).bind fun _ => respects_pure (some name)
          · exact ih

theorem respects_makeJackets (hb : crew.Blind) (settings : Settings) (project : Path) :
    Respects Stage.Same (makeJackets crew settings project) :=
  (Job.respects_onDisk (Disk.Act.respects_filesWithExtension _ _)).bind fun names =>
    respects_makeJacketsFrom hb settings project names

theorem respects_makeTrack (hb : crew.Blind) (project : Path) :
    Respects Stage.Same (makeTrack crew project) := by
  refine (Job.respects_onDisk (Disk.Act.respects_filesWithExtension _ _)).bind fun names => ?_
  cases names.find? (· ≠ trackName) with
  | none => exact respects_pure none
  | some name =>
      refine ((hb.transcode _ _).adapt _).bind fun _ => ?_
      exact (Job.respects_onDisk (respects_delete _)).bind fun _ => respects_pure (some name)

theorem respects_makePreview (hb : crew.Blind) (settings : Settings) (project : Path) :
    Respects Stage.Same (makePreview crew settings project) := by
  refine (Job.respects_seeing fun d d' h => h.isFile _).bind fun there => ?_
  split
  · exact (Job.respects_ask _).bind fun start => (hb.clip _ _ _).adapt _
  · exact respects_throw _

theorem respects_publishDownloads (project folder : Path) :
    Respects Same (publishDownloads project folder) :=
  (respects_ensureFolders folder).bind fun _ =>
    (respects_moveContents _ _ _).bind fun _ => respects_pure ()

theorem respects_discardSources (project : Path) : Respects Same (discardSources project) :=
  (respects_look fun _ _ h => h.list project).bind fun _ =>
    respects_forM (fun _ => respects_delete _) _

theorem respects_cleanUp (settings : Settings) (places : Places) :
    Respects Same (cleanUp settings places) := by
  refine (respects_delete _).bind fun _ => (respects_delete _).bind fun _ => ?_
  split
  · exact respects_pure ()
  · exact respects_delete _

theorem respects_sanitizeChart (allowed : Whitelists) (project : Path) (name : Text) :
    Respects Same (sanitizeChart allowed project name) := by
  refine (respects_look fun _ _ h => h.readText _).bind fun text => ?_
  refine (respects_change fun _ _ h => h.write _ _).bind fun _ => ?_
  refine Respects.bind (respects_forM (fun c => ?_) _) fun _ => respects_pure _
  split
  · exact respects_pure ()
  · exact respects_change fun _ _ h => h.copy _ _

theorem respects_renameChart (crew : Crew σ) (project : Path) (chart name : Text) :
    Respects Stage.Same (renameChart crew project chart name) := by
  refine (Job.respects_seeing fun d d' h => ?_).bind fun refused => ?_
  · have htaken : d'.isTaken = d.isTaken := funext h.isTaken
    rw [refusal?, refusal?, htaken]
  · cases refused with
    | some reason => exact respects_throw _
    | none =>
        refine ((Job.respects_onDisk (respects_change fun _ _ h => h.rename _ _)).adapt _).bind
          fun _ => ?_
        exact (respects_tell crew _).bind fun _ => respects_pure _

theorem respects_processCharts (crew : Crew σ) (allowed : Whitelists) (project : Path) :
    Respects Stage.Same (processCharts crew allowed project) := by
  have hnames : Respects Same (chartNames project) := by
    refine respects_look fun d d' h => ?_
    have hfile : d'.isFile = d.isFile := funext h.isFile
    rw [h.list, hfile]
  have hask : ∀ charts, Respects Stage.Same (askForNames crew project charts) := by
    intro charts
    refine (respects_tell crew _).bind fun _ => ?_
    refine (respects_forM (fun chart => respects_tell crew _) _).bind fun _ => ?_
    refine (Job.respects_ask _).bind fun names => ?_
    rw [renameCharts]
    split
    · exact respects_throw _
    · exact (respects_mapM (fun pair => respects_renameChart crew project _ _) _).bind fun _ =>
        respects_pure _
  refine (Job.respects_onDisk hnames).bind fun charts => ?_
  rcases charts with _ | ⟨name, _ | ⟨second, others⟩⟩
  · exact respects_throw _
  · exact Job.respects_onDisk (respects_sanitizeChart allowed project name)
  · exact hask _

/-- A run from the unpacked archive on. -/
def sequel (crew : Crew σ) (settings : Settings) (allowed : Whitelists) (now : Int64)
    (places : Places) :
    Job σ Outcome := do
  let project ← findProject places
  let songId ← writeSongList now project
  let outcome ← make crew settings allowed places project songId
  Job.onDisk (cleanUp settings places)
  return outcome

theorem run_eq_sequel (crew : Crew σ) (settings : Settings) (allowed : Whitelists) (now : Int64)
    (package : Path) :
    run crew settings allowed now package =
      unpack crew settings (Places.ofPackage package settings.outputFolder) >>= fun _ =>
        sequel crew settings allowed now (Places.ofPackage package settings.outputFolder) := by
  simp only [run, sequel, make, furnish, gather, bind_assoc, pure_bind]

/-- From the unpacked archive on a run goes by what lies where. -/
theorem respects_sequel (hb : crew.Blind) (settings : Settings) (allowed : Whitelists) (now : Int64)
    (places : Places) : Respects Stage.Same (sequel crew settings allowed now places) := by
  refine (respects_findProject places).bind fun project => ?_
  refine (respects_writeSongList now project).bind fun songId => ?_
  refine Respects.bind ?_ fun outcome => ?_
  · refine Respects.bind ?_ fun sources => ?_
    · refine (respects_makeJackets hb settings project).bind fun _ => ?_
      refine (respects_makeTrack hb project).bind fun _ => ?_
      refine (respects_makePreview hb settings project).bind fun _ => ?_
      refine (Job.respects_onDisk (respects_publishDownloads project _)).bind fun _ => ?_
      refine (Job.respects_onDisk (respects_ensureFolders _)).bind fun _ => ?_
      exact (Job.respects_onDisk (respects_discardSources project)).bind fun _ => respects_pure _
    · refine Respects.bind ?_ fun charts => respects_pure _
      refine (respects_processCharts crew allowed project).bind fun charts => ?_
      exact (Job.respects_onDisk (respects_moveContents _ _ _)).bind fun _ => respects_pure _
  · exact (Job.respects_onDisk (respects_cleanUp settings places)).bind fun _ => respects_pure _

end Conversion
end ChartPackage
