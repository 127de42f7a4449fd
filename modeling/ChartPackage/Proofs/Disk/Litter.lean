import Mathlib
import ChartPackage.Proofs.Disk.Likeness

/-!
Work on a disk with litter. Litter lies where the work is going to put an entry of its kind; so work
that only adds to the disk ends as it does without the litter, and when it has put all that it puts
there is no litter left.
-/

namespace ChartPackage

theorem Item.eq_folder {e : Item} (h : e.kind = .folder) : e = .folder := by
  cases e with
  | folder => rfl
  | file c => cases h
  | link t => cases h

namespace Disk

variable {root : Location} {goal d d' : Disk} {p : Path}

/-- What lies on the first disk lies on the second, each item as one of its kind. -/
structure Grows (d d' : Disk) : Prop where
  home : d'.home = d.home
  kept : ∀ m e, d.get? m = some e → ∃ e', d'.get? m = some e' ∧ e'.kind = e.kind

/-- The second disk is the first one with litter at or below a place: folders and files, each piece
where the goal has an item of its kind and the first disk nothing. -/
structure Littered (root : Location) (goal d d' : Disk) : Prop where
  home : d'.home = d.home
  device : d'.device = d.device
  litter : ∀ m, d'.get? m = d.get? m ∨ root <+: m ∧ d.get? m = none ∧
    ∃ e e', d'.get? m = some e' ∧ goal.get? m = some e ∧ e'.kind = e.kind ∧ e.kind ≠ .link

/-- A place where there can be no litter. -/
def Settled (root : Location) (d : Disk) (m : Location) : Prop := ¬ root <+: m ∨ d.get? m ≠ none

namespace Grows

theorem refl (d : Disk) : Grows d d := ⟨rfl, fun _ e h => ⟨e, h, rfl⟩⟩

theorem trans {d'' : Disk} (h : Grows d d') (h' : Grows d' d'') : Grows d d'' := by
  refine ⟨h'.home.trans h.home, fun m e he => ?_⟩
  obtain ⟨e', he', hkind⟩ := h.kept m e he
  obtain ⟨e'', he'', hkind'⟩ := h'.kept m e' he'
  exact ⟨e'', he'', hkind'.trans hkind⟩

theorem present (h : Grows d d') {m : Location} (hm : d.get? m ≠ none) : d'.get? m ≠ none := by
  obtain ⟨e, he⟩ := Option.ne_none_iff_exists'.mp hm
  obtain ⟨e', he', -⟩ := h.kept m e he
  rw [he']
  exact Option.some_ne_none e'

theorem spot (h : Grows d d') (p : Path) : d'.spot p = d.spot p := by
  rw [Disk.spot, Disk.spot, start, start, h.home]

theorem way (h : Grows d d') (p : Path) : d'.way p = d.way p := by
  rw [Disk.way, Disk.way, start, start, h.home]

theorem put {l : Location} {e : Item} (hl : l ≠ []) (h : ∀ e', d.get? l = some e' →
    e.kind = e'.kind) :
    Grows d (d.put l e) := by
  refine ⟨rfl, fun m e' he' => ?_⟩
  rw [get?_put hl]
  by_cases hm : m = l
  · rw [if_pos hm]
    exact ⟨e, rfl, h e' (hm ▸ he')⟩
  · rw [if_neg hm]
    exact ⟨e', he', rfl⟩

end Grows

namespace Littered

theorem refl (root : Location) (goal d : Disk) : Littered root goal d d :=
  ⟨rfl, rfl, fun _ => Or.inl rfl⟩

theorem alike (h : Littered root goal d d') : Alike (Settled root d) d d' := by
  refine ⟨h.home, h.device, fun m hm => (h.litter m).resolve_right fun hlitter => ?_⟩
  cases hm with
  | inl hout => exact hout hlitter.1
  | inr hthere => exact hthere hlitter.2.1

/-- What is there without litter is there with it. -/
theorem same (h : Littered root goal d d') {m : Location} {e : Item} (he : d.get? m = some e) :
    d'.get? m = some e := by
  rw [h.alike.same m (Or.inr (by rw [he]; exact Option.some_ne_none e)), he]

theorem present (h : Littered root goal d d') {m : Location} (hm : d.get? m ≠ none) :
    d'.get? m ≠ none := by
  rw [h.alike.same m (Or.inr hm)]
  exact hm

/-- No litter is a link. -/
theorem noLink (h : Littered root goal d d') {m : Location} (hm : d.NoLink m) : d'.NoLink m := by
  intro t ht
  cases h.litter m with
  | inl hsame => exact hm t (hsame.symm.trans ht)
  | inr hlitter =>
      obtain ⟨-, -, e, e', he', -, hkind, hlink⟩ := hlitter
      obtain rfl : e' = .link t := Option.some.inj (he'.symm.trans ht)
      exact hlink hkind.symm

theorem noLink_of_noLink (h : Littered root goal d d') {m : Location} (hm : d'.NoLink m) :
    d.NoLink m := fun t ht => hm t (h.same ht)

/-- Litter makes no path end in a link. -/
theorem isLink (h : Littered root goal d d') (hway : ∀ m ∈ d.way p, Settled root d m)
    (hp : ∀ m ∈ d.way p, d.NoLink m) : d'.isLink p = d.isLink p := by
  have hpin := h.alike.pin fun m hm => ⟨hway m hm, hp m hm⟩
  rw [Bool.eq_iff_iff]
  cases hl : d.pin p with
  | error e =>
      rw [hl] at hpin
      rw [Disk.isLink, Disk.isLink, hl, hpin]
      rfl
  | ok l =>
      rw [isLink_of_pin hl, isLink_of_pin (hpin.trans hl), not_iff_not]
      exact ⟨h.noLink_of_noLink, h.noLink⟩

theorem straight (h : Littered root goal d d') (hway : ∀ m ∈ d.way p, Settled root d m)
    (hp : d.Straight p) : d'.Straight p :=
  h.alike.straight hway hp ((h.isLink hway hp.way).trans hp.no_link)

theorem tracked (h : Littered root goal d d') (hway : ∀ m ∈ d.way p, Settled root d m)
    (hp : d.Straight p) : Tracked d d' p :=
  h.alike.tracked hway hp ((h.isLink hway hp.way).trans hp.no_link)

/-- Where all that the goal has is there already, there is no litter. -/
theorem of_goal (h : Littered root goal goal d') : Alike (fun _ => True) goal d' := by
  refine ⟨h.home, h.device, fun m _ => (h.litter m).resolve_right ?_⟩
  rintro ⟨-, hnone, e, -, -, hsome, -, -⟩
  rw [hsome] at hnone
  cases hnone

theorem put (h : Littered root goal d d') {l : Location} (hl : l ≠ []) (e : Item) :
    Littered root goal (d.put l e) (d'.put l e) := by
  refine ⟨h.home, h.device, fun m => ?_⟩
  rw [get?_put hl, get?_put hl]
  by_cases hm : m = l
  · rw [if_pos hm, if_pos hm]
    exact Or.inl rfl
  · rw [if_neg hm, if_neg hm]
    exact h.litter m

/-- Changes elsewhere, alike on both disks, leave the litter as it is. -/
theorem carry (h : Littered root goal d d') {d₁ d₁' : Disk} (halike : Alike (Settled root d) d₁ d₁')
    (hd : ∀ m, root <+: m → d₁.get? m = d.get? m) (hd' : ∀ m, root <+: m → d₁'.get? m = d'.get? m) :
    Littered root goal d₁ d₁' := by
  refine ⟨halike.home, halike.device, fun m => ?_⟩
  by_cases hm : Settled root d m
  · exact Or.inl (halike.same m hm)
  · have hin : root <+: m := not_not.mp fun hout => hm (Or.inl hout)
    rw [hd m hin, hd' m hin]
    exact h.litter m

/-- One more piece of litter. -/
theorem add (h : Littered root goal d d') {l : Location} (hl : l ≠ []) (hin : root <+: l)
    (hnone : d.get? l = none)
    {e e' : Item} (he : goal.get? l = some e) (hkind : e'.kind = e.kind)
    (hlink : e.kind ≠ .link) : Littered root goal d (d'.put l e') := by
  refine ⟨h.home, h.device, fun m => ?_⟩
  rw [get?_put hl]
  by_cases hm : m = l
  · subst hm
    rw [if_pos rfl]
    exact Or.inr ⟨hin, hnone, e, e', rfl, he, hkind, hlink⟩
  · rw [if_neg hm]
    exact h.litter m

/-- What is put lies there already as litter. -/
theorem put_over (h : Littered root goal d d') {l : Location} (hl : l ≠ []) {e : Item}
    (he : d'.get? l = some e) :
    Littered root goal (d.put l e) d' := by
  refine ⟨h.home, h.device, fun m => ?_⟩
  rw [get?_put hl]
  by_cases hm : m = l
  · rw [if_pos hm, hm, he]
    exact Or.inl rfl
  · rw [if_neg hm]
    exact h.litter m

/-- Litter is of the kind that is put in its place. -/
theorem kind (h : Littered root goal d d') {d₁ : Disk} (hgoal : Grows d₁ goal) {l : Location}
    {e e' : Item}
    (hnone : d.get? l = none) (he : d₁.get? l = some e) (he' : d'.get? l = some e') :
    e'.kind = e.kind := by
  cases h.litter l with
  | inl hsame =>
      rw [hsame, hnone] at he'
      cases he'
  | inr hlitter =>
      obtain ⟨-, -, e₁, e₂, he₂, hgoal₁, hkind, -⟩ := hlitter
      obtain ⟨e₃, he₃, hkind'⟩ := hgoal.kept l e he
      obtain rfl : e₂ = e' := Option.some.inj (he₂.symm.trans he')
      obtain rfl : e₁ = e₃ := Option.some.inj (hgoal₁.symm.trans he₃)
      exact hkind.trans hkind'

end Littered

/-! ### Work that goes the same way over litter -/

/-- Work that only adds to a disk, and in which litter makes no difference if the work replaces it
in the end. -/
structure Lays {τ ε α : Type} (root : Location) (disk : τ → Disk) (like : τ → τ → Prop)
    (x : ExceptT ε (StateM τ) α) (s : τ) : Prop where
  grows : Grows (disk s) (disk (x s).2)
  level : ∀ goal s', like s s' → Littered root goal (disk s) (disk s') → Grows (disk (x s).2) goal →
    (x s').1 = (x s).1 ∧ like (x s).2 (x s').2 ∧ Littered root goal (disk (x s).2) (disk (x s').2)

section

variable {τ ε α β : Type} {disk : τ → Disk} {like : τ → τ → Prop} {s : τ}

theorem lays_pure (a : α) : Lays root disk like (pure a : ExceptT ε (StateM τ) α) s :=
  ⟨.refl _, fun _ _ hlike hlitter _ => ⟨rfl, hlike, hlitter⟩⟩

theorem lays_throw (e : ε) : Lays root disk like (throw e : ExceptT ε (StateM τ) α) s :=
  ⟨.refl _, fun _ _ hlike hlitter _ => ⟨rfl, hlike, hlitter⟩⟩

theorem Lays.bind {x : ExceptT ε (StateM τ) α} {f : α → ExceptT ε (StateM τ) β}
    (hx : Lays root disk like x s)
    (hf : ∀ a s₁, x s = (.ok a, s₁) → Lays root disk like (f a) s₁) :
      Lays root disk like (x >>= f) s := by
  obtain ⟨hgrows, hlevel⟩ := hx
  constructor
  · rw [Work.bind_apply]
    cases hs : x s with
    | mk result s₁ =>
        rw [hs] at hgrows
        cases result with
        | ok a => exact hgrows.trans (hf a s₁ hs).grows
        | error e => exact hgrows
  · intro goal s' hlike hlitter hgoal
    rw [Work.bind_apply] at hgoal ⊢
    rw [Work.bind_apply]
    cases hs : x s with
    | mk result s₁ =>
        rw [hs] at hgoal hlevel
        have hlater : Grows (disk s₁) goal := by
          cases result with
          | ok a => exact (hf a s₁ hs).grows.trans hgoal
          | error e => exact hgoal
        obtain ⟨hresult, hlike₁, hlitter₁⟩ := hlevel goal s' hlike hlitter hlater
        cases hs' : x s' with
        | mk result' s₁' =>
            rw [hs'] at hresult hlike₁ hlitter₁
            obtain rfl : result' = result := hresult
            cases result' with
            | ok a => exact (hf a s₁ hs).level goal s₁' hlike₁ hlitter₁ hgoal
            | error e => exact ⟨rfl, hlike₁, hlitter₁⟩

theorem Lays.adapt {ε' : Type} {x : ExceptT ε (StateM τ) α} (hx : Lays root disk like x s)
    (f : ε → ε') :
    Lays root disk like (x.adapt f) s := by
  refine ⟨hx.grows, fun goal s' hlike hlitter hgoal => ?_⟩
  obtain ⟨hresult, hrest⟩ := hx.level goal s' hlike hlitter hgoal
  exact ⟨congrArg (Except.mapError f) hresult, hrest⟩

/-- A loop goes the same way if each round does in a state that meets an assertion, which outlasts
all that is added. -/
theorem lays_forM {P : Disk → Prop} {f : α → ExceptT ε (StateM τ) PUnit}
    (hP : ∀ d d', P d → Grows d d' → P d') (hf : ∀ a s, P (disk s) → Lays root disk like (f a) s)
    (xs : List α) (hs : P (disk s)) : Lays root disk like (xs.forM f) s := by
  induction xs generalizing s with
  | nil => exact lays_pure ()
  | cons a xs ih =>
      refine Lays.bind (x := f a) (f := fun _ => xs.forM f) (hf a s hs) fun _ s₁ h₁ => ih ?_
      have hgrows := (hf a s hs).grows
      rw [h₁] at hgrows
      exact hP _ _ hs hgrows

/-- Work that does on a state what other work does, with and without litter. -/
theorem Lays.congr {x y : ExceptT ε (StateM τ) α} (hx : Lays root disk like x s) (hs : y s = x s)
    (hlevel : ∀ goal s', like s s' → Littered root goal (disk s) (disk s') →
      Grows (disk (x s).2) goal →
      y s' = x s') : Lays root disk like y s := by
  refine ⟨hs ▸ hx.grows, fun goal s' hlike hlitter hgoal => ?_⟩
  rw [hs] at hgoal ⊢
  rw [hlevel goal s' hlike hlitter hgoal]
  exact hx.level goal s' hlike hlitter hgoal

end

/-! ### Files and folders -/

namespace Act

variable {α : Type} {c : Content}

/-- Work on a disk and nothing else. -/
abbrev Lays (root : Location) (act : Act α) (d : Disk) : Prop :=
  Disk.Lays root (fun d => d) (fun _ _ => True) act d

theorem lays_look {f : Disk → Except DiskFault α}
    (h : ∀ goal d', Littered root goal d d' → f d' = f d) : Lays root (look f) d :=
  ⟨.refl d, fun goal d' _ hlitter _ => ⟨h goal d' hlitter, trivial, hlitter⟩⟩

theorem lays_write (hway : ∀ m ∈ d.way p, Settled root d m) (hp : d.Straight p) :
    Lays root (change (write p c)) d := by
  cases hl : d.locate p with
  | error e =>
      have hrefused : ∀ d₁, d₁.locate p = .error e → change (write p c) d₁ = (.error e, d₁) := by
        intro d₁ h₁
        rw [change, write, h₁]
        rfl
      refine (lays_throw e).congr (hrefused d hl) fun goal d' _ hlitter _ => hrefused d' ?_
      rw [(hlitter.tracked hway hp).locate, hl]
  | ok l =>
      have hwritten : ∀ d₁, d₁.locate p = .ok l → d₁.get? l ≠ some .folder →
          change (write p c) d₁ = (.ok (), d₁.put l (.file c)) := fun d₁ h₁ hne =>
        change_eq_ok_iff.mpr (write_eq_ok_iff.mpr ⟨l, h₁, hne, rfl⟩)
      have hrefused : ∀ d₁, d₁.locate p = .ok l → d₁.get? l = some .folder →
          change (write p c) d₁ = (.error .isDirectory, d₁) := by
        intro d₁ h₁ hfolder
        simp only [change, write, h₁, hfolder, Except.bind, bind]
      have hlocate : ∀ goal d', Littered root goal d d' → d'.locate p = .ok l :=
        fun goal d' hlitter => by
        rw [(hlitter.tracked hway hp).locate, hl]
      by_cases hfolder : d.get? l = some .folder
      · refine (lays_throw .isDirectory).congr (hrefused d hl hfolder) fun goal d' _ hlitter _ => ?_
        exact hrefused d' (hlocate goal d' hlitter) (hlitter.same hfolder)
      · have hroot : l ≠ [] := fun hnil => hfolder (hnil ▸ get?_root d)
        constructor
        · rw [hwritten d hl hfolder]
          refine .put hroot fun e' he' => ?_
          cases e' with
          | folder => exact absurd he' hfolder
          | file c' => rfl
          | link t => exact absurd he' (hp.noLink hl t)
        · intro goal d' _ hlitter hgoal
          rw [hwritten d hl hfolder] at hgoal ⊢
          have hfolder' : d'.get? l ≠ some .folder := by
            intro he'
            cases hlitter.litter l with
            | inl hsame => exact hfolder (hsame ▸ he')
            | inr hpiece =>
                have hput : (d.put l (.file c)).get? l = some (.file c) :=
                  (get?_put hroot _ d l).trans (if_pos rfl)
                cases hlitter.kind hgoal hpiece.2.1 hput he'
          rw [hwritten d' (hlocate goal d' hlitter) hfolder']
          exact ⟨rfl, trivial, hlitter.put hroot _⟩

/-- A link is made where there is nothing, and no litter lies where a link is put. -/
theorem lays_makeLink {target : Path} (hway : ∀ m ∈ d.way p, Settled root d m)
    (hp : d.Straight p) : Lays root (change (makeLink target p)) d := by
  have hrefused : ∀ {d₁ : Disk} {e : DiskFault}, makeLink target p d₁ = .error e →
      change (makeLink target p) d₁ = (.error e, d₁) := by
    intro d₁ e h₁
    rw [change, h₁]
  cases hfault : linkFault? target with
  | some e =>
      have hrefuse : ∀ d₁, makeLink target p d₁ = .error e := fun d₁ => by rw [makeLink, hfault]
      exact (lays_throw e).congr (hrefused (hrefuse d)) fun _ d' _ _ _ => hrefused (hrefuse d')
  | none =>
      have hmake : ∀ d₁, makeLink target p d₁ = make p (.link target) d₁ := fun d₁ => by
        rw [makeLink, hfault]
      have hpin : ∀ goal d', Littered root goal d d' → d'.pin p = d.pin p :=
        fun goal d' hlitter => (hlitter.tracked hway hp).pin
      cases hl : d.pin p with
      | error e =>
          have hlost : ∀ d₁, d₁.pin p = .error e → makeLink target p d₁ = .error e := by
            intro d₁ h₁
            rw [hmake, make, h₁]
            rfl
          refine (lays_throw e).congr (hrefused (hlost d hl)) fun goal d' _ hlitter _ => ?_
          exact hrefused (hlost d' ((hpin goal d' hlitter).trans hl))
      | ok l =>
          have hmade : ∀ d₁, d₁.pin p = .ok l → d₁.get? l = none →
              change (makeLink target p) d₁ = (.ok (), d₁.put l (.link target)) := by
            intro d₁ h₁ hnone
            refine change_eq_ok_iff.mpr ?_
            simp only [hmake, make, h₁, hnone, Except.bind, bind]
          have htaken : ∀ d₁ e, d₁.pin p = .ok l → d₁.get? l = some e →
              makeLink target p d₁ = .error .exists := by
            intro d₁ e h₁ he
            simp only [hmake, make, h₁, he, Except.bind, bind]
          cases he : d.get? l with
          | some e =>
              refine (lays_throw .exists).congr (hrefused (htaken d e hl he))
                fun goal d' _ hlitter _ => hrefused (htaken d' e ?_ (hlitter.same he))
              exact (hpin goal d' hlitter).trans hl
          | none =>
              have hroot : l ≠ [] := by
                rintro rfl
                rw [get?_root] at he
                cases he
              have hput : (d.put l (.link target)).get? l = some (.link target) :=
                (get?_put hroot _ d l).trans (if_pos rfl)
              constructor
              · rw [hmade d hl he]
                refine .put hroot fun e' he' => ?_
                rw [he] at he'
                cases he'
              · intro goal d' _ hlitter hgoal
                rw [hmade d hl he] at hgoal ⊢
                have hnone : d'.get? l = none := by
                  cases he' : d'.get? l with
                  | none => rfl
                  | some e' =>
                      have hkind := hlitter.kind hgoal he hput he'
                      cases e' with
                      | folder => cases hkind
                      | file c => cases hkind
                      | link t =>
                          refine absurd he' (hlitter.noLink ?_ t)
                          intro t' ht'
                          rw [he] at ht'
                          cases ht'
                rw [hmade d' ((hpin goal d' hlitter).trans hl) hnone]
                exact ⟨rfl, trivial, hlitter.put hroot _⟩

/-- A folder is made where there is nothing. -/
theorem ensureFolder_eq (hp : d.Straight p) :
    ensureFolder p d = match d.locate p with
      | .error e => (.error e, d)
      | .ok l => match d.get? l with
        | none => (.ok (), d.put l .folder)
        | some .folder => (.ok (), d)
        | some _ => (.error .exists, d) := by
  have hpin := pin_eq_locate hp
  cases hl : d.locate p with
  | error e =>
      simp [ensureFolder, change, makeFolder, make, isFolder, entry_of_error hl, hpin, hl,
        Except.bind, bind]
  | ok l =>
      cases he : d.get? l with
      | none => simp [ensureFolder, change, makeFolder, make, hpin, hl, he, Except.bind, bind]
      | some e =>
          have hentry : d.entry p = .ok e := entry_eq_ok_iff.mpr ⟨l, hl, he⟩
          cases e with
          | folder =>
              simp [ensureFolder, change, makeFolder, make, isFolder, hentry, hpin, hl, he,
                Except.bind, bind]
          | file c =>
              simp [ensureFolder, change, makeFolder, make, isFolder, hentry, hpin, hl, he,
                Except.bind, bind]
          | link t => exact absurd he (hp.noLink hl t)

theorem ensureFolder_of_error (hp : d.Straight p) {e : DiskFault} (h : d.locate p = .error e) :
    ensureFolder p d = (.error e, d) := by
  rw [ensureFolder_eq hp, h]

theorem ensureFolder_of_none (hp : d.Straight p) {l : Location} (hl : d.locate p = .ok l)
    (h : d.get? l = none) : ensureFolder p d = (.ok (), d.put l .folder) := by
  simp only [ensureFolder_eq hp, hl, h]

theorem ensureFolder_of_folder (hp : d.Straight p) {l : Location} (hl : d.locate p = .ok l)
    (h : d.get? l = some .folder) : ensureFolder p d = (.ok (), d) := by
  simp only [ensureFolder_eq hp, hl, h]

theorem ensureFolder_of_file (hp : d.Straight p) {l : Location} {c : Content}
    (hl : d.locate p = .ok l) (h : d.get? l = some (.file c)) :
    ensureFolder p d = (.error .exists, d) := by
  simp only [ensureFolder_eq hp, hl, h]

theorem locate_of_ensureFolder_notFound (hp : d.Straight p)
    (h : ensureFolder p d = (.error .notFound, d')) : d.locate p = .error .notFound := by
  rw [ensureFolder_eq hp] at h
  split at h
  · next e hl =>
      cases h
      exact hl
  · split at h
    · cases h
    · cases h
    · cases h

theorem lays_ensureFolder (hway : ∀ m ∈ d.way p, Settled root d m) (hp : d.Straight p) :
    Lays root (ensureFolder p) d := by
  cases hl : d.locate p with
  | error e =>
      refine (lays_throw e).congr (ensureFolder_of_error hp hl) fun goal d' _ hlitter _ =>
        ensureFolder_of_error (hlitter.straight hway hp) ?_
      rw [(hlitter.tracked hway hp).locate, hl]
  | ok l =>
      have hlocate : ∀ goal d', Littered root goal d d' → d'.locate p = .ok l :=
        fun goal d' hlitter => by
        rw [(hlitter.tracked hway hp).locate, hl]
      cases he : d.get? l with
      | some e =>
          cases e with
          | folder =>
              refine (lays_pure ()).congr (ensureFolder_of_folder hp hl he)
                fun goal d' _ hlitter _ => ?_
              exact ensureFolder_of_folder (hlitter.straight hway hp) (hlocate goal d' hlitter)
                (hlitter.same he)
          | file c =>
              refine (lays_throw .exists).congr (ensureFolder_of_file hp hl he) fun goal d' _
                hlitter _ => ?_
              exact ensureFolder_of_file (hlitter.straight hway hp) (hlocate goal d' hlitter)
                (hlitter.same he)
          | link t => exact absurd he (hp.noLink hl t)
      | none =>
          have hroot : l ≠ [] := by
            rintro rfl
            rw [get?_root] at he
            cases he
          have hmade := ensureFolder_of_none hp hl he
          constructor
          · rw [hmade]
            refine .put hroot fun e' he' => ?_
            rw [he] at he'
            cases he'
          · intro goal d' _ hlitter hgoal
            rw [hmade] at hgoal ⊢
            cases he' : d'.get? l with
            | none =>
                rw [ensureFolder_of_none (hlitter.straight hway hp) (hlocate goal d' hlitter) he']
                exact ⟨rfl, trivial, hlitter.put hroot _⟩
            | some e' =>
                have hkind := hlitter.kind hgoal he ((get?_put hroot _ d l).trans (if_pos rfl)) he'
                obtain rfl := Item.eq_folder hkind
                rw [ensureFolder_of_folder (hlitter.straight hway hp) (hlocate goal d' hlitter) he']
                exact ⟨rfl, trivial, hlitter.put_over hroot he'⟩

/-- Where there is something all along the way, no folders above need be made. -/
theorem ensureFolders_eq (hp : p ≠ []) (hway : ∀ m ∈ d.way p, d.get? m ≠ none)
    (hs : d.Straight p) : ensureFolders p d = ensureFolder p d := by
  obtain ⟨above, habove⟩ : ∃ above, p.ancestors = p :: above := ⟨_, rfl⟩
  rw [ensureFolders, habove, ensureChain, if_neg hp, Work.tryCatch_apply]
  cases hfirst : ensureFolder p d with
  | mk result d₁ =>
      cases result with
      | ok _ => rfl
      | error e =>
          have hfound : e ≠ .notFound := by
            rintro rfl
            obtain ⟨m, hm, hnone⟩ := missing_of_notFound hs hp
              (locate_of_ensureFolder_notFound hs hfirst)
            exact hway m hm hnone
          dsimp only
          rw [if_neg hfound]
          rfl

/-- Where there is something all along the way, making folders leaves a folder at the end of it. -/
theorem folder_of_straight (hp : p ≠ []) (hway : ∀ m ∈ d.way p, d.get? m ≠ none)
    (hs : d.Straight p) (h : ensureFolders p d = (.ok (), d')) :
    d'.get? (d.spot p) = some .folder := by
  rw [ensureFolders_eq hp hway hs, ensureFolder_eq hs] at h
  split at h
  · cases h
  · next l hl =>
      obtain rfl := spot_of_locate hs hl
      split at h
      · next hnone =>
          cases h
          have hroot : d.spot p ≠ [] := by
            intro hnil
            rw [hnil, get?_root] at hnone
            cases hnone
          exact (get?_put hroot _ d _).trans (if_pos rfl)
      · next hfolder =>
          cases h
          exact hfolder
      · cases h

theorem lays_ensureFolders (hway : ∀ m ∈ d.way p, d.get? m ≠ none) (hp : d.Straight p) :
    Lays root (ensureFolders p) d := by
  by_cases hnil : p = []
  · subst hnil
    exact lays_pure ()
  · have hsettled : ∀ m ∈ d.way p, Settled root d m := fun m hm => Or.inr (hway m hm)
    refine (lays_ensureFolder hsettled hp).congr (ensureFolders_eq hnil hway hp)
      fun goal d' _ hlitter _ => ?_
    refine ensureFolders_eq hnil
      (fun m hm => hlitter.present (hway m (hlitter.alike.way p ▸ hm))) ?_
    exact hlitter.straight hsettled hp

end Act

end Disk
end ChartPackage
