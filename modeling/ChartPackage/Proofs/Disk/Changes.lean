import Mathlib
import ChartPackage.Disk.Act
import ChartPackage.Proofs.Disk.Endings
import ChartPackage.Proofs.Work

/-!
What looks at a disk find and what changes do to it. Writing and copying put a file at the end of a
path, deleting takes away what is at or below it, and making folders adds folders only.
-/

namespace ChartPackage.Disk

variable {d d' : Disk}

theorem itemAt_eq_ok_iff {l : Location} {e : Item} : d.itemAt l = .ok e ↔ d.get? l = some e := by
  rw [itemAt]
  cases d.get? l with
  | none => simp
  | some f => simp

theorem entry_eq_ok_iff {p : Path} {e : Item} :
    d.entry p = .ok e ↔ ∃ l, d.locate p = .ok l ∧ d.get? l = some e := by
  rw [entry, Except.bind_eq_ok_iff]
  exact exists_congr fun l => and_congr_right fun _ => itemAt_eq_ok_iff

theorem entry_of_error {p : Path} {e : DiskFault} (h : d.locate p = .error e) :
    d.entry p = .error e := by
  rw [entry, h]
  rfl

theorem entry_of_none {p : Path} {l : Location} (hl : d.locate p = .ok l) (h : d.get? l = none) :
    d.entry p = .error .notFound := by
  simp only [entry, itemAt, hl, h, Except.bind, bind]

theorem isFile_iff {p : Path} : d.isFile p = true ↔ ∃ c, d.entry p = .ok (.file c) := by
  rw [isFile]
  split
  · next c h => simp [h]
  · next h => simpa using h

theorem isFolder_iff {p : Path} : d.isFolder p = true ↔ d.entry p = .ok .folder := by
  rw [isFolder]
  split
  · next h => simp [h]
  · next h => simpa using h

theorem isTaken_iff {p : Path} : d.isTaken p = true ↔ ∃ e, d.entry p = .ok e := by
  rw [isTaken]
  cases d.entry p with
  | error e => simp [Except.toBool]
  | ok e => simp [Except.toBool]

theorem list_eq_ok_iff {p : Path} {names : List Text} :
    d.list p = .ok names ↔
      ∃ l, d.locate p = .ok l ∧ d.get? l = some .folder ∧ names = d.names l := by
  rw [list, Except.bind_eq_ok_iff]
  refine exists_congr fun l => and_congr_right fun _ => ?_
  split
  · next h => simp [h, eq_comm]
  · next e hfolder h =>
      refine iff_of_false (by simp) ?_
      intro hlist
      exact hfolder (Option.some.inj (h.symm.trans hlist.1))
  · next h => simp [h]

theorem spot_of_locate {p : Path} (hp : d.Straight p) {l : Location} (h : d.locate p = .ok l) :
    l = d.spot p := ((locate_eq_ok_iff hp).mp h).2.2

theorem entry_eq_ok_iff_spot {p : Path} (hp : d.Straight p) {e : Item} :
    d.entry p = .ok e ↔
      p.Usable ∧ (∀ m ∈ d.way p, d.get? m = some .folder) ∧ d.get? (d.spot p) = some e := by
  rw [entry_eq_ok_iff]
  constructor
  · intro h
    obtain ⟨l, hl, he⟩ := h
    obtain ⟨husable, hway, rfl⟩ := (locate_eq_ok_iff hp).mp hl
    exact ⟨husable, hway, he⟩
  · intro h
    exact ⟨_, (locate_eq_ok_iff hp).mpr ⟨h.1, h.2.1, rfl⟩, h.2.2⟩

theorem get?_of_entry {p : Path} (hp : d.Straight p) {e : Item} (h : d.entry p = .ok e) :
    d.get? (d.spot p) = some e := ((entry_eq_ok_iff_spot hp).mp h).2.2

theorem read_eq_ok_iff {p : Path} {c : Content} : d.read p = .ok c ↔ d.entry p = .ok (.file c) := by
  rw [read, Except.bind_eq_ok_iff]
  constructor
  · intro h
    obtain ⟨e, he, h⟩ := h
    cases e with
    | folder => cases h
    | file content =>
        cases h
        exact he
    | link target => cases h
  · intro h
    exact ⟨_, h, rfl⟩

theorem isFile_of_read {p : Path} {c : Content} (h : d.read p = .ok c) : d.isFile p = true :=
  isFile_iff.mpr ⟨c, read_eq_ok_iff.mp h⟩

theorem nodup_eraseDups (names : List Text) : names.eraseDups.Nodup := by
  induction hn : names.length using Nat.strongRecOn generalizing names with
  | ind n ih =>
      cases names with
      | nil => exact List.nodup_nil
      | cons name names =>
          rw [List.eraseDups_cons, List.nodup_cons, List.mem_eraseDups]
          have hshorter := List.length_filter_le (fun b => !b == name) names
          rw [List.length_cons] at hn
          exact ⟨by simp, ih _ (by omega) _ rfl⟩

theorem nodup_names (d : Disk) (l : Location) : (d.names l).Nodup :=
  (List.mergeSort_perm _ _).nodup_iff.mpr (nodup_eraseDups _)

theorem write_eq_ok_iff {p : Path} {c : Content} :
    write p c d = .ok d' ↔
      ∃ l, d.locate p = .ok l ∧ d.get? l ≠ some .folder ∧ d' = d.put l (.file c) := by
  rw [write, Except.bind_eq_ok_iff]
  refine exists_congr fun l => and_congr_right fun _ => ?_
  split
  · next h => simp [h]
  · next h =>
      have hfolder : d.get? l ≠ some .folder := h
      rw [and_iff_right hfolder, Except.ok.injEq, eq_comm]

theorem makeFolder_eq_ok_iff {p : Path} :
    makeFolder p d = .ok d' ↔
      ∃ l, d.pin p = .ok l ∧ d.get? l = none ∧ d' = d.put l .folder := by
  rw [makeFolder, make, Except.bind_eq_ok_iff]
  refine exists_congr fun l => and_congr_right fun _ => ?_
  split
  · next h => simp [h]
  · next h => simp [h, eq_comm]

/-- A copy is the content of the source, unless it is made onto the source itself. -/
theorem copy_eq_ok_iff {source target : Path} :
    copy source target d = .ok d' ↔
      ∃ a c, d.locate source = .ok a ∧ d.get? a = some (.file c) ∧
        ∃ b, d.locate target = .ok b ∧
          write target (if a = b then .bytes [] else c) d = .ok d' := by
  rw [copy, Except.bind_eq_ok_iff]
  constructor
  · intro h
    obtain ⟨e, he, h⟩ := h
    obtain ⟨a, ha, he⟩ := entry_eq_ok_iff.mp he
    cases e with
    | folder => cases h
    | link t => cases h
    | file c =>
        obtain ⟨a', ha', h⟩ := Except.bind_eq_ok_iff.mp h
        obtain rfl := Except.ok.inj (ha'.symm.trans ha)
        obtain ⟨b, hb, h⟩ := Except.bind_eq_ok_iff.mp h
        exact ⟨a', c, ha, he, b, hb, h⟩
  · intro h
    obtain ⟨a, c, ha, he, b, hb, h⟩ := h
    refine ⟨.file c, entry_eq_ok_iff.mpr ⟨a, ha, he⟩, ?_⟩
    refine Except.bind_eq_ok_iff.mpr ⟨a, ha, ?_⟩
    exact Except.bind_eq_ok_iff.mpr ⟨b, hb, h⟩

theorem ne_nil_of_not_folder {l : Location} (hl : d.get? l ≠ some .folder) : l ≠ [] := by
  intro hnil
  rw [hnil, get?_root] at hl
  exact hl rfl

theorem frame_put {l : Location} {e : Item} (hl : d.get? l ≠ some .folder)
    (hopen : d.WellFormed → d.Open l) (he : ∀ t, e ≠ .link t) : Frame [l] [] d (d.put l e) where
  home := rfl
  device := rfl
  wellFormed hd := hd.put (hopen hd) hl
  clean hroots := by
    rw [List.forall_mem_singleton] at hroots ⊢
    intro r t
    rw [get?_put (ne_nil_of_not_folder hl)]
    split
    · exact fun h => he t (Option.some.inj h)
    · exact hroots r t
  outside m hm := by
    have hne := ne_nil_of_not_folder hl
    have hml : m ≠ l := by
      intro heq
      rw [heq, List.forall_mem_singleton] at hm
      exact hm (List.prefix_refl l)
    rw [get?_put hne, if_neg hml]
    exact Or.inl rfl

theorem open_of_locate (hd : d.WellFormed) {p : Path} (hp : d.Straight p) {l : Location}
    (h : d.locate p = .ok l) (hl : d.get? l ≠ some .folder) : d.Open l :=
  (hd.locate_cases hp h).resolve_left hl

theorem frame_write {p : Path} (hp : d.Straight p) {c : Content} (h : write p c d = .ok d') :
    Frame [d.spot p] [] d d' ∧ d'.get? (d.spot p) = some (.file c) := by
  obtain ⟨l, hl, hfolder, rfl⟩ := write_eq_ok_iff.mp h
  rw [← spot_of_locate hp hl]
  refine ⟨frame_put hfolder (fun hd => open_of_locate hd hp hl hfolder) (by simp), ?_⟩
  rw [get?_put (ne_nil_of_not_folder hfolder), if_pos rfl]

/-- A copy changes the target only, which is a file then. -/
theorem frame_copy {source target : Path} (hp : d.Straight target)
    (h : copy source target d = .ok d') :
    Frame [d.spot target] [] d d' ∧ ∃ c, d'.get? (d.spot target) = some (.file c) := by
  obtain ⟨a, c, ha, he, b, hb, h⟩ := copy_eq_ok_iff.mp h
  obtain ⟨hframe, hget⟩ := frame_write hp h
  exact ⟨hframe, _, hget⟩

theorem get?_of_copy {source target : Path} (hs : d.Straight source) (hp : d.Straight target)
    (hne : d.spot source ≠ d.spot target) (h : copy source target d = .ok d') :
    d'.get? (d.spot target) = d.get? (d.spot source) := by
  obtain ⟨a, c, ha, he, b, hb, h⟩ := copy_eq_ok_iff.mp h
  rw [← spot_of_locate hs ha, ← spot_of_locate hp hb] at hne
  rw [(frame_write hp h).2, if_neg hne, ← spot_of_locate hs ha, he]

/-- No folder gives way to a copy. -/
theorem folder_of_copy (hd : d.WellFormed) {source target : Path} (hp : d.Straight target)
    (h : copy source target d = .ok d')
    {m : Location} (hm : d.get? m = some .folder) : d'.get? m = some .folder := by
  obtain ⟨_, _, -, -, b, -, hwrite⟩ := copy_eq_ok_iff.mp h
  obtain ⟨l, hl, hfolder, -⟩ := write_eq_ok_iff.mp hwrite
  obtain rfl := spot_of_locate hp hl
  refine (frame_copy hp h).1.some_of_some ?_ hm
  rw [List.forall_mem_singleton]
  exact fun hin => hfolder (hd.folder_of_prefix hm hin)

/-- A folder is made where nothing is, so no link can be where the path ends. -/
theorem frame_makeFolder {p : Path} (hway : ∀ m ∈ d.way p, d.NoLink m)
    (h : makeFolder p d = .ok d') :
    Frame [] [d.spot p] d d' ∧ d'.get? (d.spot p) = some .folder := by
  obtain ⟨l, hl, hnone, rfl⟩ := makeFolder_eq_ok_iff.mp h
  obtain rfl := ((pin_eq_ok_iff hway).mp hl).2.2
  have hp : d.Straight p := straight_of_noLink hway (by simp [NoLink, hnone])
  rw [pin_eq_locate hp] at hl
  have hfolder : d.get? (d.spot p) ≠ some .folder := by simp [hnone]
  have hne := ne_nil_of_not_folder hfolder
  refine ⟨⟨rfl, rfl, fun hd => hd.put (open_of_locate hd hp hl hfolder) hfolder, ?_, ?_⟩, ?_⟩
  · simp
  · intro m _
    rw [get?_put hne]
    split
    · next hm =>
        rw [hm]
        exact Or.inr ⟨List.mem_singleton_self _, hnone, rfl⟩
    · exact Or.inl rfl
  · rw [get?_put hne, if_pos rfl]

/-! Deleting. -/

theorem frame_remove (l : Location) (d : Disk) : Frame [l] [] d (d.remove l) where
  home := rfl
  device := rfl
  wellFormed hd := by
    by_cases hne : l = []
    · have hget : ∀ m, (d.remove l).get? m = if m = [] then some .folder else none := by
        intro m
        simp [hne, get?, remove]
      constructor
      · intro m e hm name hname
        rw [hget] at hm
        split at hm
        · next hnil =>
            rw [hnil] at hname
            cases hname
        · cases hm
      · intro m name e hm
        rw [hget, if_neg (by simp)] at hm
        cases hm
    · exact hd.remove hne
  clean hroots := by
    rw [List.forall_mem_singleton] at hroots ⊢
    intro r t ht
    by_cases hne : l = []
    · simp [hne, get?, remove] at ht
    · rw [get?_remove hne, if_pos (List.prefix_append l r)] at ht
      cases ht
  outside m hm := by
    rw [List.forall_mem_singleton] at hm
    have hne : l ≠ [] := by
      intro hnil
      rw [hnil] at hm
      exact hm List.nil_prefix
    rw [get?_remove hne, if_neg hm]
    exact Or.inl rfl

theorem frame_clear (l : Location) (d : Disk) : Frame [l] [] d (d.clear l) where
  home := rfl
  device := rfl
  wellFormed hd := hd.clear l
  clean hroots := by
    rw [List.forall_mem_singleton] at hroots ⊢
    intro r t
    rw [get?_clear]
    split
    · simp
    · exact hroots r t
  outside m hm := by
    rw [List.forall_mem_singleton] at hm
    rw [get?_clear, if_neg fun hin => hm hin.1]
    exact Or.inl rfl

theorem removeFolder_eq_ok_iff {p : Path} :
    removeFolder p d = .ok d' ↔ endsInNoName p = false ∧
      ∃ l, d.aim p = .ok l ∧ d.get? l = some .folder ∧ d' = d.remove l := by
  have hnamed : endsInNoName p = false ↔
      p.lastSegment ≠ [] ∧ p.lastSegment ≠ ['.'] ∧ p.lastSegment ≠ ['.', '.'] := by
    simp [endsInNoName, Path.isIdle, and_assoc]
  rw [removeFolder, Except.bind_eq_ok_iff, hnamed]
  constructor
  · intro h
    obtain ⟨above, habove, h⟩ := h
    split at h
    · cases h
    · next hnil =>
        split at h
        · cases h
        · next hdot =>
            split at h
            · cases h
            · next hdots =>
                obtain ⟨l, hl, h⟩ := Except.bind_eq_ok_iff.mp h
                refine ⟨⟨hnil, hdot, hdots⟩, l, ?_⟩
                split at h
                · next hfolder =>
                    refine ⟨Except.bind_eq_ok_iff.mpr ⟨above, habove, hl⟩, hfolder, ?_⟩
                    exact (Except.ok.inj h).symm
                · cases h
                · cases h
  · intro h
    obtain ⟨⟨hnil, hdot, hdots⟩, l, hl, hfolder, rfl⟩ := h
    obtain ⟨above, habove, hl⟩ := Except.bind_eq_ok_iff.mp hl
    refine ⟨above, habove, ?_⟩
    rw [if_neg hnil, if_neg hdot, if_neg hdots]
    refine Except.bind_eq_ok_iff.mpr ⟨l, hl, ?_⟩
    rw [hfolder]

theorem removeFolder_eq_ok {p : Path} (hway : ∀ m ∈ d.way p, d.NoLink m)
    (h : removeFolder p d = .ok d') :
    d.spot p ≠ [] ∧ d' = d.remove (d.spot p) := by
  obtain ⟨hnamed, l, hl, -, rfl⟩ := removeFolder_eq_ok_iff.mp h
  obtain ⟨-, -, rfl⟩ := (aim_eq_ok_iff hway hnamed).mp hl
  refine ⟨?_, rfl⟩
  rw [spot_eq_placeAbove hnamed]
  simp

/-- A folder to which a path leads that ends in a name can be deleted. -/
theorem removeFolder_of_locate {p : Path} (hs : d.Straight p) (hp : endsInNoName p = false)
    (hl : d.locate p = .ok (d.spot p)) (hfolder : d.get? (d.spot p) = some .folder) :
    removeFolder p d = .ok (d.remove (d.spot p)) := by
  have hplace := (locate_eq_ok_iff hs).mp hl
  have hshort := hplace.1.names _ (Path.lastSegment_mem hp)
  refine removeFolder_eq_ok_iff.mpr ⟨hp, _, ?_, hfolder, rfl⟩
  refine Except.bind_eq_ok_iff.mpr ⟨_, locateAbove_of_locate hs hl, ?_⟩
  refine step_eq_ok_iff.mpr ⟨hplace.2.1 _ (placeAbove_mem_way d p), hshort, ?_⟩
  rw [enter_of_plain (Path.plain_lastSegment hp), spot_eq_placeAbove hp]

/-- A folder to which a path leads is found, though it may not be possible to delete it. -/
theorem removeFolder_ne_notFound {p : Path} (hs : d.Straight p)
    (hl : d.locate p = .ok (d.spot p)) (hfolder : d.get? (d.spot p) = some .folder) :
      removeFolder p d ≠ .error .notFound := by
  intro h
  cases hp : endsInNoName p with
  | false =>
      rw [removeFolder_of_locate hs hp hl hfolder] at h
      cases h
  | true =>
      rw [removeFolder, locateAbove_of_locate hs hl] at h
      change (if _ then _ else _) = _ at h
      split at h
      · cases h
      · next hnil =>
          split at h
          · cases h
          · next hdot =>
              split at h
              · cases h
              · next hdots => simp [endsInNoName, Path.isIdle, hnil, hdot, hdots] at hp

theorem step_eq_notFound {place : Location} {s : Text} (h : d.step place s = .error .notFound) :
    d.get? place = none := by
  rw [step] at h
  split at h
  · next hplace => exact hplace
  · split at h
    · cases h
    · split at h
      · cases h
      · split at h
        · cases h
        · cases h
  · cases h

theorem foldlM_step_eq_notFound {segments : List Text} {place : Location}
    (h : segments.foldlM d.step place = .error .notFound) :
    ∃ m ∈ trail place segments, d.get? m = none := by
  induction segments generalizing place with
  | nil => cases h
  | cons s segments ih =>
      rw [List.foldlM_cons] at h
      cases hstep : d.step place s with
      | error e =>
          rw [hstep] at h
          obtain rfl : e = .notFound := Except.error.inj h
          exact ⟨place, List.mem_cons_self, step_eq_notFound hstep⟩
      | ok l =>
          rw [hstep] at h
          obtain ⟨m, hm, hnone⟩ := ih h
          rw [(step_eq_ok_iff.mp hstep).2.2] at hm
          exact ⟨m, List.mem_cons_of_mem place hm, hnone⟩

/-- A path is not found because something on its way is missing. -/
theorem missing_of_notFound {p : Path} (hs : d.Straight p) (hp : p ≠ [])
    (h : d.locate p = .error .notFound) : ∃ m ∈ d.way p, d.get? m = none := by
  rw [← pin_eq_locate hs, pin, walk] at h
  split at h
  · cases h
  · split at h
    · cases h
    · rw [← start, follow_of_noLink hs.way (by simp)] at h
      exact foldlM_step_eq_notFound h

namespace Act

theorem change_eq_ok_iff {f : Disk → Except DiskFault Disk} :
    change f d = (.ok (), d') ↔ f d = .ok d' := by
  rw [change]
  constructor
  · intro h
    split at h
    · next hf =>
        cases h
        exact hf
    · cases h
  · intro h
    rw [h]

theorem eq_of_change_error {f : Disk → Except DiskFault Disk} {e : DiskFault}
    (h : change f d = (.error e, d')) : d' = d := by
  rw [change] at h
  split at h
  · cases h
  · cases h
    rfl

section

variable {α β : Type} {roots made : List Location}

theorem frame_bind {x : Act α} {f : α → Act β} (hx : Frame roots made d (x d).2)
    (hf : ∀ a d₁, x d = (.ok a, d₁) → Frame roots made d d₁ → Frame roots made d₁ (f a d₁).2) :
    Frame roots made d ((x >>= f) d).2 :=
  Work.bind_within (P := Frame roots made d) (R := Frame roots made) (fun _ _ _ => Frame.trans)
    (fun _ _ => Frame.trans) (.refl _ _ _) hx hf

theorem frame_forM {f : α → Act PUnit} {xs : List α}
    (hf : ∀ a ∈ xs, ∀ d₁, Frame roots made d d₁ → Frame roots made d₁ (f a d₁).2) :
    Frame roots made d (xs.forM f d).2 :=
  Work.forM_within (P := Frame roots made d) (R := Frame roots made) (fun _ _ _ => Frame.trans)
    (fun _ _ => Frame.trans) (.refl _ _) hf (.refl _ _ _)

end

theorem look_eq_ok_iff {α : Type} {f : Disk → Except DiskFault α} {a : α} :
    look f d = (.ok a, d') ↔ f d = .ok a ∧ d = d' := by
  rw [look]
  exact Prod.mk.injEq _ _ _ _ ▸ Iff.rfl

theorem frame_change {roots made : List Location} {f : Disk → Except DiskFault Disk}
    (h : ∀ d', f d = .ok d' → Frame roots made d d') : Frame roots made d (change f d).2 := by
  rw [change]
  split
  · next hf => exact h _ hf
  · exact .refl roots made d

/-- Clearing a folder makes no links. -/
theorem noLink_clear {m : Location} (hm : d.NoLink m) (l : Location) : (d.clear l).NoLink m := by
  intro t
  rw [get?_clear]
  split
  · simp
  · exact hm t

theorem way_clear {p : Path} (hway : ∀ m ∈ d.way p, d.NoLink m) {l : Location} :
    ∀ m ∈ (d.clear l).way p, (d.clear l).NoLink m := by
  rw [(frame_clear l d).way]
  exact fun m hm => noLink_clear (hway m hm) l

theorem straight_clear {p : Path} (hp : d.Direct p) (l : Location) : (d.clear l).Straight p := by
  refine straight_of_noLink (way_clear hp.way) ?_
  rw [(frame_clear l d).spot]
  exact noLink_clear hp.clean.noLink l

/-- What is deleted may be a link, or have links below it. -/
theorem frame_delete {p : Path} (hway : ∀ m ∈ d.way p, d.NoLink m) :
    Frame [d.spot p] [] d (delete p d).2 := by
  rw [delete]
  split
  · exact .refl _ _ _
  · exact .refl _ _ _
  · next l hl =>
      obtain rfl := ((pin_eq_ok_iff hway).mp hl).2.2
      split
      · exact .refl _ _ _
      · have hclear := frame_clear (d.spot p) d
        dsimp only
        split
        · next hremoved =>
            rw [(removeFolder_eq_ok (way_clear hway) hremoved).2, hclear.spot]
            exact hclear.trans (frame_remove _ _)
        · exact hclear
        · exact hclear
      · exact frame_remove _ d

/-- What lies below a folder is not on the way to it. -/
theorem locate_clear {p : Path} (hp : d.Direct p) (hl : d.locate p = .ok (d.spot p))
    (hfolder : d.get? (d.spot p) = some .folder)
    (hway : ∀ m ∈ d.way p, m = d.spot p ∨ ¬ d.spot p <+: m) :
    (d.clear (d.spot p)).locate p = .ok (d.spot p) := by
  have hclear := frame_clear (d.spot p) d
  obtain ⟨husable, hopen, -⟩ := (locate_eq_ok_iff hp.straight).mp hl
  refine (locate_eq_ok_iff (straight_clear hp _)).mpr ⟨husable, ?_, (hclear.spot p).symm⟩
  intro m hm
  rw [hclear.way] at hm
  cases hway m hm with
  | inl hspot => rw [hspot, get?_clear, if_neg fun hin => hin.2 rfl, hfolder]
  | inr houtside => rw [get?_clear, if_neg fun hin => houtside hin.1, hopen m hm]

/-- A deletion that succeeds leaves nothing, provided that the way to the place is open and does not
lead through what is deleted. -/
theorem none_of_delete {p : Path} (hd : d.WellFormed) (hdirect : d.Direct p) (hp : p ≠ [])
    (hway : ∀ m ∈ d.way p, m = d.spot p ∨ d.get? m = some .folder ∧ ¬ d.spot p <+: m)
    (h : delete p d = (.ok (), d')) (r : Location) : d'.get? (d.spot p ++ r) = none := by
  have hprefix := List.prefix_append (d.spot p) r
  have hp' := hdirect.straight
  rw [delete, pin_eq_locate hp'] at h
  split at h
  · next hl =>
      cases h
      obtain ⟨m, hm, hnone⟩ := missing_of_notFound hp' hp hl
      cases hway m hm with
      | inl hspot => exact hd.none_of_prefix (hspot ▸ hnone) hprefix
      | inr hfolder => simp [hnone] at hfolder
  · cases h
  · next l hl =>
      obtain rfl := spot_of_locate hp' hl
      split at h
      · next hnone =>
          cases h
          exact hd.none_of_prefix hnone hprefix
      · next hfolder =>
          have hclear := frame_clear (d.spot p) d
          dsimp only at h
          split at h
          · next hremoved =>
              cases h
              obtain ⟨hne, rfl⟩ := removeFolder_eq_ok (way_clear hdirect.way) hremoved
              rw [get?_remove hne, hclear.spot, if_pos hprefix]
          · next hmissing =>
              have hopen := locate_clear hdirect hl hfolder fun m hm =>
                (hway m hm).imp_right And.right
              rw [← hclear.spot p] at hopen
              refine absurd hmissing (removeFolder_ne_notFound (straight_clear hdirect _) hopen ?_)
              rw [hclear.spot, get?_clear, if_neg fun hin => hin.2 rfl, hfolder]
          · cases h
      · next e hfolder he =>
          cases h
          have hne : d.spot p ≠ [] := by
            intro hnil
            rw [hnil, get?_root] at he
            exact hfolder (Option.some.inj he).symm
          rw [get?_remove hne, if_pos hprefix]

/-- What a path leads to that ends in a name can be deleted. -/
theorem delete_of_neat {p : Path} (hdirect : d.Direct p) (hp : p.Neat) (husable : p.Usable)
    (hway : ∀ m ∈ d.way p, d.get? m = some .folder ∧ ¬ d.spot p <+: m) :
    ∃ d', delete p d = (.ok (), d') := by
  have hl : d.locate p = .ok (d.spot p) :=
    (locate_eq_ok_iff hdirect.straight).mpr ⟨husable, fun m hm => (hway m hm).1, rfl⟩
  rw [delete, pin_eq_locate hdirect.straight, hl]
  dsimp only
  split
  · exact ⟨_, rfl⟩
  · next he =>
      have hclear := frame_clear (d.spot p) d
      have hopen := locate_clear hdirect hl he fun m hm => Or.inr (hway m hm).2
      rw [← hclear.spot p] at hopen
      have hfolder : (d.clear (d.spot p)).get? ((d.clear (d.spot p)).spot p) = some .folder := by
        rw [hclear.spot, get?_clear, if_neg fun hin => hin.2 rfl, he]
      rw [removeFolder_of_locate (straight_clear hdirect (d.spot p)) hp.named hopen hfolder]
      exact ⟨_, rfl⟩
  · exact ⟨_, rfl⟩

theorem delete_of_read {p : Path} (hp : d.Straight p) {c : Content} (h : d.read p = .ok c) :
    delete p d = (.ok (), d.remove (d.spot p)) := by
  obtain ⟨l, hl, hfile⟩ := entry_eq_ok_iff.mp (read_eq_ok_iff.mp h)
  obtain rfl := spot_of_locate hp hl
  simp only [delete, pin_eq_locate hp, hl, hfile]

/-- A file is deleted, or nothing changes. -/
theorem delete_of_file {p : Path} (hp : d.Straight p) {c : Content}
    (hfile : d.get? (d.spot p) = some (.file c)) :
    (∀ m ∈ d.way p, d.get? m = some .folder) ∧ delete p d = (.ok (), d.remove (d.spot p)) ∨
      (delete p d).2 = d := by
  rw [delete, pin_eq_locate hp]
  split
  · exact Or.inr rfl
  · exact Or.inr rfl
  · next l hl =>
      obtain ⟨-, hway, rfl⟩ := (locate_eq_ok_iff hp).mp hl
      rw [hfile]
      exact Or.inl ⟨hway, rfl⟩

/-! Finding entries. -/

/-- A name with one of these extensions in any case. -/
def Matches (extensions : List Text) (name : Text) : Prop :=
  ∃ extension, Path.extension? name = some extension ∧
    extensions.any (Text.sameIgnoringCase extension) = true

instance (extensions : List Text) (name : Text) : Decidable (Matches extensions name) :=
  decidable_of_iff
    ((Path.extension? name).any (fun e => extensions.any (Text.sameIgnoringCase e)) = true)
    (by rw [Option.any_eq_true, Matches])

theorem filesWithExtension_eq_filter {extensions : List Text} {folder : Path}
    (hp : d.Straight folder) {names : List Text}
    (h : filesWithExtension extensions folder d = (.ok names, d')) :
    d = d' ∧ names = (d.names (d.spot folder)).filter fun n =>
      decide (Matches extensions n) && d.isFile (folder.join n) := by
  obtain ⟨hlook, rfl⟩ := look_eq_ok_iff.mp h
  obtain ⟨all, hlist, hfound⟩ := Except.bind_eq_ok_iff.mp hlook
  obtain ⟨l, hl, -, rfl⟩ := list_eq_ok_iff.mp hlist
  obtain rfl := spot_of_locate hp hl
  obtain rfl := Except.ok.inj hfound
  refine ⟨rfl, List.filter_congr fun n _ => congrArg (· && d.isFile (folder.join n)) ?_⟩
  rw [Bool.eq_iff_iff, decide_eq_true_iff, Matches]
  cases Path.extension? n with
  | none => simp
  | some extension => simp

theorem filesWithExtension_eq_ok {extensions : List Text} {folder : Path}
    (hp : d.Straight folder) {names : List Text}
    (h : filesWithExtension extensions folder d = (.ok names, d')) :
    d = d' ∧ ∀ n ∈ names, n ∈ d.names (d.spot folder) ∧ Matches extensions n := by
  obtain ⟨hdisk, rfl⟩ := filesWithExtension_eq_filter hp h
  refine ⟨hdisk, ?_⟩
  intro n hn
  obtain ⟨hmem, hmatch⟩ := List.mem_filter.mp hn
  exact ⟨hmem, of_decide_eq_true (Bool.and_eq_true_iff.mp hmatch).1⟩

theorem firstFolder?_eq_ok {folder : Path} (hp : d.Straight folder) {first : Option Path}
    (h : firstFolder? folder d = (.ok first, d')) :
    d = d' ∧ ∀ p, first = some p → ∃ n ∈ d.names (d.spot folder), p = folder.join n ∧
      d.isFolder p := by
  obtain ⟨hlook, rfl⟩ := look_eq_ok_iff.mp h
  obtain ⟨all, hlist, hfound⟩ := Except.bind_eq_ok_iff.mp hlook
  obtain ⟨l, hl, -, rfl⟩ := list_eq_ok_iff.mp hlist
  obtain rfl := spot_of_locate hp hl
  obtain rfl := Except.ok.inj hfound
  refine ⟨rfl, ?_⟩
  intro p hp
  obtain ⟨n, hn, rfl⟩ := List.mem_map.mp (List.mem_of_find?_eq_some hp)
  exact ⟨n, hn, rfl, List.find?_some hp⟩

/-! Making folders. -/

theorem frame_ensureFolder {p : Path} (hway : ∀ m ∈ d.way p, d.NoLink m) :
    Frame [] [d.spot p] d (ensureFolder p d).2 := by
  rw [ensureFolder]
  apply frame_change
  intro d' h
  split at h
  · split at h
    · cases h
      exact .refl _ _ _
    · cases h
  · exact (frame_makeFolder hway h).1

theorem folder_of_ensureFolder {p : Path} (hp : d.Straight p)
    (h : ensureFolder p d = (.ok (), d')) :
    d'.get? (d.spot p) = some .folder := by
  rw [ensureFolder, change_eq_ok_iff] at h
  split at h
  · split at h
    · next hfolder =>
        cases h
        exact get?_of_entry hp (isFolder_iff.mp hfolder)
    · cases h
  · exact (frame_makeFolder hp.way h).2

theorem frame_ensureChain {ps : List Path} (hways : ∀ p ∈ ps, ∀ m ∈ d.way p, d.NoLink m) :
    Frame [] (ps.map d.spot) d (ensureChain ps d).2 := by
  induction ps generalizing d with
  | nil => exact .refl _ _ _
  | cons p above ih =>
      have hfirst : Frame [] ((p :: above).map d.spot) d (ensureFolder p d).2 :=
        (frame_ensureFolder (hways p List.mem_cons_self)).mono (by simp) (by simp)
      rw [ensureChain]
      split
      · exact .refl _ _ _
      · rw [Work.tryCatch_apply]
        split
        · next h =>
            rw [h] at hfirst
            exact hfirst
        · next e d₁ h =>
            rw [h] at hfirst
            split
            · have hways₁ : ∀ p ∈ above, ∀ m ∈ d₁.way p, d₁.NoLink m := by
                intro q hq m hm
                rw [hfirst.way] at hm
                exact hfirst.noLink (by simp) (hways q (List.mem_cons_of_mem p hq) m hm)
              have habove : Frame [] ((p :: above).map d.spot) d₁ (ensureChain above d₁).2 := by
                refine (ih hways₁).mono (by simp) ?_
                rw [funext hfirst.spot]
                exact List.subset_cons_self _ _
              refine hfirst.trans (frame_bind habove ?_)
              intro _ d₂ _ hchain
              have hboth := hfirst.trans hchain
              have hway : ∀ m ∈ d₂.way p, d₂.NoLink m := by
                intro m hm
                rw [hboth.way] at hm
                exact hboth.noLink (by simp) (hways p List.mem_cons_self m hm)
              refine (frame_ensureFolder hway).mono (by simp) ?_
              rw [hboth.spot]
              simp
            · exact hfirst

/-- Making folders changes nothing but that some are made, of the path and those above it. -/
theorem frame_ensureFolders {p : Path} (hway : ∀ m ∈ d.way p, d.NoLink m) :
    Frame [] (p.ancestors.map d.spot) d (ensureFolders p d).2 :=
  frame_ensureChain fun _ hq m hm => hway m ((ancestors_lead d hq).2 m hm)

theorem folder_of_ensureFolders {p : Path} (hp : d.Direct p) (hne : p ≠ [])
    (h : ensureFolders p d = (.ok (), d')) : d'.get? (d.spot p) = some .folder := by
  obtain ⟨above, habove⟩ : ∃ above, p.ancestors = p :: above := ⟨_, rfl⟩
  rw [ensureFolders, habove, ensureChain, if_neg hne, Work.tryCatch_apply] at h
  split at h
  · next hfirst =>
      rw [h] at hfirst
      exact folder_of_ensureFolder hp.straight hfirst
  · next e d₁ hfirst =>
      have hframe := frame_ensureFolder hp.way
      rw [hfirst] at hframe
      have hp₁ := hframe.direct (by simp) hp
      split at h
      · obtain ⟨_, d₂, hchain, h⟩ := Work.bind_eq_ok_iff.mp h
        have hways : ∀ q ∈ above, ∀ m ∈ d₁.way q, d₁.NoLink m := by
          intro q hq m hm
          refine hp₁.way m ((ancestors_lead d₁ ?_).2 m hm)
          rw [habove]
          exact List.mem_cons_of_mem p hq
        have hframe' := frame_ensureChain hways
        rw [hchain] at hframe'
        rw [← hframe.spot, ← hframe'.spot]
        exact folder_of_ensureFolder (hframe'.direct (by simp) hp₁).straight h
      · cases h

end Act
end ChartPackage.Disk
