import Mathlib
import ChartPackage.Proofs.Disk.Changes

/-!
Disks that look alike. What a look at a disk finds and what a change does to it follow from what
lies at the places that the paths lead through, and from nothing else of the table; so where the
same lies at these places, two disks answer alike and stay alike.
-/

namespace ChartPackage

namespace Text

theorem inOrder_total (s t : Text) : inOrder s t = true ∨ inOrder t s = true := by
  induction s generalizing t with
  | nil => exact Or.inl rfl
  | cons c s ih =>
      cases t with
      | nil => exact Or.inr rfl
      | cons d t =>
          rw [inOrder, inOrder]
          by_cases h : c = d
          · rw [if_pos h, if_pos h.symm]
            exact ih t
          · rw [if_neg h, if_neg (Ne.symm h), decide_eq_true_iff, decide_eq_true_iff]
            exact Nat.le_total _ _

theorem eq_of_toNat_le {c d : Char} (h : c.toNat ≤ d.toNat) (h' : d.toNat ≤ c.toNat) : c = d :=
  Char.toNat_inj.mp (Nat.le_antisymm h h')

theorem inOrder_antisymm {s t : Text} (h : inOrder s t = true) (h' : inOrder t s = true) :
    s = t := by
  induction s generalizing t with
  | nil =>
      cases t with
      | nil => rfl
      | cons d t => cases h'
  | cons c s ih =>
      cases t with
      | nil => cases h
      | cons d t =>
          rw [inOrder] at h h'
          by_cases heq : c = d
          · rw [if_pos heq] at h
            rw [if_pos heq.symm] at h'
            rw [heq, ih h h']
          · rw [if_neg heq, decide_eq_true_iff] at h
            rw [if_neg (Ne.symm heq), decide_eq_true_iff] at h'
            exact absurd (eq_of_toNat_le h h') heq

theorem inOrder_trans {s t u : Text} (h : inOrder s t = true) (h' : inOrder t u = true) :
    inOrder s u = true := by
  induction s generalizing t u with
  | nil => rfl
  | cons c s ih =>
      cases t with
      | nil => cases h
      | cons d t =>
          cases u with
          | nil => cases h'
          | cons e u =>
              rw [inOrder] at h h' ⊢
              by_cases hcd : c = d
              · subst hcd
                rw [if_pos rfl] at h
                by_cases hce : c = e
                · rw [if_pos hce] at h' ⊢
                  exact ih h h'
                · rw [if_neg hce] at h' ⊢
                  exact h'
              · rw [if_neg hcd, decide_eq_true_iff] at h
                by_cases hde : d = e
                · subst hde
                  rw [if_neg hcd, decide_eq_true_iff]
                  exact h
                · rw [if_neg hde, decide_eq_true_iff] at h'
                  have hce : c ≠ e := fun heq => hcd (eq_of_toNat_le h (heq ▸ h'))
                  rw [if_neg hce, decide_eq_true_iff]
                  exact h.trans h'

end Text

namespace Disk

variable {seen : Location → Prop} {d d' : Disk} {p : Path}

/-- The same lies at every place that is seen. -/
structure Alike (seen : Location → Prop) (d d' : Disk) : Prop where
  home : d'.home = d.home
  device : d'.device = d.device
  same : ∀ m, seen m → d'.get? m = d.get? m

/-- A path that leads to the same place of two disks. -/
structure Tracked (d d' : Disk) (p : Path) : Prop where
  locate : d'.locate p = d.locate p
  pin : d'.pin p = d.pin p
  locateAbove : d'.locateAbove p = d.locateAbove p

/-! ### Looking -/

theorem names_sorted (d : Disk) (l : Location) :
    (d.names l).Pairwise fun m n => Text.inOrder m n = true :=
  @List.pairwise_mergeSort Text Text.inOrder (fun _ _ _ => Text.inOrder_trans)
    (fun m n => Bool.or_eq_true_iff.mpr (Text.inOrder_total m n)) _

theorem step_congr {place : Location} (h : d'.get? place = d.get? place) (segment : Text) :
    d'.step place segment = d.step place segment := by
  rw [step, step, h]

theorem foldlM_step_congr {segments : List Text} {place : Location}
    (h : ∀ m ∈ trail place segments, d'.get? m = d.get? m) :
    segments.foldlM d'.step place = segments.foldlM d.step place := by
  induction segments generalizing place with
  | nil => rfl
  | cons s segments ih =>
      rw [trail, List.forall_mem_cons] at h
      rw [List.foldlM_cons, List.foldlM_cons, step_congr h.1]
      cases hplace : d.step place s with
      | error e => rfl
      | ok l =>
          obtain ⟨-, -, rfl⟩ := step_eq_ok_iff.mp hplace
          exact ih h.2

theorem advance_congr (h : ∀ m, d'.get? m = d.get? m) (place : Location) (segments : List Text) :
    d'.advance place segments = d.advance place segments := by
  induction segments generalizing place with
  | nil => rfl
  | cons s segments ih =>
      rw [advance, advance, h, step_congr (h place)]
      split
      · rfl
      · cases d.step place s with
        | error e => rfl
        | ok l => exact ih l

/-- Links are followed by what lies where, and by nothing else of a disk. -/
theorem follow_congr (h : ∀ m, d'.get? m = d.get? m) (last : Bool) (budget : Nat) (place : Location)
    (segments : List Text) :
    d'.follow last budget place segments = d.follow last budget place segments := by
  induction budget generalizing place segments with
  | zero => rfl
  | succ budget ih =>
      rw [follow, follow, advance_congr h]
      cases d.advance place segments with
      | error e => rfl
      | ok stop =>
          obtain ⟨l, rest⟩ := stop
          dsimp only [bind, Except.bind]
          rw [h]
          split
          · rw [ih]
          · rfl

theorem walk_congr (hhome : d'.home = d.home) (h : ∀ m, d'.get? m = d.get? m) (last : Bool)
    (p : Path) (segments : List Text) : d'.walk last p segments = d.walk last p segments := by
  rw [walk, walk, hhome, follow_congr h]

namespace Alike

theorem start (h : Alike seen d d') (p : Path) : d'.start p = d.start p := by
  rw [Disk.start, Disk.start, h.home]

theorem spot (h : Alike seen d d') (p : Path) : d'.spot p = d.spot p := by
  rw [Disk.spot, Disk.spot, h.start]

theorem way (h : Alike seen d d') (p : Path) : d'.way p = d.way p := by
  rw [Disk.way, Disk.way, h.start]

theorem noLink (h : Alike seen d d') {m : Location} (hm : seen m) (hlink : d.NoLink m) :
    d'.NoLink m := by
  intro t
  rw [h.same m hm]
  exact hlink t

theorem walk (h : Alike seen d d') {last : Bool} {segments : List Text}
    (hway : ∀ m ∈ trail (d.start p) segments, seen m ∧ d.NoLink m)
    (hlast : last = true → d.NoLink (segments.foldl enter (d.start p)) ∧
      d'.NoLink (segments.foldl enter (d.start p))) :
    d'.walk last p segments = d.walk last p segments := by
  have hway' : ∀ m ∈ trail (d.start p) segments, d'.NoLink m :=
    fun m hm => h.noLink (hway m hm).1 (hway m hm).2
  have hsteps := foldlM_step_congr fun m hm => h.same m (hway m hm).1
  have hend : ∀ l, segments.foldlM d.step (d.start p) = .ok l →
      l = segments.foldl enter (d.start p) := fun l hl => (foldlM_step_eq_ok_iff.mp hl).2.2
  have hstart : (if p.IsAbsolute then [] else d.home) = d.start p := rfl
  rw [Disk.walk, Disk.walk, h.home, hstart, follow_of_noLink (fun m hm => (hway m hm).2)
    (fun hl l hplace => hend l hplace ▸ (hlast hl).1), follow_of_noLink hway'
    (fun hl l hplace => hend l (hsteps ▸ hplace) ▸ (hlast hl).2), hsteps]

theorem pin (h : Alike seen d d') (hway : ∀ m ∈ d.way p, seen m ∧ d.NoLink m) :
    d'.pin p = d.pin p := h.walk hway (by simp)

theorem straight (h : Alike seen d d') (hway : ∀ m ∈ d.way p, seen m) (hp : d.Straight p)
    (hlink : d'.isLink p = false) : d'.Straight p :=
  ⟨fun m hm => h.noLink (hway m (h.way p ▸ hm)) (hp.way m (h.way p ▸ hm)), hlink⟩

/-- A path whose way is seen, and on which no link lies, leads to the same place. -/
theorem tracked (h : Alike seen d d') (hway : ∀ m ∈ d.way p, seen m) (hp : d.Straight p)
    (hlink : d'.isLink p = false) : Tracked d d' p := by
  have hopen : ∀ m ∈ d.way p, seen m ∧ d.NoLink m := fun m hm => ⟨hway m hm, hp.way m hm⟩
  have hplace : ((p.segments.filter (· ≠ [])).dropLast ++ [['.']]).foldl enter (d.start p) =
      d.placeAbove p := by
    rw [List.foldl_append, List.foldl_cons, List.foldl_nil, enter_of_idle (by decide), placeAbove,
      Path.above]
  have hend := hopen _ (placeAbove_mem_way d p)
  constructor
  · rw [← pin_eq_locate hp, ← pin_eq_locate (h.straight hway hp hlink), h.pin hopen]
  · exact h.pin hopen
  · refine h.walk (fun m hm => hopen m (trail_above_subset d p hm)) fun _ => ?_
    rw [hplace]
    exact ⟨hend.2, h.noLink hend.1 hend.2⟩

/-- On disks on which the same lies everywhere all paths lead to the same places. -/
theorem tracked_all (h : Alike (fun _ => True) d d') (p : Path) : Tracked d d' p :=
  have hget m := h.same m trivial
  ⟨walk_congr h.home hget _ p _, walk_congr h.home hget _ p _, walk_congr h.home hget _ p _⟩

theorem entry (h : Alike seen d d') (hp : Tracked d d' p)
    (hseen : ∀ l, d.locate p = .ok l → seen l) : d'.entry p = d.entry p := by
  rw [Disk.entry, Disk.entry, hp.locate]
  cases hl : d.locate p with
  | error e => rfl
  | ok l =>
      change d'.itemAt l = d.itemAt l
      rw [itemAt, itemAt, h.same l (hseen l hl)]

theorem names (h : Alike seen d d') {l : Location} (hl : ∀ n, seen (l ++ [n])) :
    d'.names l = d.names l := by
  have hmem : ∀ n, n ∈ d'.names l ↔ n ∈ d.names l := by
    intro n
    rw [mem_names, mem_names, h.same _ (hl n)]
  have hperm := (List.perm_ext_iff_of_nodup (nodup_names d' l) (nodup_names d l)).mpr hmem
  exact hperm.eq_of_pairwise (fun _ _ _ _ => Text.inOrder_antisymm) (names_sorted d' l)
    (names_sorted d l)

end Alike

/-! ### Changes -/

/-- Two changes that end alike, or are refused alike. -/
inductive AlikeEnd (seen : Location → Prop) :
    Except DiskFault Disk → Except DiskFault Disk → Prop where
  | ok {d d' : Disk} (h : Alike seen d d') : AlikeEnd seen (.ok d) (.ok d')
  | error (e : DiskFault) : AlikeEnd seen (.error e) (.error e)

theorem AlikeEnd.bind {α : Type} {x x' : Except DiskFault α}
    {f f' : α → Except DiskFault Disk} (hx : x' = x)
    (hf : ∀ a, x = .ok a → AlikeEnd seen (f a) (f' a)) : AlikeEnd seen (x >>= f) (x' >>= f') := by
  subst hx
  cases x' with
  | error e => exact .error e
  | ok a => exact hf a rfl

namespace Alike

theorem put (h : Alike seen d d') (l : Location) (e : Item) :
    Alike seen (d.put l e) (d'.put l e) where
  home := h.home
  device := h.device
  same m hm := by
    have hget : ∀ d : Disk, (d.put l e).get? m = if m = [] then some .folder else if m =
        l then some e else d.get? m := by
      intro d
      by_cases hroot : m = []
      · rw [hroot, get?_root, if_pos rfl]
      · rw [if_neg hroot]
        by_cases hl : l = []
        · have hothers := lookup_filter (fun k => decide (k ≠ [])) m d.entries
          rw [hl, if_neg hroot, Disk.get?, Disk.get?, if_neg hroot, if_neg hroot, Disk.put,
            List.lookup_cons,
            beq_eq_false_iff_ne.mpr hroot, hothers, if_pos (by simpa using hroot)]
        · exact get?_put hl e d m
    rw [hget, hget, h.same m hm]

theorem remove (h : Alike seen d d') (l : Location) : Alike seen (d.remove l) (d'.remove l) where
  home := h.home
  device := h.device
  same m hm := by
    have hget : ∀ d : Disk, (d.remove l).get? m = if m = [] then some .folder else if l <+:
        m then none else d.get? m := by
      intro d
      by_cases hroot : m = []
      · rw [hroot, get?_root, if_pos rfl]
      · have hothers := lookup_filter (fun k => decide (¬ l <+: k)) m d.entries
        rw [if_neg hroot, Disk.get?, Disk.get?, if_neg hroot, if_neg hroot, Disk.remove, hothers]
        simp
    rw [hget, hget, h.same m hm]

theorem clear (h : Alike seen d d') (l : Location) : Alike seen (d.clear l) (d'.clear l) where
  home := h.home
  device := h.device
  same m hm := by rw [get?_clear, get?_clear, h.same m hm]

theorem move (h : Alike seen d d') {a b : Location} (ha : a ≠ []) (hb : b ≠ [])
    (hseen : ∀ r, seen (a ++ r)) :
    Alike seen (d.move a b) (d'.move a b) where
  home := h.home
  device := h.device
  same m hm := by rw [get?_move ha hb, get?_move ha hb, h.same m hm, h.same _ (hseen _)]

theorem write (h : Alike seen d d') (c : Content) (hp : Tracked d d' p)
    (hseen : ∀ l, d.locate p = .ok l → seen l) :
    AlikeEnd seen (write p c d) (write p c d') := by
  refine .bind hp.locate fun l hl => ?_
  rw [h.same l (hseen l hl)]
  split
  · exact .error _
  · exact .ok (h.put _ _)

theorem make (h : Alike seen d d') (e : Item) (hp : Tracked d d' p)
    (hseen : ∀ l, d.pin p = .ok l → seen l) : AlikeEnd seen (make p e d) (make p e d') := by
  refine .bind hp.pin fun l hl => ?_
  rw [h.same l (hseen l hl)]
  split
  · exact .error _
  · exact .ok (h.put _ _)

theorem copy (h : Alike seen d d') {source target : Path}
    (hsource : Tracked d d' source) (hfrom : ∀ l, d.locate source = .ok l → seen l)
    (htarget : Tracked d d' target) (hto : ∀ l, d.locate target = .ok l → seen l) :
    AlikeEnd seen (copy source target d) (copy source target d') := by
  refine .bind (h.entry hsource hfrom) fun e _ => ?_
  cases e with
  | folder => exact .error _
  | link t => exact .error _
  | file c =>
      exact .bind hsource.locate fun a _ => .bind htarget.locate fun b _ => h.write _ htarget hto

theorem mayReplace (h : Alike seen d d') (a : Location) {b : Location} (e : Item)
    (hb : ∀ r, seen (b ++ r)) :
    d'.mayReplace a b e = d.mayReplace a b e := by
  have hplace := hb []
  rw [List.append_nil] at hplace
  unfold Disk.mayReplace
  rw [h.same b hplace, h.names fun n => hb [n]]

theorem replace (h : Alike seen d d') {a b : Location} (e : Item) (ha : a ≠ []) (hb : b ≠ [])
    (hseen : ∀ r, seen (a ++ r)) (hseen' : ∀ r, seen (b ++ r)) :
    AlikeEnd seen (if a = b then pure d else do d.mayReplace a b e; pure (d.move a b))
      (if a = b then pure d' else do d'.mayReplace a b e; pure (d'.move a b)) := by
  split
  · exact .ok h
  · exact .bind (h.mayReplace _ _ hseen') fun _ _ => .ok (h.move ha hb hseen)

/-- What a path that is renamed leads to, or is renamed to, and the folder it lies in are seen. -/
structure Displayed (seen : Location → Prop) (d : Disk) (p : Path) : Prop where
  above : ∀ l, d.locateAbove p = .ok l → seen l
  below : endsInNoName p = false → ∀ l, d.aim p = .ok l → ∀ r, seen (l ++ r)

theorem Displayed.of_ways {p : Path} (hp : ∀ m ∈ d.way p, d.NoLink m)
    (hway : ∀ m ∈ d.way p, seen m) (hspot : ∀ r, seen (d.spot p ++ r)) : Displayed seen d p where
  above _ hl := ((locateAbove_eq_ok_iff hp).mp hl).2.2.2 ▸ hway _ (placeAbove_mem_way d p)
  below hnamed _ hl := ((aim_eq_ok_iff hp hnamed).mp hl).2.2 ▸ hspot

theorem removeFolder (h : Alike seen d d') (hp : Tracked d d' p) (hseen : Displayed seen d p) :
    AlikeEnd seen (removeFolder p d) (removeFolder p d') := by
  refine .bind hp.locateAbove fun above habove => ?_
  split
  · exact .error _
  · next hnil =>
      split
      · exact .error _
      · next hdot =>
          split
          · exact .error _
          · next hdots =>
              have hnamed : endsInNoName p = false := by
                simp [endsInNoName, Path.isIdle, hnil, hdot, hdots]
              refine .bind (step_congr (h.same _ (hseen.above _ habove)) _) fun l hl => ?_
              have hplace := hseen.below hnamed l (Except.bind_eq_ok_iff.mpr ⟨_, habove, hl⟩) []
              rw [List.append_nil] at hplace
              rw [h.same l hplace]
              split
              · exact .ok (h.remove l)
              · exact .error _
              · exact .error _

theorem ne_nil_of_aim (hp : endsInNoName p = false) {l : Location} (hl : d.aim p = .ok l) :
    l ≠ [] := by
  obtain ⟨above, -, hstep⟩ := Except.bind_eq_ok_iff.mp hl
  obtain ⟨-, -, rfl⟩ := step_eq_ok_iff.mp hstep
  rw [enter_of_plain (Path.plain_lastSegment hp)]
  simp

theorem rename (h : Alike seen d d') {source target : Path} (hsource : Tracked d d' source)
    (hfrom : Displayed seen d source) (htarget : Tracked d d' target)
    (hto : Displayed seen d target) :
    AlikeEnd seen (rename source target d) (rename source target d') := by
  rw [Disk.rename, Disk.rename, h.device]
  dsimp only
  by_cases hnul : '\x00' ∈ source ∨ '\x00' ∈ target
  · rw [if_pos hnul, if_pos hnul]
    exact .error _
  · rw [if_neg hnul, if_neg hnul]
    refine .bind hsource.locateAbove fun above habove => ?_
    refine .bind htarget.locateAbove fun aboveTarget haboveTarget => ?_
    by_cases hdevice : d.device above ≠ d.device aboveTarget
    · rw [if_pos hdevice, if_pos hdevice]
      exact .error _
    · rw [if_neg hdevice, if_neg hdevice]
      by_cases hnamed : endsInNoName source = true ∨ endsInNoName target = true
      · rw [if_pos hnamed, if_pos hnamed]
        exact .error _
      · rw [if_neg hnamed, if_neg hnamed]
        rw [not_or, Bool.not_eq_true, Bool.not_eq_true] at hnamed
        refine .bind (step_congr (h.same _ (hfrom.above _ habove)) _) fun a ha => ?_
        have haim : d.aim source = .ok a := Except.bind_eq_ok_iff.mpr ⟨above, habove, ha⟩
        have hseen := hfrom.below hnamed.1 a haim
        have hplace := hseen []
        rw [List.append_nil] at hplace
        rw [h.same _ hplace]
        cases d.get? a with
        | none => exact .error _
        | some moved =>
            refine .bind (step_congr (h.same _ (hto.above _ haboveTarget)) _) fun b hb => ?_
            have haim' : d.aim target = .ok b :=
              Except.bind_eq_ok_iff.mpr ⟨aboveTarget, haboveTarget, hb⟩
            have hmove := h.replace moved (ne_nil_of_aim hnamed.1 haim)
              (ne_nil_of_aim hnamed.2 haim') hseen (hto.below hnamed.2 b haim')
            split
            · exact hmove
            · split
              · exact .error _
              · exact hmove

end Alike

end Disk
end ChartPackage
