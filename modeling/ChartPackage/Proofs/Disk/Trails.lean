import Mathlib
import ChartPackage.Disk.Access
import ChartPackage.Proofs.Text.Cutting

/-!
Where paths lead. A path has a spot, which it leads to whatever lies on the disk unless there are
links, and a way of places that must be folders for it to lead there. Taking a plain name from a
path adds the name to the spot and the old spot to the way.
-/

namespace ChartPackage

namespace Path

/-- A name that an entry of a folder can have. -/
structure Plain (name : Text) : Prop where
  ne_nil : name ≠ []
  ne_dot : name ≠ ['.']
  ne_dots : name ≠ ['.', '.']
  no_slash : '/' ∉ name

instance (name : Text) : Decidable (Plain name) :=
  decidable_of_iff (name ≠ [] ∧ name ≠ ['.'] ∧ name ≠ ['.', '.'] ∧ '/' ∉ name)
    ⟨fun h => ⟨h.1, h.2.1, h.2.2.1, h.2.2.2⟩, fun h => ⟨h.1, h.2, h.3, h.4⟩⟩

/-- A path that the system takes as a whole: not empty, not too long, no NUL. -/
structure Accepted (p : Path) : Prop where
  ne_nil : p ≠ []
  no_nul : '\x00' ∉ p
  short : (Utf8.encode p).length ≤ Disk.pathLimit

/-- A path that the system takes with all its segments. -/
structure Usable (p : Path) : Prop extends Accepted p where
  names : ∀ s ∈ p.segments, (Utf8.encode s).length ≤ Disk.nameLimit

theorem Plain.not_idle {name : Text} (h : Plain name) : isIdle name = false := by
  simp [isIdle, h.ne_nil, h.ne_dot]

theorem Plain.not_absolute {name : Text} (h : Plain name) : ¬ IsAbsolute name :=
  fun hslash => h.no_slash (List.mem_of_mem_head? hslash)

theorem join_plain {base name : Text} (h : Plain name) :
    join base name = if base = [] then name
      else if base.getLast? = some '/' then base ++ name else base ++ '/' :: name := by
  simp [join, h.not_absolute]

theorem isAbsolute_join {base name : Text} (h : Plain name) :
    IsAbsolute (join base name) ↔ IsAbsolute base := by
  rw [join_plain h]
  cases base with
  | nil =>
      rw [if_pos rfl]
      exact iff_of_false h.not_absolute (by decide)
  | cons c base =>
      rw [if_neg (List.cons_ne_nil c base)]
      split
      · exact Iff.rfl
      · exact Iff.rfl

theorem join_ne_nil {base name : Text} (h : Plain name) : join base name ≠ [] := by
  rw [join_plain h]
  split
  · exact h.ne_nil
  · split
    · exact List.append_ne_nil_of_right_ne_nil _ h.ne_nil
    · exact List.append_ne_nil_of_right_ne_nil _ (List.cons_ne_nil _ _)

/-- The segments of a joined path; a slash at the end of the path it is taken from is used up. -/
theorem segments_join (base : Path) {name : Text} (h : Plain name) :
    ∃ above, segments (join base name) = above ++ [name] ∧
      (segments base = above ∨ segments base = above ++ [[]]) := by
  have hname : segments name = [name] := List.splitOn_eq_singleton h.no_slash
  rw [join_plain h]
  split
  · next hnil => exact ⟨[], hname, Or.inr (by rw [hnil]; rfl)⟩
  · split
    · next hlast =>
        obtain ⟨before, rfl⟩ := List.getLast?_eq_some_iff.mp hlast
        refine ⟨segments before, ?_, Or.inr (List.splitOn_append_cons_self before [])⟩
        rw [List.append_assoc, List.singleton_append, ← hname]
        exact List.splitOn_append_cons_self before name
    · refine ⟨segments base, ?_, Or.inl rfl⟩
      rw [← hname]
      exact List.splitOn_append_cons_self base name

end Path

namespace Disk

/-- The place a segment leads to from another place. -/
def enter (place : Location) (segment : Text) : Location :=
  if Path.isIdle segment then place
  else if segment = ['.', '.'] then place.dropLast
  else place ++ [segment]

/-- Where a path starts. -/
def start (d : Disk) (p : Path) : Location := if p.IsAbsolute then [] else d.home

/-- Where a path leads if it leads anywhere. -/
def spot (d : Disk) (p : Path) : Location := p.segments.foldl enter (d.start p)

/-- The places from which the segments are taken. -/
def trail : Location → List Text → List Location
  | _, [] => []
  | place, segment :: segments => place :: trail (enter place segment) segments

/-- The places a path leads through, all but its spot. -/
def way (d : Disk) (p : Path) : List Location := trail (d.start p) p.segments

theorem enter_of_plain {name : Text} (h : Path.Plain name) (place : Location) :
    enter place name = place ++ [name] := by
  rw [enter, h.not_idle, if_neg Bool.false_ne_true, if_neg h.ne_dots]

theorem enter_of_idle {segment : Text} (h : Path.isIdle segment = true) (place : Location) :
    enter place segment = place := by
  rw [enter, if_pos h]

theorem step_eq_ok_iff {d : Disk} {place l : Location} {segment : Text} :
    d.step place segment = .ok l ↔ d.get? place = some .folder ∧
      (Utf8.encode segment).length ≤ nameLimit ∧ l = enter place segment := by
  have hdots : (Utf8.encode ['.', '.']).length ≤ nameLimit := by decide
  have hidle : Path.isIdle segment = true → (Utf8.encode segment).length ≤ nameLimit := by
    intro h
    rcases Bool.or_eq_true_iff.mp h with h | h
    · rw [beq_iff_eq.mp h]
      decide
    · rw [beq_iff_eq.mp h]
      decide
  rw [step, enter]
  split
  · next h => simp [h]
  · next h =>
      simp only [h, true_and]
      split
      · next hs => simp [hidle hs, eq_comm]
      · split
        · next hs => simp [hs, hdots, eq_comm]
        · split
          · next hlong => simp; omega
          · next hshort => simp [Nat.le_of_not_lt hshort, eq_comm]
  · next e hfolder h =>
      refine iff_of_false (by simp) ?_
      intro hstep
      exact hfolder (Option.some.inj (h.symm.trans hstep.1))

theorem foldlM_step_eq_ok_iff {d : Disk} {segments : List Text} {place l : Location} :
    segments.foldlM d.step place = .ok l ↔
      (∀ m ∈ trail place segments, d.get? m = some .folder) ∧
      (∀ s ∈ segments, (Utf8.encode s).length ≤ nameLimit) ∧ l = segments.foldl enter place := by
  induction segments generalizing place with
  | nil => simp [trail, pure, Except.pure, eq_comm]
  | cons s segments ih =>
      rw [List.foldlM_cons]
      constructor
      · intro h
        cases hstep : d.step place s with
        | error e => rw [hstep] at h; cases h
        | ok m =>
            rw [hstep] at h
            obtain ⟨hfolder, hshort, rfl⟩ := step_eq_ok_iff.mp hstep
            obtain ⟨htrail, hnames, rfl⟩ := ih.mp h
            refine ⟨?_, ?_, rfl⟩
            · rw [trail, List.forall_mem_cons]
              exact ⟨hfolder, htrail⟩
            · rw [List.forall_mem_cons]
              exact ⟨hshort, hnames⟩
      · intro h
        obtain ⟨htrail, hnames, rfl⟩ := h
        rw [trail, List.forall_mem_cons] at htrail
        rw [List.forall_mem_cons] at hnames
        rw [step_eq_ok_iff.mpr ⟨htrail.1, hnames.1, rfl⟩]
        exact ih.mpr ⟨htrail.2, hnames.2, rfl⟩

/-- A place where no link lies. -/
def NoLink (d : Disk) (m : Location) : Prop := ∀ t, d.get? m ≠ some (.link t)

theorem advance_of_noLink {d : Disk} {segments : List Text} {place : Location}
    (h : ∀ m ∈ trail place segments, d.NoLink m) :
    d.advance place segments = (segments.foldlM d.step place).map (·, []) := by
  induction segments generalizing place with
  | nil => rfl
  | cons s segments ih =>
      rw [trail, List.forall_mem_cons] at h
      rw [advance, List.foldlM_cons]
      split
      · next t ht => exact absurd ht (h.1 t)
      · cases hstep : d.step place s with
        | error e => rfl
        | ok l =>
            obtain ⟨-, -, rfl⟩ := step_eq_ok_iff.mp hstep
            exact ih h.2

/-- Where no link lies on the way, the segments are gone through one after the other. -/
theorem follow_of_noLink {d : Disk} {last : Bool} {segments : List Text} {place : Location}
    (hway : ∀ m ∈ trail place segments, d.NoLink m)
    (hlast : last = true → ∀ l, segments.foldlM d.step place = .ok l → d.NoLink l)
    (budget : Nat) : d.follow last (budget + 1) place segments = segments.foldlM d.step place := by
  rw [follow, advance_of_noLink hway]
  cases hplace : segments.foldlM d.step place with
  | error e => rfl
  | ok l =>
      dsimp only [Except.map, bind, Except.bind]
      split
      · next t ht =>
          have hpinned : last = false := by
            cases last with
            | false => rfl
            | true => exact absurd ht (hlast rfl l hplace t)
          rw [if_pos ⟨rfl, hpinned⟩]
      · rfl

theorem walk_eq_ok_iff {d : Disk} {last : Bool} {p : Path} {segments : List Text} {l : Location}
    (hway : ∀ m ∈ trail (d.start p) segments, d.NoLink m)
    (hlast : last = true → d.NoLink (segments.foldl enter (d.start p))) :
    d.walk last p segments = .ok l ↔ p.Accepted ∧
      (∀ m ∈ trail (d.start p) segments, d.get? m = some .folder) ∧
      (∀ s ∈ segments, (Utf8.encode s).length ≤ nameLimit) ∧
        l = segments.foldl enter (d.start p) := by
  have hend : last = true → ∀ l, segments.foldlM d.step (d.start p) = .ok l → d.NoLink l := by
    intro h l hl
    rw [(foldlM_step_eq_ok_iff.mp hl).2.2]
    exact hlast h
  rw [walk]
  split
  · next h =>
      refine iff_of_false (by simp) ?_
      intro hp
      exact hp.1.no_nul h
  · next hnul =>
      split
      · next h =>
          refine iff_of_false (by simp) ?_
          intro hp
          exact Nat.not_le_of_lt h hp.1.short
      · next hshort =>
          split
          · next h =>
              refine iff_of_false (by simp) ?_
              intro hp
              exact hp.1.ne_nil h
          · next hne =>
              have hp : p.Accepted := ⟨hne, hnul, Nat.le_of_not_lt hshort⟩
              rw [← start, follow_of_noLink hway hend, foldlM_step_eq_ok_iff, and_iff_right hp]

/-- No link lies on the way of a path or where it leads. -/
structure Straight (d : Disk) (p : Path) : Prop where
  way : ∀ m ∈ d.way p, d.NoLink m
  no_link : d.isLink p = false

theorem pin_eq_ok_iff {d : Disk} {p : Path} {l : Location} (hp : ∀ m ∈ d.way p, d.NoLink m) :
    d.pin p = .ok l ↔
      p.Usable ∧ (∀ m ∈ d.way p, d.get? m = some .folder) ∧ l = d.spot p := by
  rw [pin, walk_eq_ok_iff hp (by simp)]
  constructor
  · intro h
    exact ⟨⟨h.1, h.2.2.1⟩, h.2.1, h.2.2.2⟩
  · intro h
    exact ⟨h.1.toAccepted, h.2.1, h.1.names, h.2.2⟩

theorem isLink_of_pin {d : Disk} {p : Path} {l : Location} (hl : d.pin p = .ok l) :
    d.isLink p = true ↔ ¬ d.NoLink l := by
  rw [isLink, hl]
  dsimp only [bind, Except.bind]
  rw [itemAt]
  cases he : d.get? l with
  | none => simp [NoLink, he]
  | some e =>
      cases e with
      | folder => simp [NoLink, he]
      | file c => simp [NoLink, he]
      | link t => simp [NoLink, he]

theorem noLink_of_pin {d : Disk} {p : Path} {l : Location} (hp : d.isLink p = false)
    (hl : d.pin p = .ok l) : d.NoLink l := by
  by_contra hlink
  rw [(isLink_of_pin hl).mpr hlink] at hp
  cases hp

/-- A straight path leads to the same place whether a link at its end is followed or not. -/
theorem pin_eq_locate {d : Disk} {p : Path} (hp : d.Straight p) : d.pin p = d.locate p := by
  have hpin := noLink_of_pin (l := d.spot p) hp.no_link
  rw [pin, walk] at hpin
  rw [pin, locate, walk, walk]
  split
  · rfl
  · next hnul =>
      split
      · rfl
      · next hshort =>
          split
          · rfl
          · next hne =>
              rw [if_neg hnul, if_neg hshort, if_neg hne] at hpin
              rw [← start, follow_of_noLink hp.way (by simp)] at hpin ⊢
              refine (follow_of_noLink hp.way ?_ _).symm
              intro _ l hl
              obtain rfl := (foldlM_step_eq_ok_iff.mp hl).2.2
              exact hpin hl

/-- A straight path leads to its spot, provided that it is usable and all on its way are folders. -/
theorem locate_eq_ok_iff {d : Disk} {p : Path} {l : Location} (hp : d.Straight p) :
    d.locate p = .ok l ↔
      p.Usable ∧ (∀ m ∈ d.way p, d.get? m = some .folder) ∧ l = d.spot p := by
  rw [← pin_eq_locate hp, pin_eq_ok_iff hp.way]

theorem isLink_eq_false {d : Disk} {p : Path} (h : ∀ l, d.pin p = .ok l → d.NoLink l) :
    d.isLink p = false := by
  cases hl : d.pin p with
  | error e => rw [isLink, hl]; rfl
  | ok l =>
      rw [← Bool.not_eq_true, isLink_of_pin hl, not_not]
      exact h l hl

theorem straight_of_noLink {d : Disk} {p : Path} (hway : ∀ m ∈ d.way p, d.NoLink m)
    (hspot : d.NoLink (d.spot p)) : d.Straight p :=
  ⟨hway, isLink_eq_false fun _ hl => ((pin_eq_ok_iff hway).mp hl).2.2 ▸ hspot⟩

theorem Straight.noLink {d : Disk} {p : Path} (hp : d.Straight p) {l : Location}
    (hl : d.locate p = .ok l) : d.NoLink l :=
  noLink_of_pin hp.no_link ((pin_eq_locate hp).trans hl)

theorem trail_append (place : Location) (a b : List Text) :
    trail place (a ++ b) = trail place a ++ trail (a.foldl enter place) b := by
  induction a generalizing place with
  | nil => rfl
  | cons s a ih => rw [List.cons_append, trail, trail, ih, List.cons_append, List.foldl_cons]

theorem start_congr (d : Disk) {p q : Path} (h : q.IsAbsolute ↔ p.IsAbsolute) :
    d.start q = d.start p := by
  rw [start, start]
  simp only [h]

theorem start_join (d : Disk) (base : Path) {name : Text} (h : Path.Plain name) :
    d.start (base.join name) = d.start base :=
  d.start_congr (Path.isAbsolute_join h)

/-- A path leads at least through the place where it starts. -/
theorem start_mem_way (d : Disk) (p : Path) : d.start p ∈ d.way p := by
  rw [way]
  cases hsegments : p.segments with
  | nil => exact absurd hsegments (List.splitOn_ne_nil _ _)
  | cons s segments => exact List.mem_cons_self

theorem trail_filter_subset (segments : List Text) (place : Location) :
    trail place (segments.filter (· ≠ [])) ⊆ trail place segments := by
  induction segments generalizing place with
  | nil => exact List.Subset.refl _
  | cons s segments ih =>
      by_cases hs : s = []
      · rw [hs, List.filter_cons_of_neg (by decide), trail, enter_of_idle (by decide)]
        exact List.Subset.trans (ih place) (List.subset_cons_self _ _)
      · rw [List.filter_cons_of_pos (by simpa using hs), trail, trail]
        exact List.cons_subset_cons _ (ih _)

/-- The way to the folder of a path is a part of the way to it. -/
theorem trail_above_subset (d : Disk) (p : Path) :
    trail (d.start p) ((p.segments.filter (· ≠ [])).dropLast ++ [['.']]) ⊆ d.way p := by
  cases hfilter : p.segments.filter (· ≠ []) using List.reverseRecOn with
  | nil => simpa [trail] using d.start_mem_way p
  | append_singleton above last _ =>
      have hsubset := trail_filter_subset p.segments (d.start p)
      rw [hfilter, trail_append] at hsubset
      rwa [List.dropLast_concat, trail_append]

theorem spot_join (d : Disk) (base : Path) {name : Text} (h : Path.Plain name) :
    d.spot (base.join name) = d.spot base ++ [name] := by
  obtain ⟨above, hjoin, habove⟩ := Path.segments_join base h
  rw [spot, spot, hjoin, start_join d base h, List.foldl_append, List.foldl_cons, List.foldl_nil,
    enter_of_plain h]
  cases habove with
  | inl habove => rw [habove]
  | inr habove =>
      rw [habove, List.foldl_append, List.foldl_cons, List.foldl_nil, enter_of_idle (by decide)]

theorem mem_way_join {d : Disk} {base : Path} {name : Text} (h : Path.Plain name) {m : Location} :
    m ∈ d.way (base.join name) ↔ m ∈ d.way base ∨ m = d.spot base := by
  obtain ⟨above, hjoin, habove⟩ := Path.segments_join base h
  rw [way, way, spot, hjoin, start_join d base h, trail_append]
  cases habove with
  | inl habove => simp [habove, trail]
  | inr habove =>
      rw [habove, trail_append, List.foldl_append, List.foldl_cons, List.foldl_nil,
        enter_of_idle (by decide)]
      simp [trail]

end Disk
end ChartPackage
