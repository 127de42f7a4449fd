import Mathlib
import ChartPackage.Proofs.Disk.Frames
import ChartPackage.Proofs.Work

/-!
Renaming. A path that ends in a name leads to a place in the folder above it, and what it leads to
can be given another such path unless something of another kind, or anything around it, lies there.
-/

namespace ChartPackage

namespace Path

/-- A path that ends in a name with no slash behind it. -/
structure Neat (p : Path) : Prop where
  named : Disk.endsInNoName p = false
  no_slash : p.getLast? ≠ some '/'

theorem getLast?_intercalate_concat_nil (d : Char) {parts : List Text} (hne : parts ≠ []) :
    ([d].intercalate (parts ++ [[]])).getLast? = some d := by
  induction parts with
  | nil => exact absurd rfl hne
  | cons part parts ih =>
      rw [List.cons_append, List.intercalate_cons_of_ne_nil (by simp)]
      cases parts with
      | nil => simp
      | cons next parts =>
          have hrest := ih (List.cons_ne_nil next parts)
          rw [List.append_assoc, List.getLast?_append, List.singleton_append,
            List.getLast?_cons, hrest]
          rfl

/-- The last segment of a path that does not end in a slash is its last name. -/
theorem segments_eq_concat {p : Path} (hne : p ≠ []) (hlast : p.getLast? ≠ some '/') :
    ∃ above, p.segments = above ++ [p.lastSegment] ∧ p.lastSegment ≠ [] := by
  obtain ⟨above, s, hsegments⟩ : ∃ above s, p.segments = above ++ [s] :=
    ⟨_, _, (List.dropLast_concat_getLast (List.splitOn_ne_nil _ _)).symm⟩
  have hs : s ≠ [] := by
    intro hnil
    have hp : ['/'].intercalate p.segments = p := List.intercalate_splitOn '/'
    rw [hsegments, hnil] at hp
    by_cases habove : above = []
    · rw [habove] at hp
      exact hne hp.symm
    · rw [← hp] at hlast
      exact hlast (getLast?_intercalate_concat_nil '/' habove)
  have heq : p.lastSegment = s := by simp [lastSegment, hsegments, hs]
  exact ⟨above, by rw [heq, hsegments], by rwa [heq]⟩

theorem lastSegment_mem {p : Path} (h : Disk.endsInNoName p = false) :
    p.lastSegment ∈ p.segments := by
  rw [lastSegment]
  cases hlast : (p.segments.filter (· ≠ [])).getLast? with
  | none =>
      simp only [Disk.endsInNoName, lastSegment, hlast] at h
      exact absurd h (by decide)
  | some s => exact List.mem_of_mem_filter (List.mem_of_mem_getLast? hlast)

theorem plain_lastSegment {p : Path} (h : Disk.endsInNoName p = false) : Plain p.lastSegment := by
  have hmem := lastSegment_mem h
  simp only [Disk.endsInNoName, isIdle, Bool.or_eq_false_iff, beq_eq_false_iff_ne] at h
  exact ⟨h.1.1, h.1.2, h.2, Text.not_mem_of_mem_splitOn hmem⟩

/-- The names of a path above the last one. -/
def above (p : Path) : List Text := (p.segments.filter (· ≠ [])).dropLast

theorem filter_segments {p : Path} (h : Disk.endsInNoName p = false) :
    p.segments.filter (· ≠ []) = p.above ++ [p.lastSegment] := by
  have hne : p.segments.filter (· ≠ []) ≠ [] := by
    intro hnil
    simp only [Disk.endsInNoName, lastSegment, hnil] at h
    exact absurd h (by decide)
  have hlast : p.lastSegment = (p.segments.filter (· ≠ [])).getLast hne := by
    rw [lastSegment, List.getLast?_eq_some_getLast hne, Option.getD_some]
  rw [hlast, above, List.dropLast_concat_getLast]

theorem names_short_iff {p : Path} (h : Disk.endsInNoName p = false) :
    (∀ s ∈ p.segments, (Utf8.encode s).length ≤ Disk.nameLimit) ↔
      (∀ s ∈ p.above, (Utf8.encode s).length ≤ Disk.nameLimit) ∧
        (Utf8.encode p.lastSegment).length ≤ Disk.nameLimit := by
  have hall : (∀ s ∈ p.segments, (Utf8.encode s).length ≤ Disk.nameLimit) ↔
      ∀ s ∈ p.segments.filter (· ≠ []), (Utf8.encode s).length ≤ Disk.nameLimit := by
    constructor
    · intro hshort s hs
      exact hshort s (List.mem_of_mem_filter hs)
    · intro hshort s hs
      by_cases hnil : s = []
      · rw [hnil]
        decide
      · exact hshort s (List.mem_filter.mpr ⟨hs, by simpa using hnil⟩)
  rw [hall, filter_segments h]
  simp [or_imp, forall_and]

theorem Neat.ne_nil {p : Path} (h : Neat p) : p ≠ [] := by
  intro hnil
  have hnamed := h.named
  rw [hnil] at hnamed
  exact absurd hnamed (by decide)

theorem neat_join (base : Path) {name : Text} (h : Plain name) : Neat (base.join name) := by
  obtain ⟨above, hsegments, -⟩ := segments_join base h
  have hlast : (base.join name).lastSegment = name := by
    simp [lastSegment, hsegments, h.ne_nil]
  refine ⟨?_, ?_⟩
  · simp [Disk.endsInNoName, hlast, h.not_idle, h.ne_dots]
  · have hname : name.getLast? ≠ some '/' := fun hslash =>
      h.no_slash (List.mem_of_mem_getLast? hslash)
    rw [join_plain h]
    split
    · exact hname
    · split
      · rwa [List.getLast?_append_of_ne_nil _ h.ne_nil]
      · rw [List.getLast?_append_of_ne_nil _ (List.cons_ne_nil _ _),
          List.getLast?_cons_of_ne_nil h.ne_nil]
        exact hname

end Path

namespace Disk

variable {d d' : Disk}

theorem foldl_enter_filter (segments : List Text) (place : Location) :
    (segments.filter (· ≠ [])).foldl enter place = segments.foldl enter place := by
  induction segments generalizing place with
  | nil => rfl
  | cons s segments ih =>
      by_cases hs : s = []
      · rw [hs, List.filter_cons_of_neg (by decide), List.foldl_cons, enter_of_idle (by decide), ih]
      · rw [List.filter_cons_of_pos (by simpa using hs), List.foldl_cons, List.foldl_cons, ih]

theorem self_mem_trail (segments : List Text) (place : Location) :
    place ∈ trail place segments ∨ place = segments.foldl enter place := by
  cases segments with
  | nil => exact Or.inr rfl
  | cons s segments => exact Or.inl List.mem_cons_self

/-- Empty segments lead through the same places. -/
theorem mem_trail_filter {segments : List Text} {place m : Location} :
    (m ∈ trail place (segments.filter (· ≠ [])) ∨ m = segments.foldl enter place) ↔
      m ∈ trail place segments ∨ m = segments.foldl enter place := by
  induction segments generalizing place with
  | nil => rfl
  | cons s segments ih =>
      by_cases hs : s = []
      · rw [hs, List.filter_cons_of_neg (by decide), List.foldl_cons, trail,
          enter_of_idle (by decide), ih,
          List.mem_cons, or_assoc]
        refine (or_iff_right_of_imp ?_).symm
        intro hm
        rw [hm]
        exact self_mem_trail segments place
      · rw [List.filter_cons_of_pos (by simpa using hs), trail, trail, List.foldl_cons,
          List.mem_cons,
          List.mem_cons, or_assoc, or_assoc, ih]

/-- Where a path leads that ends in a name, as it is found for renaming. -/
def aim (d : Disk) (p : Path) : Except DiskFault Location := do
  d.step (← d.locateAbove p) p.lastSegment

/-- The folder in which the name at the end of a path is looked for. -/
def placeAbove (d : Disk) (p : Path) : Location := p.above.foldl enter (d.start p)

theorem spot_eq_placeAbove {p : Path} (h : endsInNoName p = false) :
    d.spot p = d.placeAbove p ++ [p.lastSegment] := by
  rw [spot, ← foldl_enter_filter, Path.filter_segments h, List.foldl_append, List.foldl_cons,
    List.foldl_nil, enter_of_plain (Path.plain_lastSegment h)]
  rfl

theorem placeAbove_join (d : Disk) (base : Path) {name : Text} (h : Path.Plain name) :
    d.placeAbove (base.join name) = d.spot base := by
  have hspot := spot_eq_placeAbove (d := d) (Path.neat_join base h).named
  rw [spot_join _ _ h] at hspot
  exact (List.append_inj' hspot rfl).1.symm

theorem placeAbove_mem_way (d : Disk) (p : Path) : d.placeAbove p ∈ d.way p := by
  apply trail_above_subset d p
  rw [trail_append]
  exact List.mem_append_right _ List.mem_cons_self

theorem locateAbove_eq_ok_iff {p : Path} (hway : ∀ m ∈ d.way p, d.NoLink m) {l : Location} :
    d.locateAbove p = .ok l ↔ p.Accepted ∧
      (∀ m, m ∈ trail (d.start p) p.above ∨ m = d.placeAbove p → d.get? m = some .folder) ∧
      (∀ s ∈ p.above, (Utf8.encode s).length ≤ nameLimit) ∧ l = d.placeAbove p := by
  have hdot : (Utf8.encode ['.']).length ≤ nameLimit := by decide
  have hidle : Path.isIdle ['.'] = true := by decide
  have hend : (p.above ++ [['.']]).foldl enter (d.start p) = d.placeAbove p := by
    rw [List.foldl_append, List.foldl_cons, List.foldl_nil, enter_of_idle hidle, placeAbove]
  refine (walk_eq_ok_iff (fun m hm => hway m (trail_above_subset d p hm))
    fun _ => hend.symm ▸ hway _ (placeAbove_mem_way d p)).trans ?_
  change _ ∧ (∀ m ∈ trail (d.start p) (p.above ++ [['.']]), _) ∧ (∀ s ∈ p.above ++ [['.']], _) ∧
    l = (p.above ++ [['.']]).foldl enter (d.start p) ↔ _
  rw [hend, trail_append]
  simp [or_imp, forall_and, hdot, trail, placeAbove]

theorem locateAbove_of_locate {p : Path} (hp : d.Straight p) {l : Location}
    (hl : d.locate p = .ok l) : d.locateAbove p = .ok (d.placeAbove p) := by
  obtain ⟨husable, hway, -⟩ := (locate_eq_ok_iff hp).mp hl
  refine (locateAbove_eq_ok_iff hp.way).mpr ⟨husable.toAccepted, ?_, ?_, rfl⟩
  · intro m hm
    cases hm with
    | inl hm =>
        apply hway m
        apply trail_above_subset d p
        rw [trail_append]
        exact List.mem_append_left _ hm
    | inr hm => exact hm ▸ hway _ (placeAbove_mem_way d p)
  · intro s hs
    exact husable.names s (List.mem_of_mem_filter (List.mem_of_mem_dropLast hs))

theorem aim_eq_ok_iff {p : Path} (hway : ∀ m ∈ d.way p, d.NoLink m)
    (h : endsInNoName p = false) {l : Location} :
    d.aim p = .ok l ↔ p.Usable ∧
      (∀ m, m ∈ trail (d.start p) p.above ∨ m = d.placeAbove p → d.get? m = some .folder) ∧
      l = d.spot p := by
  rw [aim, Except.bind_eq_ok_iff, spot_eq_placeAbove h]
  constructor
  · intro hgo
    obtain ⟨above, habove, hstep⟩ := hgo
    obtain ⟨haccepted, hfolders, hnames, rfl⟩ := (locateAbove_eq_ok_iff hway).mp habove
    obtain ⟨-, hshort, rfl⟩ := step_eq_ok_iff.mp hstep
    refine ⟨⟨haccepted, (Path.names_short_iff h).mpr ⟨hnames, hshort⟩⟩, hfolders, ?_⟩
    exact enter_of_plain (Path.plain_lastSegment h) _
  · intro hgo
    obtain ⟨husable, hfolders, rfl⟩ := hgo
    obtain ⟨hnames, hshort⟩ := (Path.names_short_iff h).mp husable.names
    refine ⟨d.placeAbove p, (locateAbove_eq_ok_iff hway).mpr
      ⟨husable.toAccepted, hfolders, hnames, rfl⟩, ?_⟩
    refine step_eq_ok_iff.mpr ⟨hfolders _ (Or.inr rfl), hshort, ?_⟩
    exact (enter_of_plain (Path.plain_lastSegment h) _).symm

/-- A neat path is found for renaming as it is found for all else. -/
theorem aim_eq_ok_iff_locate {p : Path} (hp : d.Straight p) (h : p.Neat) {l : Location} :
    d.aim p = .ok l ↔ d.locate p = .ok l := by
  obtain ⟨above, hsegments, hne⟩ := Path.segments_eq_concat h.ne_nil h.no_slash
  have habove : p.above = above.filter (· ≠ []) := by
    simp [Path.above, hsegments, hne]
  have hway : ∀ m, (m ∈ trail (d.start p) p.above ∨ m = d.placeAbove p) ↔ m ∈ d.way p := by
    intro m
    rw [placeAbove, habove, foldl_enter_filter, mem_trail_filter, way, hsegments, trail_append,
      List.mem_append]
    simp [trail]
  rw [aim_eq_ok_iff hp.way h.named, locate_eq_ok_iff hp]
  simp only [hway]

theorem open_of_aim {p : Path} (hway : ∀ m ∈ d.way p, d.NoLink m) (h : endsInNoName p = false)
    {l : Location} (hl : d.aim p = .ok l) : d.Open l := by
  obtain ⟨husable, hfolders, rfl⟩ := (aim_eq_ok_iff hway h).mp hl
  have hmem := Path.lastSegment_mem h
  refine ⟨d.placeAbove p, p.lastSegment, spot_eq_placeAbove h, hfolders _ (Or.inr rfl), ?_⟩
  exact
    { toPlain := Path.plain_lastSegment h
      no_nul := fun hnul => husable.no_nul (Text.mem_of_mem_splitOn hmem hnul)
      short := husable.names _ hmem }

/-- What lies at a place gives way to an item that is moved there. -/
inductive Yields (d : Disk) (b : Location) : Item → Prop where
  | nothing {e : Item} (h : d.get? b = none) : Yields d b e
  | other {e f : Item} (h : d.get? b = some f) (hf : f ≠ .folder) (he : e ≠ .folder) : Yields d b e
  | empty (h : d.get? b = some .folder) (hnames : d.names b = []) : Yields d b .folder

theorem mayReplace_eq_ok_iff {a b : Location} {e : Item} :
    d.mayReplace a b e = .ok () ↔ Apart a b ∧ d.Yields b e := by
  unfold mayReplace
  by_cases hab : a <+: b
  · rw [if_pos hab]
    exact iff_of_false (by simp) fun h => h.1.1 hab
  · by_cases hba : b <+: a
    · rw [if_neg hab, if_pos hba]
      exact iff_of_false (by simp) fun h => h.1.2 hba
    · rw [if_neg hab, if_neg hba, and_iff_right ⟨hab, hba⟩]
      split
      · next hb => exact iff_of_true rfl (.nothing hb)
      · next hb =>
          by_cases hnames : d.names b = []
          · exact iff_of_true (if_pos hnames) (.empty hb hnames)
          · refine iff_of_false (by simp [hnames]) ?_
            intro h
            cases h with
            | nothing h' => cases hb.symm.trans h'
            | other _ _ he => exact he rfl
            | empty _ h' => exact hnames h'
      · next f hf hb =>
          refine iff_of_false (by simp) ?_
          intro h
          cases h with
          | nothing h' => cases hb.symm.trans h'
          | other _ _ he => exact he rfl
          | empty h' _ => exact hf (Option.some.inj (hb.symm.trans h'))
      · next he hb =>
          refine iff_of_false (by simp) ?_
          intro h
          cases h with
          | nothing h' => cases hb.symm.trans h'
          | other h' hf _ => exact hf (Option.some.inj (h'.symm.trans hb))
          | empty _ _ => exact he rfl
      · next f hf _ he hb => exact iff_of_true rfl (.other hb hf he)

/-- The end of a renaming, when both places are found: nothing is done if they are one. -/
theorem replace_eq_ok_iff {a b : Location} {e : Item} :
    (if a = b then pure d else do d.mayReplace a b e; pure (d.move a b)) = Except.ok d' ↔
      (a = b ∧ d' = d ∨ a ≠ b ∧ Apart a b ∧ d.Yields b e ∧ d' = d.move a b) := by
  by_cases hab : a = b
  · rw [if_pos hab]
    simp [hab, pure, Except.pure, eq_comm]
  · rw [if_neg hab, Except.bind_eq_ok_iff]
    constructor
    · intro h
      obtain ⟨done, hreplace, hdone⟩ := h
      obtain ⟨hapart, hyields⟩ := mayReplace_eq_ok_iff.mp hreplace
      exact Or.inr ⟨hab, hapart, hyields, (Except.ok.inj hdone).symm⟩
    · intro h
      obtain ⟨-, hapart, hyields, hdone⟩ := h.resolve_left fun hself => hab hself.1
      exact ⟨(), mayReplace_eq_ok_iff.mpr ⟨hapart, hyields⟩, by rw [hdone]; rfl⟩

section

variable {source target : Path} (hs : ∀ m ∈ d.way source, d.NoLink m)
  (ht : ∀ m ∈ d.way target, d.NoLink m)

include hs ht

theorem rename_eq_ok_iff :
    rename source target d = .ok d' ↔ endsInNoName source = false ∧ endsInNoName target = false ∧
      d.device (d.placeAbove source) = d.device (d.placeAbove target) ∧
      ∃ a b e, d.aim source = .ok a ∧ d.get? a = some e ∧ d.aim target = .ok b ∧
        (e ≠ .folder → source.getLast? ≠ some '/' ∧ target.getLast? ≠ some '/') ∧
        (a = b ∧ d' = d ∨ a ≠ b ∧ Apart a b ∧ d.Yields b e ∧ d' = d.move a b) := by
  constructor
  · intro h
    rw [rename] at h
    dsimp only at h
    split at h
    · cases h
    · obtain ⟨above, habove, h⟩ := Except.bind_eq_ok_iff.mp h
      obtain ⟨aboveTarget, haboveTarget, h⟩ := Except.bind_eq_ok_iff.mp h
      split at h
      · cases h
      · next hdevice =>
          obtain ⟨-, -, -, rfl⟩ := (locateAbove_eq_ok_iff hs).mp habove
          obtain ⟨-, -, -, rfl⟩ := (locateAbove_eq_ok_iff ht).mp haboveTarget
          split at h
          · cases h
          · next hnamed =>
              rw [not_or, Bool.not_eq_true, Bool.not_eq_true] at hnamed
              obtain ⟨a, ha, h⟩ := Except.bind_eq_ok_iff.mp h
              split at h
              · next e he =>
                  obtain ⟨b, hb, h⟩ := Except.bind_eq_ok_iff.mp h
                  refine ⟨hnamed.1, hnamed.2, not_not.mp hdevice, a, b, e, ?_, he, ?_, ?_⟩
                  · exact Except.bind_eq_ok_iff.mpr ⟨_, habove, ha⟩
                  · exact Except.bind_eq_ok_iff.mpr ⟨_, haboveTarget, hb⟩
                  · split at h
                    · exact ⟨fun hfolder => absurd rfl hfolder, replace_eq_ok_iff.mp h⟩
                    · split at h
                      · cases h
                      · next hslash =>
                          exact ⟨fun _ => not_or.mp hslash, replace_eq_ok_iff.mp h⟩
              · cases h
  · intro h
    obtain ⟨hsource, htarget, hdevice, a, b, e, ha, he, hb, hslash, hmove⟩ := h
    have hnul : ¬ ('\x00' ∈ source ∨ '\x00' ∈ target) :=
      not_or.mpr ⟨((aim_eq_ok_iff hs hsource).mp ha).1.no_nul,
        ((aim_eq_ok_iff ht htarget).mp hb).1.no_nul⟩
    obtain ⟨above, habove, ha⟩ := Except.bind_eq_ok_iff.mp ha
    obtain ⟨aboveTarget, haboveTarget, hb⟩ := Except.bind_eq_ok_iff.mp hb
    obtain rfl := ((locateAbove_eq_ok_iff hs).mp habove).2.2.2
    obtain rfl := ((locateAbove_eq_ok_iff ht).mp haboveTarget).2.2.2
    have hmove := replace_eq_ok_iff.mpr hmove
    rw [rename]
    dsimp only
    rw [if_neg hnul, Except.bind_eq_ok_iff]
    refine ⟨_, habove, ?_⟩
    rw [Except.bind_eq_ok_iff]
    refine ⟨_, haboveTarget, ?_⟩
    rw [if_neg (not_not.mpr hdevice), hsource, htarget, if_neg (by decide), Except.bind_eq_ok_iff]
    refine ⟨a, ha, ?_⟩
    rw [he]
    dsimp only
    rw [Except.bind_eq_ok_iff]
    refine ⟨b, hb, ?_⟩
    split
    · exact hmove
    · next hfolder =>
        rw [if_neg (not_or.mpr (hslash hfolder))]
        exact hmove

/-- A renaming changes the two places only. The new place holds what the old one held, and there is
nothing left at the old one unless it is the new one. -/
theorem frame_rename (h : rename source target d = .ok d') :
    Frame [d.spot source, d.spot target] [] d d' ∧
      (∀ r, d'.get? (d.spot target ++ r) = d.get? (d.spot source ++ r)) ∧
      (d.spot source ≠ d.spot target → ∀ r, d'.get? (d.spot source ++ r) = none) := by
  obtain ⟨hsource, htarget, -, a, b, e, ha, he, hb, -, hmove⟩ := (rename_eq_ok_iff hs ht).mp h
  have hopen := open_of_aim ht htarget hb
  have hne := (open_of_aim hs hsource ha).ne_nil
  obtain ⟨-, -, rfl⟩ := (aim_eq_ok_iff hs hsource).mp ha
  obtain ⟨-, -, rfl⟩ := (aim_eq_ok_iff ht htarget).mp hb
  cases hmove with
  | inl hself =>
      obtain ⟨hab, rfl⟩ := hself
      refine ⟨.refl _ _ _, ?_, fun hother => absurd hab hother⟩
      intro r
      rw [hab]
  | inr hmove =>
      obtain ⟨-, hapart, -, rfl⟩ := hmove
      have harrived : ∀ r, (d.move (d.spot source) (d.spot target)).get? (d.spot target ++ r) =
          d.get? (d.spot source ++ r) := by
        intro r
        rw [get?_move hne hopen.ne_nil, if_pos (List.prefix_append _ r), List.drop_left]
      have hleft : ∀ r, (d.move (d.spot source) (d.spot target)).get? (d.spot source ++ r) =
          none := by
        intro r
        rw [get?_move hne hopen.ne_nil, if_neg (hapart.symm.not_prefix_append r),
          if_pos (List.prefix_append _ r)]
      refine ⟨⟨rfl, rfl, fun hd => hd.move hne hopen hapart.1, ?_, ?_⟩, harrived, fun _ => hleft⟩
      · intro hroots
        rw [List.forall_mem_cons, List.forall_mem_singleton] at hroots ⊢
        exact ⟨fun r t => by simp [hleft r], fun r t => harrived r ▸ hroots.1 r t⟩
      · intro m hm
        rw [List.forall_mem_cons, List.forall_mem_singleton] at hm
        rw [get?_move hne hopen.ne_nil, if_neg hm.2, if_neg hm.1]
        exact Or.inl rfl

/-- A folder stays one unless it lies at or below what is renamed: the only folder that gives way is
an empty one, and only to a folder. -/
theorem folder_of_rename (hd : d.WellFormed) (h : rename source target d = .ok d') {m : Location}
    (hm : d.get? m = some .folder) (hout : ¬ d.spot source <+: m) :
    d'.get? m = some .folder := by
  obtain ⟨hsource, htarget, -, a, b, e, ha, he, hb, -, hmove⟩ := (rename_eq_ok_iff hs ht).mp h
  have hopen := open_of_aim ht htarget hb
  have hne := (open_of_aim hs hsource ha).ne_nil
  obtain ⟨-, -, rfl⟩ := (aim_eq_ok_iff hs hsource).mp ha
  cases hmove with
  | inl hself =>
      rw [hself.2]
      exact hm
  | inr hmove =>
      obtain ⟨-, -, hyields, rfl⟩ := hmove
      rw [get?_move hne hopen.ne_nil]
      by_cases hin : b <+: m
      · have hb' := hd.folder_of_prefix hm hin
        obtain ⟨r, rfl⟩ := hin
        rw [if_pos (List.prefix_append b r), List.drop_left]
        cases hyields with
        | nothing hnone =>
            rw [hnone] at hb'
            cases hb'
        | other hother hf _ => exact absurd (Option.some.inj (hother.symm.trans hb')) hf
        | empty _ hnames =>
            cases r with
            | nil => rwa [List.append_nil]
            | cons n r =>
                have hn : d.get? (b ++ [n]) = some .folder :=
                  hd.folder_of_prefix hm ⟨r, by simp⟩
                have hmem : n ∈ d.names b := mem_names.mpr ⟨.folder, hn⟩
                rw [hnames] at hmem
                cases hmem
      · rw [if_neg hin, if_neg hout]
        exact hm

end

end Disk
end ChartPackage
