import Mathlib
import ChartPackage.Proofs.Chart.Passes
import ChartPackage.Proofs.Chart.Rescan

/-!
The headers that checking the flags leaves. A header keeps its place and is cleared or stays as it
is; clearing one completes no other, so that checking again finds nothing to do. In a sanitized
chart every header has admitted flags only or none, also inside another statement.
-/

namespace ChartPackage

namespace TimingGroup

variable {words : List Text} {flags gap : Text}

theorem keyword_eq_cons : keyword = 't' :: "iminggroup(".toList := by decide

theorem keyword_eq_concat : keyword = "timinggroup".toList ++ ['('] := by decide

theorem not_mem_of_blank {c : Char} (hc : isChartBlank c = false)
    (hgap : ∀ d ∈ gap, isChartBlank d = true) :
    c ∉ gap := fun hmem => by
  rw [hgap c hmem] at hc
  cases hc

theorem keyword_prefix_of_parse? {t : Text} (h : parse? t = some (flags, gap)) : keyword <+: t := by
  obtain ⟨-, -, rest, rfl⟩ := exists_of_starts h
  rw [header, List.append_assoc]
  exact List.prefix_append _ _

theorem bracket_not_mem_of_checked (hwords : ∀ word ∈ words, '(' ∉ word) (hflags : ')' ∉ flags)
    (hgap : ∀ c ∈ gap, isChartBlank c = true) (h : header flags gap = cleared ∨
      Admissible words flags) :
    '(' ∉ flags := by
  rcases h with hcleared | hadmissible
  · have hparse := parse?_header hflags hgap []
    rw [hcleared, ← header_nil, parse?_header (by simp) (by simp)] at hparse
    cases hparse
    exact List.not_mem_nil
  · exact bracket_not_mem hwords hflags hadmissible

/-- A header in front of which a text reaches into another header: the text holds the first of the
two, or the keyword and some of its flags. -/
theorem prefix_cases (hflags : ')' ∉ flags) (hgap : ∀ c ∈ gap, isChartBlank c = true)
    {x y : Text} (hx : x ≠ [])
    (h : header flags gap <+: x ++ (keyword ++ y)) :
    header flags gap <+: x ∨ ∃ lead, x = keyword ++ lead ∧ ')' ∉ lead := by
  rcases List.prefix_or_prefix_of_prefix h (List.prefix_append x _) with hshort | ⟨z, hz⟩
  · exact Or.inl hshort
  · cases z with
    | nil =>
        rw [List.append_nil] at hz
        exact Or.inl (hz ▸ List.prefix_rfl)
    | cons d z =>
        -- What the header goes on with behind the text is the other keyword.
        rw [← hz, List.prefix_append_right_inj, keyword_eq_cons, List.cons_append] at h
        obtain ⟨rfl, -⟩ := List.cons_prefix_cons.mp h
        refine Or.inr ?_
        rcases List.append_eq_append_iff.mp hz with ⟨m, hm, hrest⟩ | ⟨lead, rfl, hrest⟩
        · cases m with
          | nil => exact ⟨[], by simpa using hm.symm, List.not_mem_nil⟩
          | cons e m =>
              obtain ⟨rfl, -⟩ := List.cons.inj hrest
              obtain ⟨c, x, rfl⟩ := List.exists_cons_of_ne_nil hx
              have htail : 't' ∈ keyword.tail := by simp [hm]
              exact absurd htail (by decide)
        · refine ⟨lead, rfl, fun hbracket => ?_⟩
          rcases List.append_eq_append_iff.mp hrest with ⟨m, hm, hrest⟩ | ⟨m, hm, -⟩
          · cases m with
            | nil => exact absurd (List.cons.inj hrest).1 (by decide)
            | cons e m =>
                have hmem : 't' ∈ gap ++ ['{'] := by simp [(List.cons.inj hrest).2]
                rcases List.mem_append.mp hmem with hmem | hmem
                · exact not_mem_of_blank (by decide) hgap hmem
                · exact absurd hmem (by decide)
          · exact hflags (by simp [hm, hbracket])

/-- Exactly the headers that change are counted. -/
theorem verdict_eq_keep_iff (hflags : ')' ∉ flags) (hgap : ∀ c ∈ gap, isChartBlank c = true) :
    verdict words (header flags gap) = .keep ↔ mended words flags gap = header flags gap := by
  rw [verdict_header hflags hgap, mended]
  split
  · simp
  · rw [ite_eq_left_iff, eq_comm (a := cleared)]
    simp

/-- What becomes of a header stays as it is. -/
theorem verdict_apply {s : Text} (h : IsHeader s) :
    verdict words ((verdict words s).apply s) = .keep := by
  obtain ⟨flags, gap, hflags, hgap, rfl⟩ := h
  rw [apply_header hflags hgap, mended]
  split
  · next hadmissible => rw [verdict_header hflags hgap, if_pos hadmissible]
  · rw [← header_nil, verdict_header (by simp) (by simp), header_nil, if_pos rfl, ite_self]

/-- A keyword that starts in a header without further brackets is that of the header. -/
theorem eq_header_of_keyword (hflags : '(' ∉ flags) (hgap : ∀ c ∈ gap, isChartBlank c = true)
    {z rest : Text}
    (hz : z ≠ []) (hsuffix : z <:+ header flags gap) (h : keyword <+: z ++ rest) :
      z = header flags gap := by
  have hjoin : header flags gap = "timinggroup".toList ++ '(' ::
      (flags ++ ')' :: gap) ++ ['{'] := by
    simp [header, keyword_eq_concat]
  have hinner : '(' ∉ flags ++ ')' :: gap := by
    simp [hflags, not_mem_of_blank (c := '(') (by decide) hgap]
  rw [hjoin] at hsuffix ⊢
  exact Text.eq_of_start (by decide) hinner (by decide) hz hsuffix h

end TimingGroup

namespace Chart
open TimingGroup (keyword header cleared parse? Admissible IsHeader)

variable {allowed : Whitelists}

theorem clearTimingGroups_nil : (clearTimingGroups allowed []).1 = [] := by
  rw [clearTimingGroups, timingGroups, scan]
  rfl

theorem exists_keyword_clearTimingGroups (allowed : Whitelists) {s : Text} (hs : IsHeader s)
    (rest : Text) :
    ∃ y, (clearTimingGroups allowed (s ++ rest)).1 = keyword ++ y := by
  obtain ⟨flags, gap, hflags, hgap, rfl⟩ := hs
  rw [clearTimingGroups_header hflags hgap, TimingGroup.mended]
  split
  · exact ⟨_, List.append_assoc _ _ _⟩
  · exact ⟨_, rfl⟩

/-- Clearing headers completes no header in front of them. -/
theorem starts_of_clearTimingGroups (t : Text) {x s : Text} (hx : x ≠ []) (hs : IsHeader s)
    (h : s <+: x ++ (clearTimingGroups allowed t).1) : ∃ s', IsHeader s' ∧ s' <+: x ++ t := by
  induction t using TimingGroup.reads.induction generalizing x with
  | nil =>
      rw [clearTimingGroups_nil] at h
      exact ⟨s, hs, h⟩
  | skip c rest hnone ih =>
      rw [clearTimingGroups_cons hnone] at h
      have hlater := ih (x := x ++ [c]) (by simp) (by simpa using h)
      simpa using hlater
  | statement _ rest hheader =>
      obtain ⟨y, hy⟩ := exists_keyword_clearTimingGroups allowed hheader rest
      obtain ⟨flags, gap, hflags, hgap, rfl⟩ := hheader
      obtain ⟨flags', gap', hflags', hgap', rfl⟩ := hs
      rw [hy] at h
      rcases TimingGroup.prefix_cases hflags' hgap' hx h with hshort | ⟨lead, rfl, hlead⟩
      · exact ⟨_, TimingGroup.isHeader_header hflags' hgap', hshort.trans (List.prefix_append _ _)⟩
      · -- The header that the text reaches into completes the one of the text, before and after.
        have hall : ')' ∉ lead ++ keyword ++ flags := by
          simp only [List.mem_append, not_or]
          exact ⟨⟨hlead, by decide⟩, hflags⟩
        exact ⟨_, TimingGroup.isHeader_header hall hgap, rest, by simp [header]⟩

theorem timingGroups_clearTimingGroups (t : Text) :
    timingGroups (clearTimingGroups allowed t).1 =
      (timingGroups t).map fun s => (TimingGroup.verdict allowed.timingGroups s).apply s := by
  refine TimingGroup.reads.scan_judged (fun s => TimingGroup.isHeader_apply _) ?_ t
  intro c rest hnone s hs hstart
  obtain ⟨s', hs', hstart'⟩ := starts_of_clearTimingGroups (x := [c]) rest (by simp) hs hstart
  exact hnone s' hs' hstart'

theorem clearTimingGroups_again (t : Text) :
    clearTimingGroups allowed (clearTimingGroups allowed t).1 =
      ((clearTimingGroups allowed t).1, {}) := by
  refine clearTimingGroups_of_keep fun s hs => ?_
  rw [timingGroups_clearTimingGroups, Tiling.statements_map] at hs
  obtain ⟨s, hmem, rfl⟩ := List.mem_map.mp hs
  exact TimingGroup.verdict_apply (TimingGroup.reads.of_mem s hmem)

/-- Whether the headers of a text, wherever they start, have no flags or admitted ones. -/
def Checked (words : List Text) (t : Text) : Prop :=
  ∀ u flags gap, u <:+ t → parse? u = some (flags, gap) →
    header flags gap = cleared ∨ Admissible words flags

theorem checked_nil {words : List Text} : Checked words [] := by
  intro u flags gap hu hparse
  rw [List.suffix_nil.mp hu] at hparse
  cases hparse

theorem Checked.tail {words : List Text} {a b : Text} (h : Checked words (a ++ b)) :
    Checked words b :=
  fun u flags gap hu => h u flags gap (hu.trans (List.suffix_append a b))

theorem checked_cons {words : List Text} {c : Char} {t : Text} (ht : Checked words t)
    (h : ∀ flags gap, parse? (c :: t) = some (flags, gap) → header flags gap = cleared ∨
      Admissible words flags) :
    Checked words (c :: t) := by
  intro u flags gap hu hparse
  rcases List.suffix_cons_iff.mp hu with rfl | hu
  · exact h flags gap hparse
  · exact ht u flags gap hu hparse

theorem checked_header {words : List Text} {flags gap t : Text} (ht : Checked words t)
    (hflags : ')' ∉ flags)
    (hbracket : '(' ∉ flags) (hgap : ∀ c ∈ gap, isChartBlank c = true)
    (h : header flags gap = cleared ∨ Admissible words flags) :
      Checked words (header flags gap ++ t) := by
  intro u flags' gap' hu hparse
  rcases Text.suffix_append_cases hu with hu | ⟨z, hz, hsuffix, rfl⟩
  · exact ht u flags' gap' hu hparse
  · obtain ⟨-, -, rest, hstart⟩ := TimingGroup.exists_of_starts hparse
    have hkeyword : keyword <+: z ++ t := by
      rw [hstart, header, List.append_assoc]
      exact List.prefix_append _ _
    rw [TimingGroup.eq_header_of_keyword hbracket hgap hz hsuffix hkeyword,
      TimingGroup.parse?_header hflags hgap]
      at hparse
    cases hparse
    exact h

theorem checked_clearTimingGroups (hwords : ∀ word ∈ allowed.timingGroups, '(' ∉ word) (t : Text) :
    Checked allowed.timingGroups (clearTimingGroups allowed t).1 := by
  induction t using TimingGroup.reads.induction with
  | nil =>
      rw [clearTimingGroups_nil]
      exact checked_nil
  | skip c rest hnone ih =>
      rw [clearTimingGroups_cons hnone]
      refine checked_cons ih fun flags gap hparse => ?_
      obtain ⟨hflags, hgap, after, hstart⟩ := TimingGroup.exists_of_starts hparse
      obtain ⟨s, hs, hbefore⟩ := starts_of_clearTimingGroups (x := [c]) rest (by simp)
        (TimingGroup.isHeader_header hflags hgap) ⟨after, hstart.symm⟩
      exact absurd hbefore (hnone s hs)
  | statement _ rest hheader ih =>
      obtain ⟨flags, gap, hflags, hgap, rfl⟩ := hheader
      rw [clearTimingGroups_header hflags hgap, TimingGroup.mended]
      split
      · next hadmissible =>
          exact checked_header ih hflags
            (TimingGroup.bracket_not_mem hwords hflags hadmissible) hgap
            (Or.inr hadmissible)
      · rw [← TimingGroup.header_nil]
        exact checked_header ih (by simp) (by simp) (by simp) (Or.inl rfl)

/-- A bracket in the flags of a header is that of an arc, and no admitted flag has one. -/
theorem Checked.of_sameButArcs {words : List Text}
    (hwords : ∀ word ∈ words, '(' ∉ word) {s t : Text}
    (h : SameButArcs s t) (hs : Checked words s) : Checked words t := by
  induction h with
  | nil => exact checked_nil
  | @cons c s t h ih =>
      refine checked_cons (ih (Checked.tail (a := [c]) hs)) fun flags gap hparse => ?_
      cases hbefore : parse? (c :: s) with
      | none =>
          rw [TimingGroup.parse?_eq_none_of_same (.cons c h) hbefore] at hparse
          cases hparse
      | some p =>
          obtain ⟨before, gap⟩ := p
          have hchecked := hs _ before gap List.suffix_rfl hbefore
          obtain ⟨after, -, rest, -, hstart, hflags, hflags', hgap, -, hsame⟩ :=
            TimingGroup.parse?_same (.cons c h) hbefore
          rw [hstart, TimingGroup.parse?_header hflags' hgap] at hparse
          cases hparse
          rcases hsame with rfl | hbracket
          · exact hchecked
          · exact absurd hbracket
              (TimingGroup.bracket_not_mem_of_checked hwords hflags hgap hchecked)
  | @arc a b s t ha hb h ih =>
      intro u flags gap hu hparse
      rcases Text.suffix_append_cases hu with hu | ⟨z, hz, hsuffix, rfl⟩
      · exact ih hs.tail u flags gap hu hparse
      · refine absurd (TimingGroup.keyword_prefix_of_parse? hparse) ?_
        exact Arc.not_keyword_start hb ("timinggroup".toList) (by decide) (by decide) hz hsuffix t

theorem checked_sanitize (hwords : ∀ word ∈ allowed.timingGroups, '(' ∉ word) (t : Text) :
    Checked allowed.timingGroups (sanitize allowed t).1 := by
  rw [sanitize_fst]
  exact (checked_clearTimingGroups hwords _).of_sameButArcs hwords (sameButArcs_judged _)

/-- If no allowed word has a bracket, every header in a sanitized chart is without flags or has
admitted flags only, wherever it starts. Checking the flags keeps the text around the headers and
the headers with admitted flags, counts the headers that it changes, and finds nothing to do in what
it leaves. -/
theorem headers_sound (allowed : Whitelists) (t : Text) :
    ((∀ word ∈ allowed.timingGroups, '(' ∉ word) →
      ∀ u flags gap, u <:+ (sanitize allowed t).1 → parse? u = some (flags, gap) →
        (∃ rest, u = header flags gap ++ rest) ∧
          (header flags gap = cleared ∨ Admissible allowed.timingGroups flags)) ∧
    ∃ heads : List (Text × Text),
      (∀ head ∈ heads, ')' ∉ head.1 ∧ ∀ c ∈ head.2, isChartBlank c = true) ∧
      (timingGroups t).text = t ∧
      (timingGroups t).statements = heads.map (fun head => header head.1 head.2) ∧
      (timingGroups (clearTimingGroups allowed t).1).text = (clearTimingGroups allowed t).1 ∧
      (timingGroups (clearTimingGroups allowed t).1).statements =
        heads.map (fun head => TimingGroup.mended allowed.timingGroups head.1 head.2) ∧
      (timingGroups (clearTimingGroups allowed t).1).gaps = (timingGroups t).gaps ∧
      (timingGroups (clearTimingGroups allowed t).1).tail = (timingGroups t).tail ∧
      (clearTimingGroups allowed t).2 = { cleared := (heads.countP fun head =>
        TimingGroup.mended allowed.timingGroups head.1 head.2 ≠ header head.1 head.2) } ∧
      clearTimingGroups allowed (clearTimingGroups allowed t).1 =
        ((clearTimingGroups allowed t).1, {}) := by
  constructor
  · intro hwords u flags gap hu hparse
    obtain ⟨-, -, hstart⟩ := TimingGroup.exists_of_starts hparse
    exact ⟨hstart, checked_sanitize hwords t u flags gap hu hparse⟩
  · have hheads : ∀ s ∈ (timingGroups t).statements, ∃ head : Text × Text,
        (')' ∉ head.1 ∧ ∀ c ∈ head.2, isChartBlank c = true) ∧ s = header head.1 head.2 := by
      intro s hs
      obtain ⟨flags, gap, hflags, hgap, rfl⟩ := TimingGroup.reads.of_mem s hs
      exact ⟨(flags, gap), ⟨hflags, hgap⟩, rfl⟩
    obtain ⟨heads, hshaped, hstatements⟩ := Text.exists_map_eq hheads
    refine ⟨heads, hshaped, text_scan _ _ t, hstatements, text_scan _ _ _, ?_, ?_, ?_, ?_,
      clearTimingGroups_again t⟩
    · rw [timingGroups_clearTimingGroups, Tiling.statements_map, hstatements, List.map_map]
      exact List.map_congr_left fun head hhead =>
        TimingGroup.apply_header (hshaped head hhead).1 (hshaped head hhead).2
    · rw [timingGroups_clearTimingGroups, Tiling.gaps_map]
    · rw [timingGroups_clearTimingGroups, Tiling.tail_map]
    · have hcount : (timingGroups t).count (TimingGroup.verdict allowed.timingGroups) (· ≠ .keep) =
          heads.countP fun head => TimingGroup.mended allowed.timingGroups head.1 head.2 ≠
            header head.1 head.2 := by
        rw [Tiling.count, hstatements, List.countP_map]
        refine List.countP_congr fun head hhead => ?_
        simp [TimingGroup.verdict_eq_keep_iff (hshaped head hhead).1 (hshaped head hhead).2]
      rw [clearTimingGroups, hcount]

/-- A header among the flags of another goes with them. -/
theorem headers_sound_nested :
    (∀ word ∈ ({} : Whitelists).timingGroups, '(' ∉ word) ∧
      (sanitize {} "timinggroup(anglex,timinggroup(foo)\x7btiminggroup(angley,1_0.5)\x7b").1 =
        "timinggroup()\x7btiminggroup(angley,1_0.5)\x7b".toList ∧
      (header "angley,1_0.5".toList [] = cleared ∨
        Admissible ({} : Whitelists).timingGroups "angley,1_0.5".toList) := by
  have hwords : ∀ word ∈ ({} : Whitelists).timingGroups, '(' ∉ word := by decide
  have hchart : (sanitize
      {} "timinggroup(anglex,timinggroup(foo)\x7btiminggroup(angley,1_0.5)\x7b").1 =
      "timinggroup()\x7btiminggroup(angley,1_0.5)\x7b".toList := by decide +kernel
  have hsuffix : "timinggroup(angley,1_0.5)\x7b".toList <:+
      (sanitize {} "timinggroup(anglex,timinggroup(foo)\x7btiminggroup(angley,1_0.5)\x7b").1 := by
    rw [hchart]
    decide +kernel
  exact ⟨hwords, hchart, ((headers_sound {} _).1 hwords _ _ [] hsuffix (by decide +kernel)).2⟩

end Chart
end ChartPackage
