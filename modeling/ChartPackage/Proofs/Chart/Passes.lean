import Mathlib
import ChartPackage.Proofs.Chart.Stability

/-!
The passes over headers and over arcs, statement by statement. A pass goes through a text by the
statements of its kind, and by single characters where none starts. If what becomes of a statement
is one again, and no other comes up, the text that a pass leaves is scanned as the text that it was
given.
-/

namespace ChartPackage

/-- A text is gone through by statements, and by single characters where none starts. -/
theorem Text.statement_induction {P Statement : Text → Prop}
    (hne : ∀ s, Statement s → s ≠ []) (nil : P [])
    (skip : ∀ c rest, (∀ s, Statement s → ¬ s <+: c :: rest) → P rest → P (c :: rest))
    (statement : ∀ s rest, Statement s → P rest → P (s ++ rest)) (t : Text) : P t := by
  induction hn : t.length using Nat.strongRecOn generalizing t with
  | ind n ih =>
      subst hn
      cases t with
      | nil => exact nil
      | cons c rest =>
          by_cases hstart : ∃ s, Statement s ∧ s <+: c :: rest
          · obtain ⟨s, hs, after, hafter⟩ := hstart
            have hpos := List.length_pos_of_ne_nil (hne s hs)
            rw [← hafter] at ih ⊢
            exact statement s after hs
              (ih after.length (by rw [List.length_append]; omega) after rfl)
          · push Not at hstart
            exact skip c rest hstart (ih rest.length (Nat.lt_succ_self _) rest rfl)

/-- A stem and a mark start in a text only at its front, if the text has no other mark. -/
theorem Text.eq_of_start {stem inner z rest : Text} {mark close : Char} (hstem : mark ∉ stem)
    (hinner : mark ∉ inner)
    (hclose : close ∉ stem ++ [mark]) (hz : z ≠ [])
    (hsuffix : z <:+ stem ++ mark :: inner ++ [close])
    (h : stem ++ [mark] <+: z ++ rest) : z = stem ++ mark :: inner ++ [close] := by
  rw [List.suffix_concat_iff] at hsuffix
  rcases hsuffix with rfl | ⟨z, rfl, l, hl⟩
  · exact absurd rfl hz
  · rw [List.append_assoc, List.singleton_append] at h
    obtain ⟨w, rfl⟩ := Text.prefix_of_prefix_append_cons hclose h
    have hjoin : stem ++ mark :: inner = l ++ stem ++ mark :: w := by simpa using hl.symm
    obtain ⟨-, -, rfl⟩ := (List.append_cons_inj_of_notMem hstem hinner).mp hjoin
    simp

/-- Texts that are all written from something of a kind are written from a list of it. -/
theorem Text.exists_map_eq {α : Type} {Good : α → Prop} {render : α → Text} {texts : List Text}
    (h : ∀ s ∈ texts, ∃ a, Good a ∧ s = render a) : ∃ as :
      List α, (∀ a ∈ as, Good a) ∧ texts = as.map render := by
  induction texts with
  | nil => exact ⟨[], by simp, rfl⟩
  | cons s texts ih =>
      obtain ⟨⟨a, ha, rfl⟩, htexts⟩ := List.forall_mem_cons.mp h
      obtain ⟨as, has, rfl⟩ := ih htexts
      exact ⟨a :: as, List.forall_mem_cons.mpr ⟨ha, has⟩, rfl⟩

namespace Tiling

/-- The texts in front of the statements. -/
def gaps (t : Tiling) : List Text := t.parts.map (·.1)

/-- The tiling with each statement turned into another text. -/
def map (f : Text → Text) (t : Tiling) : Tiling :=
  ⟨t.parts.map fun (gap, statement) => (gap, f statement), t.tail⟩

theorem map_lead (f : Text → Text) (gap : Text) (t : Tiling) :
    (t.lead gap).map f = (t.map f).lead gap := by
  obtain ⟨_ | ⟨⟨_, _⟩, _⟩, _⟩ := t <;> rfl

theorem map_cons (f : Text → Text) (statement : Text) (t : Tiling) :
    (t.cons statement).map f = (t.map f).cons (f statement) := rfl

theorem statements_map (f : Text → Text) (t : Tiling) :
    (t.map f).statements = t.statements.map f := by
  simp [map, statements]

theorem gaps_map (f : Text → Text) (t : Tiling) : (t.map f).gaps = t.gaps := by
  simp [map, gaps]

theorem tail_map (f : Text → Text) (t : Tiling) : (t.map f).tail = t.tail := rfl

end Tiling

/-- The extents of texts are those of the statements in front of them. -/
structure Reads (keyword : Text) (extent : Text → Option Nat) (Statement : Text → Prop) : Prop where
  keyword_ne : keyword ≠ []
  starts : ∀ s, Statement s → keyword <+: s
  takes : ∀ s rest, Statement s → extent (s ++ rest) = some s.length
  refuses : ∀ t, (∀ s, Statement s → ¬ s <+: t) → extent t = none

namespace Reads

variable {keyword : Text} {extent : Text → Option Nat} {Statement : Text → Prop}
    {verdict : Text → Verdict}

theorem ne_nil (h : Reads keyword extent Statement) {s : Text} (hs : Statement s) : s ≠ [] :=
  fun hnil => h.keyword_ne (List.prefix_nil.mp (hnil ▸ h.starts s hs))

theorem scan_cons (h : Reads keyword extent Statement) {c : Char} {rest : Text}
    (hnone : ∀ s, Statement s → ¬ s <+: c :: rest) :
    scan keyword extent (c :: rest) = (scan keyword extent rest).lead [c] :=
  scan_cons_of_none fun _ => h.refuses _ hnone

theorem scan_append (h : Reads keyword extent Statement) {s : Text} (hs : Statement s)
    (rest : Text) :
    scan keyword extent (s ++ rest) = (scan keyword extent rest).cons s :=
  scan_statement (h.starts s hs) (h.ne_nil hs) (h.takes s rest hs)

theorem induction (h : Reads keyword extent Statement) {P : Text → Prop} (nil : P [])
    (skip : ∀ c rest, (∀ s, Statement s → ¬ s <+: c :: rest) → P rest → P (c :: rest))
    (statement : ∀ s rest, Statement s → P rest → P (s ++ rest)) (t : Text) : P t :=
  Text.statement_induction (fun _ hs => h.ne_nil hs) nil skip statement t

theorem of_mem (h : Reads keyword extent Statement) {t : Text} :
    ∀ s ∈ (scan keyword extent t).statements, Statement s := by
  induction t using h.induction with
  | nil =>
      rw [scan]
      exact fun s hs => absurd hs List.not_mem_nil
  | skip c rest hnone ih =>
      rw [h.scan_cons hnone, Tiling.statements_lead]
      exact ih
  | statement s rest hs ih =>
      rw [h.scan_append hs, Tiling.statements_cons]
      exact List.forall_mem_cons.mpr ⟨hs, ih⟩

/-- The scan of what a pass leaves. Where no statement started, none starts in front of what the
pass makes of the text behind. -/
theorem scan_judged (h : Reads keyword extent Statement)
    (happly : ∀ s, Statement s → Statement ((verdict s).apply s))
    (hquiet : ∀ c rest, (∀ s, Statement s → ¬ s <+: c :: rest) →
      ∀ s, Statement s → ¬ s <+: c :: (scan keyword extent rest).judged verdict) (t : Text) :
    scan keyword extent ((scan keyword extent t).judged verdict) =
      (scan keyword extent t).map fun s => (verdict s).apply s := by
  induction t using h.induction with
  | nil =>
      rw [scan]
      exact scan.eq_1 keyword extent
  | skip c rest hnone ih =>
      rw [h.scan_cons hnone, Tiling.judged_lead, List.singleton_append,
        h.scan_cons (hquiet c rest hnone), ih,
        Tiling.map_lead]
  | statement s rest hs ih =>
      rw [h.scan_append hs, Tiling.judged_cons, h.scan_append (happly s hs), ih, Tiling.map_cons]

end Reads

/-! ### Arcs -/

namespace Arc

/-- The text of an arc. -/
def IsWritten (s : Text) : Prop := ∃ a : Arc, a.Shaped ∧ s = a.render

/-- What becomes of an arc. -/
def mended (a : Arc) : Arc := if a.Degenerate then a.repaired else a

theorem mended_shaped {a : Arc} (h : a.Shaped) : a.mended.Shaped := by
  rw [mended]
  split
  · exact repaired_shaped h
  · exact h

theorem not_degenerate_mended {a : Arc} (h : a.Shaped) : ¬ a.mended.Degenerate := by
  rw [mended]
  split
  · next hdegenerate => exact not_degenerate_repaired h hdegenerate
  · next hdegenerate => exact hdegenerate

theorem apply_render {a : Arc} (h : a.Shaped) :
    (verdict a.render).apply a.render = a.mended.render := by
  rw [verdict_render h, mended]
  split <;> rfl

theorem reads : Reads keyword extent? IsWritten where
  keyword_ne := by decide
  starts := by
    rintro _ ⟨a, -, rfl⟩
    exact keyword_prefix_render a
  takes := by
    rintro _ rest ⟨a, ha, rfl⟩
    exact extent?_render ha rest
  refuses t hnone := by
    cases hfound : extent? t with
    | none => rfl
    | some n =>
        obtain ⟨a, rest, ha, rfl, -⟩ := exists_of_extent? hfound
        exact absurd (List.prefix_append _ _) (hnone _ ⟨a, ha, rfl⟩)

theorem parse?_eq_none {t : Text} (hnone : ∀ s, IsWritten s → ¬ s <+: t) : parse? t = none := by
  cases hparse : parse? t with
  | none => rfl
  | some p =>
      obtain ⟨ha, rfl⟩ := parse?_eq_some_iff.mp hparse
      exact absurd (List.prefix_append _ _) (hnone _ ⟨p.1, ha, rfl⟩)

theorem not_starts {t : Text} (h : parse? t = none) : ∀ s, IsWritten s → ¬ s <+: t := by
  rintro _ ⟨a, ha, rfl⟩ ⟨rest, rfl⟩
  rw [parse?_render ha] at h
  cases h

end Arc

namespace Chart

theorem repairArcs_nil : (repairArcs []).1 = [] := by
  rw [repairArcs, arcs, scan]
  rfl

theorem repairArcs_cons {c : Char} {rest : Text} (hnone : ∀ s, Arc.IsWritten s →
    ¬ s <+: c :: rest) :
    (repairArcs (c :: rest)).1 = c :: (repairArcs rest).1 := by
  simp only [repairArcs, arcs, Arc.reads.scan_cons hnone, Tiling.judged_lead, List.singleton_append]

theorem repairArcs_render {a : Arc} (h : a.Shaped) (rest : Text) :
    (repairArcs (a.render ++ rest)).1 = a.mended.render ++ (repairArcs rest).1 := by
  simp only [repairArcs, arcs, Arc.reads.scan_append ⟨a, h, rfl⟩, Tiling.judged_cons,
    Arc.apply_render h]

/-- No arc starts in a text without an `a`. -/
theorem repairArcs_append_left {k : Text} (hk : 'a' ∉ k) (rest : Text) :
    (repairArcs (k ++ rest)).1 = k ++ (repairArcs rest).1 := by
  induction k with
  | nil => rfl
  | cons c k ih =>
      obtain ⟨hc, hk⟩ := not_or.mp (mt List.mem_cons.mpr hk)
      have hnone : ∀ s, Arc.IsWritten s → ¬ s <+: c :: (k ++ rest) := by
        rintro _ ⟨a, -, rfl⟩ hstart
        rw [Arc.render_eq_cons] at hstart
        exact hc (List.cons_prefix_cons.mp hstart).1
      rw [List.cons_append, repairArcs_cons hnone, ih hk, List.cons_append]

end Chart

/-! ### Headers -/

namespace TimingGroup

variable {words : List Text} {flags gap : Text}

/-- The text of a header. -/
def IsHeader (s : Text) : Prop :=
  ∃ flags gap, ')' ∉ flags ∧ (∀ c ∈ gap, isChartBlank c = true) ∧ s = header flags gap

/-- Whitelisted, or made of digits, underscores and points. -/
def Admitted (words : List Text) (flag : Text) : Prop :=
  flag ∈ words ∨ flag ≠ [] ∧ ∀ c ∈ flag, c.isDigit = true ∨ c = '_' ∨ c = '.'

/-- Each flag between the commas is admitted, the blanks around it apart. -/
def Admissible (words : List Text) (flags : Text) : Prop :=
  ∀ flag ∈ flags.splitOn ',', Admitted words (Text.trim isChartBlank flag)

instance (words : List Text) (flag : Text) : Decidable (Admitted words flag) :=
  inferInstanceAs (Decidable (_ ∨ _))

instance (words : List Text) (flags : Text) : Decidable (Admissible words flags) :=
  inferInstanceAs (Decidable (∀ flag ∈ flags.splitOn ',', _))

/-- What becomes of a header. -/
def mended (words : List Text) (flags gap : Text) : Text :=
  if Admissible words flags then header flags gap else cleared

theorem isValidFlag_iff {flag : Text} : isValidFlag words flag = true ↔ Admitted words flag := by
  simp [isValidFlag, isNumericLiteral, Admitted, or_assoc]

theorem isHeader_header (hflags : ')' ∉ flags) (hgap : ∀ c ∈ gap, isChartBlank c = true) :
    IsHeader (header flags gap) := ⟨flags, gap, hflags, hgap, rfl⟩

theorem header_nil : header [] [] = cleared := rfl

theorem isHeader_cleared : IsHeader cleared := ⟨[], [], by simp, by simp, rfl⟩

theorem verdict_header (hflags : ')' ∉ flags) (hgap : ∀ c ∈ gap, isChartBlank c = true) :
    verdict words (header flags gap) =
      if Admissible words flags then .keep else if header flags gap =
        cleared then .keep else .replace cleared := by
  have hparse := parse?_header hflags hgap []
  rw [List.append_nil] at hparse
  have hall : ((flags.splitOn ',').all fun flag =>
      isValidFlag words (Text.trim isChartBlank flag)) = true ↔
      Admissible words flags := by
    simp only [List.all_eq_true, isValidFlag_iff, Admissible]
  simp only [verdict, hparse, hall]

theorem apply_header (hflags : ')' ∉ flags) (hgap : ∀ c ∈ gap, isChartBlank c = true) :
    (verdict words (header flags gap)).apply (header flags gap) = mended words flags gap := by
  rw [verdict_header hflags hgap, mended]
  by_cases hadmissible : Admissible words flags
  · rw [if_pos hadmissible, if_pos hadmissible, Verdict.apply]
  · rw [if_neg hadmissible, if_neg hadmissible]
    split
    · next hcleared => exact hcleared
    · rfl

theorem bracket_not_mem (hwords : ∀ word ∈ words, '(' ∉ word) (hflags : ')' ∉ flags)
    (h : Admissible words flags) : '(' ∉ flags := by
  intro hbracket
  have hgap : ∀ c ∈ ([] : Text), isChartBlank c = true := by simp
  have hreplaced := verdict_of_bracket hwords hflags hgap hbracket
  rw [verdict_header hflags hgap, if_pos h] at hreplaced
  cases hreplaced

theorem exists_of_starts {t : Text} {flags gap : Text} (h : parse? t = some (flags, gap)) :
    ')' ∉ flags ∧ (∀ c ∈ gap, isChartBlank c = true) ∧ ∃ rest, t = header flags gap ++ rest := by
  obtain ⟨rest, rfl, hflags, hgap⟩ := exists_of_parse? h
  exact ⟨hflags, hgap, rest, by simp [header]⟩

theorem parse?_eq_none {t : Text} (hnone : ∀ s, IsHeader s → ¬ s <+: t) : parse? t = none := by
  cases hparse : parse? t with
  | none => rfl
  | some p =>
      obtain ⟨hflags, hgap, rest, rfl⟩ := exists_of_starts hparse
      exact absurd (List.prefix_append _ _) (hnone _ (isHeader_header hflags hgap))

theorem not_starts {t : Text} (h : parse? t = none) : ∀ s, IsHeader s → ¬ s <+: t := by
  rintro _ ⟨flags, gap, hflags, hgap, rfl⟩ ⟨rest, rfl⟩
  rw [parse?_header hflags hgap] at h
  cases h

theorem reads : Reads keyword extent? IsHeader where
  keyword_ne := by decide
  starts := by
    rintro _ ⟨flags, gap, -, -, rfl⟩
    exact List.prefix_append _ _
  takes := by
    rintro _ rest ⟨flags, gap, hflags, hgap, rfl⟩
    exact extent?_header hflags hgap rest
  refuses t hnone := extent?_of_none (parse?_eq_none hnone)

theorem isHeader_apply (words : List Text) {s : Text} (h : IsHeader s) :
    IsHeader ((verdict words s).apply s) := by
  obtain ⟨flags, gap, hflags, hgap, rfl⟩ := h
  rw [apply_header hflags hgap, mended]
  split
  · exact isHeader_header hflags hgap
  · exact isHeader_cleared

end TimingGroup

namespace Chart

variable {allowed : Whitelists}

theorem clearTimingGroups_cons {c : Char} {rest : Text} (hnone : ∀ s, TimingGroup.IsHeader s →
    ¬ s <+: c :: rest) :
    (clearTimingGroups allowed (c :: rest)).1 = c :: (clearTimingGroups allowed rest).1 := by
  simp only [clearTimingGroups, timingGroups, TimingGroup.reads.scan_cons hnone, Tiling.judged_lead,
    List.singleton_append]

theorem clearTimingGroups_header {flags gap : Text} (hflags : ')' ∉ flags)
    (hgap : ∀ c ∈ gap, isChartBlank c = true) (rest : Text) :
    (clearTimingGroups allowed (TimingGroup.header flags gap ++ rest)).1 =
      TimingGroup.mended allowed.timingGroups flags gap ++ (clearTimingGroups allowed rest).1 := by
  have hheader := TimingGroup.isHeader_header hflags hgap
  simp only [clearTimingGroups, timingGroups, TimingGroup.reads.scan_append hheader,
    Tiling.judged_cons,
    TimingGroup.apply_header hflags hgap]

/-- No header starts in an arc. -/
theorem clearTimingGroups_render {a : Arc} (h : a.Shaped) (rest : Text) :
    (clearTimingGroups allowed (a.render ++ rest)).1 = a.render ++
    (clearTimingGroups allowed rest).1 := by
  have hidle : ∀ s, s ≠ [] → s <:+ a.render → ¬ TimingGroup.keyword <+: s ++ rest :=
    fun s hs hsuffix =>
    Arc.not_keyword_start h ("timinggroup".toList) (by decide) (by decide) hs hsuffix rest
  have hscan : timingGroups (a.render ++ rest) = (timingGroups rest).lead a.render :=
    scan_gap fun s hs hsuffix hk => absurd hk (hidle s hs hsuffix)
  simp only [clearTimingGroups, hscan, Tiling.judged_lead]

end Chart
end ChartPackage
