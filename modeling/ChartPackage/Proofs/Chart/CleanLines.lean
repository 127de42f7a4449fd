import Mathlib
import ChartPackage.Proofs.Chart.BlankLines
import ChartPackage.Proofs.Chart.Headers

/-!
The lines of a sanitized chart. Blank lines go before the headers and the arcs are looked at. What
becomes of a header or of an arc keeps the last character, which is no line break, and has no break
that was not there before; so no blank line comes up afterwards.
-/

namespace ChartPackage

namespace Text

/-- No two line breaks in a row, in a text and the character in front of it. -/
def Spaced (before : Char) (t : Text) : Prop :=
  List.IsChain (fun c d => c = '\n' → d ≠ '\n') (before :: t)

variable {before : Char} {t : Text}

theorem spaced_cons {c : Char} : Spaced before (c :: t) ↔ (before = '\n' → c ≠ '\n') ∧ Spaced c t :=
  List.isChain_cons_cons

theorem spaced_append {c : Char} {a : Text} :
    Spaced before (a ++ c :: t) ↔ Spaced before (a ++ [c]) ∧ Spaced c t := by
  rw [Spaced, Spaced, Spaced, ← List.cons_append, List.isChain_split, List.cons_append]

theorem spaced_of_no_break (h : '\n' ∉ t) : Spaced before t := by
  induction t generalizing before with
  | nil => exact .singleton before
  | cons c t ih =>
      obtain ⟨hc, ht⟩ := not_or.mp (mt List.mem_cons.mpr h)
      exact spaced_cons.mpr ⟨fun _ => Ne.symm hc, ih ht⟩

/-- A line with its break, in front of a text. -/
theorem spaced_line {l : Text} (hl : '\n' ∉ l) :
    Spaced '\n' (l ++ '\n' :: t) ↔ l ≠ [] ∧ Spaced '\n' t := by
  rw [spaced_append]
  refine and_congr_left fun _ => ?_
  rcases List.eq_nil_or_concat l with rfl | ⟨k, c, rfl⟩
  · simp [spaced_cons]
  · rw [List.concat_eq_append] at hl ⊢
    have hc : c ≠ '\n' := fun heq => hl (by simp [heq])
    have hbreak : Spaced c ['\n'] := spaced_cons.mpr ⟨fun heq => absurd heq hc, .singleton _⟩
    rw [List.append_assoc, List.singleton_append, spaced_append]
    exact iff_of_true ⟨spaced_of_no_break hl, hbreak⟩ (by simp)

theorem spaced_lines {ls : List Text} {last : Text} (hls : ∀ l ∈ ls, '\n' ∉ l)
    (hlast : '\n' ∉ last) :
    Spaced '\n' (endLines ls ++ last) ↔ ∀ l ∈ ls, l ≠ [] := by
  induction ls with
  | nil => simpa using spaced_of_no_break hlast
  | cons l ls ih =>
      obtain ⟨hl, hls⟩ := List.forall_mem_cons.mp hls
      rw [endLines_cons, List.append_assoc, List.cons_append, spaced_line hl, ih hls,
        List.forall_mem_cons]

/-- The lines that end with a break are not empty. -/
theorem Spaced.lines_ne_nil (h : Spaced '\n' t) : ∀ l ∈ (lines t).dropLast, l ≠ [] := by
  obtain ⟨ls, last, rfl, hls, hlast⟩ := exists_lines t
  rw [lines_endLines_append hls, lines_of_no_break hlast, List.dropLast_concat]
  exact (spaced_lines hls hlast).mp h

theorem Spaced.head_ne (h : Spaced '\n' t) : t.head? ≠ some '\n' := by
  intro hhead
  obtain ⟨rest, rfl⟩ := List.head?_eq_some_iff.mp hhead
  exact (spaced_cons.mp h).1 rfl rfl

theorem Spaced.no_pair (h : Spaced before t) : ¬ ['\n', '\n'] <:+: t := by
  rintro ⟨a, b, rfl⟩
  rw [List.append_assoc, List.cons_append, spaced_append] at h
  exact (spaced_cons.mp h.2).1 rfl rfl

end Text

/-- A pass that writes no line breaks, and keeps the last character of each statement, brings no two
breaks together. -/
theorem Reads.spaced_judged {keyword : Text} {extent : Text → Option Nat} {Statement : Text → Prop}
    {verdict : Text → Verdict} (h : Reads keyword extent Statement)
    (hends : ∀ s, Statement s → ∃ k k' c, s = k ++ [c] ∧ (verdict s).apply s = k' ++ [c] ∧
      ∀ before, Text.Spaced before (k ++ [c]) → Text.Spaced before (k' ++ [c]))
    {before : Char} {t : Text} (ht : Text.Spaced before t) :
    Text.Spaced before ((scan keyword extent t).judged verdict) := by
  induction t using h.induction generalizing before with
  | nil => rwa [scan]
  | skip c rest hnone ih =>
      obtain ⟨hc, hrest⟩ := Text.spaced_cons.mp ht
      rw [h.scan_cons hnone, Tiling.judged_lead, List.singleton_append]
      exact Text.spaced_cons.mpr ⟨hc, ih hrest⟩
  | statement s rest hs ih =>
      obtain ⟨k, k', c, rfl, happly, hk⟩ := hends s hs
      rw [h.scan_append hs, Tiling.judged_cons, happly]
      rw [List.append_assoc, List.singleton_append, Text.spaced_append] at ht ⊢
      exact ⟨hk before ht.1, ih ht.2⟩

namespace Chart

variable {allowed : Whitelists} {t : Text}

theorem spaced_dropBlankLines (t : Text) : Text.Spaced '\n' (dropBlankLines t) := by
  obtain ⟨ls, last, rfl, hls, hlast⟩ := Text.exists_lines t
  rw [dropBlankLines_endLines_append hls hlast]
  refine (Text.spaced_lines (fun l hl => hls l (List.mem_of_mem_filter hl)) hlast).mpr
    fun l hl hnil => ?_
  have hink := List.of_mem_filter hl
  rw [hnil] at hink
  cases hink

theorem spaced_clearTimingGroups {before : Char} (h : Text.Spaced before t) :
    Text.Spaced before (clearTimingGroups allowed t).1 := by
  refine TimingGroup.reads.spaced_judged ?_ h
  rintro _ ⟨flags, gap, hflags, hgap, rfl⟩
  have hconcat : ∀ flags gap, TimingGroup.header flags gap =
      TimingGroup.keyword ++ (flags ++ ')' :: gap) ++ ['{'] := by simp [TimingGroup.header]
  rw [TimingGroup.apply_header hflags hgap, TimingGroup.mended]
  split
  · exact ⟨_, _, '{', hconcat flags gap, hconcat flags gap, fun _ hkept => hkept⟩
  · rw [← TimingGroup.header_nil]
    exact ⟨_, _, '{', hconcat flags gap, hconcat [] [], fun _ _ =>
      Text.spaced_of_no_break (by decide)⟩

theorem spaced_repairArcs {before : Char} (h : Text.Spaced before t) :
    Text.Spaced before (repairArcs t).1 := by
  refine Arc.reads.spaced_judged ?_ h
  rintro _ ⟨a, ha, rfl⟩
  rw [Arc.apply_render ha]
  refine ⟨a.body, a.mended.body, ')', a.render_eq, a.mended.render_eq, fun _ _ =>
    Text.spaced_of_no_break ?_⟩
  exact fun hbreak => absurd (Arc.not_blank_render (Arc.mended_shaped ha) _ hbreak) (by decide)

/-- The blanks of a sanitized chart are line breaks; none stands in front, and no two stand in a
row. -/
theorem lines_sanitize (allowed : Whitelists) (t : Text) :
    (∀ c ∈ (sanitize allowed t).1, isChartBlank c = true → c = '\n') ∧
      (sanitize allowed t).1.head? ≠ some '\n' ∧
      ¬ ['\n', '\n'] <:+: (sanitize allowed t).1 ∧
      ∀ line ∈ (Text.lines (sanitize allowed t).1).dropLast, line ≠ [] := by
  have hspaced : Text.Spaced '\n' (sanitize allowed t).1 :=
    spaced_repairArcs (spaced_clearTimingGroups (spaced_dropBlankLines _))
  exact ⟨stripped_sanitize allowed t, hspaced.head_ne, hspaced.no_pair, hspaced.lines_ne_nil⟩

end Chart
end ChartPackage
