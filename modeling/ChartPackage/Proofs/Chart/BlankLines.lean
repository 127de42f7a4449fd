import Mathlib
import ChartPackage.Proofs.Chart.ArcRepair
import ChartPackage.Proofs.Chart.Chunks
import ChartPackage.Proofs.Text.Breaks

/-!
Dropping blank lines. In a stripped chart it makes runs of line breaks shorter and does nothing
else; what it leaves has no blank lines, also after the arcs in it have been repaired.
-/

namespace ChartPackage

open Text (FewerBreaks)

/-- A text is a list of lines with a break behind each, and a last line. -/
theorem Text.exists_lines (t : Text) :
    ∃ ls last, t = Text.endLines ls ++ last ∧ (∀ l ∈ ls, '\n' ∉ l) ∧ '\n' ∉ last := by
  have hbreak : ∀ l ∈ lines t, '\n' ∉ l := fun l hl => not_mem_of_mem_splitOn hl
  have hjoin : unlines (lines t) = t := List.intercalate_splitOn '\n'
  rcases List.eq_nil_or_concat (lines t) with hnil | ⟨ls, last, hlines⟩
  · exact absurd hnil (by simp [lines])
  · rw [hlines, List.concat_eq_append] at hbreak hjoin
    rw [unlines_append (List.cons_ne_nil last [])] at hjoin
    refine ⟨ls, last, ?_, fun l hl => hbreak l (by simp [hl]), hbreak last (by simp)⟩
    rw [← hjoin, unlines, List.intercalate_singleton]

namespace Chart

theorem dropBlankLines_of_no_break {t : Text} (h : '\n' ∉ t) : dropBlankLines t = t := by
  rw [dropBlankLines, Text.lines_of_no_break h]
  exact List.intercalate_singleton

theorem dropBlankLines_cons_line {l : Text} (hbreak : '\n' ∉ l)
    (hink : l.all isChartBlank = false) (t : Text) :
    dropBlankLines (l ++ '\n' :: t) = l ++ '\n' :: dropBlankLines t := by
  have hone : Text.endLines [l] = l ++ ['\n'] := by simp
  have hline : dropBlankLines (Text.endLines [l]) = l ++ ['\n'] := by
    rw [dropBlankLines_endLines (by simpa using hbreak)]
    simp [hink]
  have hfront := dropBlankLines_append (Text.ended_endLines [l]) t
  rwa [hline, hone, List.append_assoc, List.append_assoc] at hfront

theorem dropBlankLines_endLines_append {ls : List Text} {last : Text} (hls : ∀ l ∈ ls, '\n' ∉ l)
    (hlast : '\n' ∉ last) : dropBlankLines (Text.endLines ls ++ last) =
      Text.endLines (ls.filter fun l => !l.all isChartBlank) ++ last := by
  rw [dropBlankLines_append (Text.ended_endLines ls), dropBlankLines_endLines hls,
    dropBlankLines_of_no_break hlast]

theorem eq_nil_of_blank {l : Text} (hbreak : '\n' ∉ l) (hstripped : ∀ c ∈ l, Stripped c)
    (hblank : l.all isChartBlank = true) : l = [] := by
  cases l with
  | nil => rfl
  | cons c l =>
      have hc : c = '\n' :=
        hstripped c (List.mem_cons_self ..) (List.all_eq_true.mp hblank c (List.mem_cons_self ..))
      exact absurd (List.mem_cons_self ..) (hc ▸ hbreak)

/-- A break in front of the chart stands for the one that the first line may follow. -/
theorem fewerBreaks_dropBlankLines {t : Text} (h : ∀ c ∈ t, Stripped c) :
    FewerBreaks ('\n' :: t) ('\n' :: dropBlankLines t) := by
  obtain ⟨ls, last, rfl, hls, hlast⟩ := Text.exists_lines t
  rw [dropBlankLines_endLines_append hls hlast]
  induction ls with
  | nil => exact FewerBreaks.refl _
  | cons l ls ih =>
      obtain ⟨hl, hls⟩ := List.forall_mem_cons.mp hls
      rw [Text.endLines_cons, List.append_assoc, List.cons_append] at h ⊢
      have hrest := ih (fun c hc => h c (by simp [hc])) hls
      by_cases hblank : l.all isChartBlank = true
      · obtain rfl := eq_nil_of_blank hl (fun c hc => h c (by simp [hc])) hblank
        exact .skip hrest
      · rw [List.filter_cons_of_pos (by simpa using hblank), Text.endLines_cons, List.append_assoc,
          List.cons_append]
        exact .cons '\n' (hrest.append_left l)

end Chart

namespace SameButArcs

/-- Lines correspond to lines: no arc holds a break. -/
theorem exists_of_break {l r u : Text} (h : SameButArcs (l ++ '\n' :: r) u) :
    ∃ l' r', u = l' ++ '\n' :: r' ∧ SameButArcs l l' ∧ SameButArcs r r' := by
  generalize hs : l ++ '\n' :: r = s at h
  induction h generalizing l with
  | nil => simp at hs
  | @cons c s t h ih =>
      cases l with
      | nil =>
          cases hs
          exact ⟨[], t, rfl, .nil, h⟩
      | cons d l =>
          rw [List.cons_append, List.cons.injEq] at hs
          obtain ⟨rfl, hs⟩ := hs
          obtain ⟨l', r', rfl, hl, hr⟩ := ih hs
          exact ⟨d :: l', r', rfl, .cons d hl, hr⟩
  | @arc a b s t ha hb h ih =>
      have hbreak : '\n' ∉ a.render := fun hmem =>
        absurd (Arc.not_blank_render ha _ hmem) (by decide)
      rcases List.append_eq_append_iff.mp hs with ⟨m, hm, hr⟩ | ⟨m, rfl, hm⟩
      · cases m with
        | nil =>
            obtain ⟨l', r', rfl, hl, hr⟩ := ih (l := []) hr
            rw [List.append_nil] at hm
            exact ⟨b.render ++ l', r', by simp, by simpa [hm] using SameButArcs.arc ha hb hl, hr⟩
        | cons d m =>
            obtain ⟨rfl, -⟩ := List.cons.inj hr
            exact absurd (by simp [hm]) hbreak
      · obtain ⟨l', r', rfl, hl, hr⟩ := ih hm.symm
        exact ⟨b.render ++ l', r', by simp, .arc ha hb hl, hr⟩

theorem no_break {s t : Text} (h : SameButArcs s t) (hs : '\n' ∉ s) : '\n' ∉ t := by
  intro hmem
  obtain ⟨l, r, rfl⟩ := List.append_of_mem hmem
  obtain ⟨l', r', rfl, -, -⟩ := h.symm.exists_of_break
  exact hs (by simp)

/-- What is blank has no arcs. -/
theorem eq_of_blank {s t : Text} (h : SameButArcs s t) (hs : s.all isChartBlank = true) :
    t = s := by
  have harcs : 'a' ∉ s := fun hmem => absurd (List.all_eq_true.mp hs _ hmem) (by decide)
  rw [← List.append_nil s] at h
  obtain ⟨t, rfl, hnil⟩ := h.of_append harcs
  cases hnil
  rw [List.append_nil]

end SameButArcs

namespace Chart

/-- A chart that has lost its blank lines has none after its arcs have been repaired. -/
theorem dropBlankLines_of_sameButArcs {t u : Text} (h : SameButArcs (dropBlankLines t) u) :
    dropBlankLines u = u := by
  obtain ⟨ls, last, rfl, hls, hlast⟩ := Text.exists_lines t
  rw [dropBlankLines_endLines_append hls hlast] at h
  have hink : ∀ l ∈ ls.filter fun l => !l.all isChartBlank, '\n' ∉ l ∧
      l.all isChartBlank = false := by
    intro l hl
    obtain ⟨hmem, hink⟩ := List.mem_filter.mp hl
    exact ⟨hls l hmem, by simpa using hink⟩
  generalize ls.filter (fun l => !l.all isChartBlank) = lines at h hink
  induction lines generalizing u with
  | nil => exact dropBlankLines_of_no_break (h.no_break hlast)
  | cons l lines ih =>
      obtain ⟨⟨hbreak, hl⟩, hlines⟩ := List.forall_mem_cons.mp hink
      rw [Text.endLines_cons, List.append_assoc, List.cons_append] at h
      obtain ⟨l', r', rfl, hsame, hrest⟩ := h.exists_of_break
      have hl' : l'.all isChartBlank = false := by
        by_contra hblank
        rw [Bool.not_eq_false] at hblank
        rw [hsame.symm.eq_of_blank hblank, hblank] at hl
        cases hl
      rw [dropBlankLines_cons_line (hsame.no_break hbreak) hl', ih hrest hlines]

end Chart
end ChartPackage
