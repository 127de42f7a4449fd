import Mathlib
import ChartPackage.Proofs.Chart.Blanks
import ChartPackage.Proofs.Chart.Clauses
import ChartPackage.Proofs.Chart.LineByLine

/-!
Sanitizing a chart in chunks. Every stage works line by line but for scene controls and
timing-group headers, whose readers look ahead over line breaks. If nothing in a chunk of whole
lines makes them look past its end, the chunk and any text behind it are sanitized apart.
-/

namespace ChartPackage

namespace Text

/-- Lines with a line break after each, and nothing behind the last. -/
def Ended (t : Text) : Prop := t = [] ∨ t.getLast? = some '\n'

theorem ended_concat (t : Text) : Ended (t ++ ['\n']) := Or.inr (by simp)

theorem not_ended_concat {c : Char} (h : c ≠ '\n') (t : Text) : ¬ Ended (t ++ [c]) := by
  rintro (hnil | hlast)
  · simp at hnil
  · simp [h] at hlast

theorem Ended.eq_concat {t : Text} (h : Ended t) (hne : t ≠ []) : ∃ s, t = s ++ ['\n'] := by
  rcases h with h | h
  · exact absurd h hne
  · exact List.getLast?_eq_some_iff.mp h

theorem Ended.suffix {s t : Text} (h : Ended t) (hs : s <:+ t) : Ended s := by
  by_cases hne : s = []
  · exact Or.inl hne
  · rcases h with rfl | h
    · exact absurd (List.suffix_nil.mp hs) hne
    · obtain ⟨r, rfl⟩ := hs
      rw [List.getLast?_append_of_ne_nil r hne] at h
      exact Or.inr h

/-- A mark without a line break that starts in a text of whole lines ends there. -/
theorem Ended.prefix_of_append {mark s rest : Text} (h : Ended s) (hs : s ≠ [])
    (hmark : '\n' ∉ mark)
    (hstart : mark <+: s ++ rest) : mark <+: s := by
  obtain ⟨u, rfl⟩ := h.eq_concat hs
  rw [List.append_assoc, List.singleton_append] at hstart
  exact (prefix_of_prefix_append_cons hmark hstart).trans (List.prefix_append u ['\n'])

theorem ended_endLines (ls : List Text) : Ended (endLines ls) := by
  rcases List.eq_nil_or_concat ls with rfl | ⟨ls, l, rfl⟩
  · exact Or.inl rfl
  · rw [List.concat_eq_append, endLines, List.flatMap_append, List.flatMap_singleton,
      ← List.append_assoc]
    exact ended_concat _

theorem Ended.exists_endLines {t : Text} (h : Ended t) :
    ∃ ls : List Text, (∀ l ∈ ls, '\n' ∉ l) ∧ t = endLines ls := by
  by_cases hne : t = []
  · exact ⟨[], by simp, hne⟩
  · obtain ⟨s, rfl⟩ := h.eq_concat hne
    refine ⟨lines s, fun l hl => not_mem_of_mem_splitOn hl, ?_⟩
    rw [← unlines_concat_nil, unlines]
    have hsplit : lines (s ++ ['\n']) = lines s ++ [[]] := lines_append_break s []
    rw [← hsplit, lines, List.intercalate_splitOn]

theorem unlines_append {ls ks : List Text} (h : ks ≠ []) :
    unlines (ls ++ ks) = endLines ls ++ unlines ks := by
  induction ls with
  | nil => rfl
  | cons l ls ih =>
      rw [List.cons_append, unlines, List.intercalate_cons_of_ne_nil (by simp [h])]
      simpa [unlines] using ih

theorem cut?_append_right {stem t before after : Text} {c : Char}
    (h : cut? (stem ++ [c]) t = some (before, after)) (rest : Text) :
    cut? (stem ++ [c]) (t ++ rest) = some (before, after ++ rest) := by
  obtain ⟨rfl, hfirst⟩ := cut?_eq_some_iff.mp h
  exact cut?_eq_some_iff.mpr ⟨by simp, hfirst⟩

end Text

namespace Tiling

theorem ended_judged {verdict : Text → Verdict} {t : Tiling} (htext : Text.Ended t.text)
    (hstatement : ∀ s ∈ t.statements, ¬ Text.Ended s) : Text.Ended (t.judged verdict) := by
  have htail : Text.Ended t.tail := htext.suffix (List.suffix_append _ _)
  by_cases hne : t.tail = []
  · -- Without a tail the text would end with a statement, so there is none.
    rcases List.eq_nil_or_concat t.parts with hparts | ⟨parts, part, hparts⟩
    · exact Or.inl (by simp [judged, hparts, hne])
    · have hlast : part.2 <:+ t.text := by
        rw [text, hparts, hne]
        simp [List.suffix_append_of_suffix]
      exact absurd (htext.suffix hlast) (hstatement part.2 (by simp [statements, hparts]))
  · obtain ⟨tail, htail⟩ := htail.eq_concat hne
    rw [judged, htail, ← List.append_assoc]
    exact Text.ended_concat _

end Tiling
namespace SceneControl

/-- Every keyword has the end of a statement somewhere behind it. -/
def Enclosed (t : Text) : Prop := ∀ after, keyword ++ after <:+ t → terminator <:+: after

theorem enclosed_iff {t : Text} :
    Enclosed t ↔ ∀ s ∈ t.tails, ∀ after ∈ Text.dropLead? keyword s, terminator <:+: after := by
  simp only [Option.mem_def, Text.dropLead?_eq_some_iff, List.mem_tails]
  exact ⟨fun h s hs after heq => h after (heq ▸ hs), fun h after hs => h _ hs after rfl⟩

instance (t : Text) : Decidable (Enclosed t) := decidable_of_iff _ enclosed_iff.symm

/-- What a control that is read looks like. -/
theorem exists_of_extent? {t : Text} {n : Nat} (h : extent? t = some n) :
    ∃ inner after, t = keyword ++ (inner ++ terminator ++ after) ∧
      n = (keyword ++ (inner ++ terminator)).length := by
  obtain ⟨⟨c, m⟩, hparse, rfl⟩ := Option.map_eq_some_iff.mp h
  obtain ⟨inner, after, ht, -, -, hlength⟩ := exists_of_parse? hparse
  refine ⟨inner, after, ht, hlength.trans ?_⟩
  rw [List.length_append, List.length_append, Nat.add_assoc]

theorem sized : Sized extent? := by
  intro t n h
  obtain ⟨inner, after, rfl, rfl⟩ := exists_of_extent? h
  constructor
  · exact List.length_pos_of_ne_nil (List.append_ne_nil_of_left_ne_nil (by decide) _)
  · rw [← List.append_assoc keyword]
    exact (List.prefix_append _ after).length_le

theorem parse?_append {after : Text} (h : terminator <:+: after) (rest : Text) :
    parse? (keyword ++ after ++ rest) = parse? (keyword ++ after) := by
  cases hcut : Text.cut? terminator after with
  | none => exact absurd h (Text.cut?_eq_none_iff.mp hcut)
  | some p =>
      have hlonger : Text.cut? terminator (after ++ rest) = some (p.1, p.2 ++ rest) := by
        rw [terminator_eq] at hcut ⊢
        exact Text.cut?_append_right hcut rest
      rw [List.append_assoc, parse?_of_cut hlonger, parse?_of_cut hcut]

theorem closed_of_enclosed {t : Text} (hended : Text.Ended t) (h : Enclosed t) :
    Closed keyword extent? t := by
  refine closed_of_local sized fun s rest hs hsuffix hk => ?_
  have hstart := (hended.suffix hsuffix).prefix_of_append hs (by decide) hk
  refine ⟨hstart, ?_⟩
  obtain ⟨after, rfl⟩ := hstart
  rw [extent?, parse?_append (h after hsuffix), extent?]

theorem not_ended_of_mem {t statement : Text}
    (h : statement ∈ (scan keyword extent? t).statements) :
    ¬ Text.Ended statement := by
  obtain ⟨rest, -, -, hextent⟩ := statement_of_mem sized h
  obtain ⟨inner, after, ht, hlength⟩ := exists_of_extent? hextent
  have hstatement : statement = keyword ++ inner ++ [')'] ++ [';'] := by
    have hjoin : statement ++ rest = (keyword ++ inner ++ [')'] ++ [';']) ++ after := by
      simp [ht, terminator]
    exact List.append_inj_left hjoin (by simp [hlength, terminator])
  rw [hstatement]
  exact Text.not_ended_concat (by decide) _

end SceneControl

namespace TimingGroup

/-- Every keyword has a closing bracket somewhere behind it, and behind the first one more than
line breaks. -/
def Enclosed (t : Text) : Prop :=
  ∀ after, keyword ++ after <:+ t →
    ∃ flags rest, Text.cut? ")" after = some (flags, rest) ∧ rest.dropWhile (· = '\n') ≠ []

theorem enclosed_iff {t : Text} :
    Enclosed t ↔ ∀ s ∈ t.tails, ∀ after ∈ Text.dropLead? keyword s,
      ∃ p ∈ Text.cut? ")" after, p.2.dropWhile (· = '\n') ≠ [] := by
  simp only [Option.mem_def, Text.dropLead?_eq_some_iff, List.mem_tails, Prod.exists]
  exact ⟨fun h s hs after heq => h after (heq ▸ hs), fun h after hs => h _ hs after rfl⟩

instance (t : Text) : Decidable (Enclosed t) := decidable_of_iff _ enclosed_iff.symm

theorem cut?_bracket {t flags after : Text} :
    Text.cut? ")" t = some (flags, after) ↔ t = flags ++ ')' :: after ∧ ')' ∉ flags :=
  Text.cut?_char

theorem parse?_of_cut_none {t : Text} (h : Text.cut? ")" t = none) :
    parse? (keyword ++ t) = none := by
  simp only [parse?, Text.dropLead?_append, h, Option.bind_eq_bind, Option.bind_some,
    Option.bind_none]

theorem parse?_of_ink {t flags after rest : Text} {c : Char}
    (h : Text.cut? ")" t = some (flags, after))
    (hink : after.dropWhile isChartBlank = c :: rest) :
    parse? (keyword ++ t) = if c = '{' then some (flags, after.takeWhile isChartBlank)
      else none := by
  by_cases hc : c = '{'
  · rw [if_pos hc]
    rw [hc] at hink
    exact parse?_of_cut h hink
  · rw [if_neg hc]
    simp only [parse?, Text.dropLead?_append, h, List.span_eq_takeWhile_dropWhile, hink,
      Option.bind_eq_bind, Option.bind_some]
    split
    · next heq =>
        cases heq
        exact absurd rfl hc
    · rfl

theorem parse?_of_blank {t flags after : Text} (h : Text.cut? ")" t = some (flags, after))
    (hblank : after.dropWhile isChartBlank = []) : parse? (keyword ++ t) = none := by
  simp only [parse?, Text.dropLead?_append, h, List.span_eq_takeWhile_dropWhile, hblank,
    Option.bind_eq_bind, Option.bind_some]

/-- What a text with a header at its start looks like. -/
theorem exists_of_parse? {t flags gap : Text} (h : parse? t = some (flags, gap)) :
    ∃ rest, t = keyword ++ (flags ++ ')' :: (gap ++ '{' :: rest)) ∧ ')' ∉ flags ∧
      ∀ c ∈ gap, isChartBlank c = true := by
  cases hlead : Text.dropLead? keyword t with
  | none => simp [parse?, hlead] at h
  | some body =>
      rw [Text.dropLead?_eq_some_iff.mp hlead] at h ⊢
      cases hcut : Text.cut? ")" body with
      | none =>
          rw [parse?_of_cut_none hcut] at h
          cases h
      | some p =>
          obtain ⟨inner, after⟩ := p
          obtain ⟨rfl, hbracket⟩ := cut?_bracket.mp hcut
          cases hink : after.dropWhile isChartBlank with
          | nil =>
              rw [parse?_of_blank hcut hink] at h
              cases h
          | cons c rest =>
              rw [parse?_of_ink hcut hink] at h
              split at h
              · next hc =>
                  cases h
                  refine ⟨rest, ?_, hbracket, fun c hc => List.mem_takeWhile_imp hc⟩
                  rw [← hc, ← hink, List.takeWhile_append_dropWhile]
              · cases h

theorem exists_of_extent? {t : Text} {n : Nat} (h : extent? t = some n) :
    ∃ flags gap rest, t = keyword ++ (flags ++ ')' :: (gap ++ '{' :: rest)) ∧
      n = (keyword ++ (flags ++ ')' :: (gap ++ ['{']))).length := by
  obtain ⟨⟨flags, gap⟩, hparse, hlength⟩ := Option.map_eq_some_iff.mp h
  obtain ⟨rest, ht, -, -⟩ := exists_of_parse? hparse
  refine ⟨flags, gap, rest, ht, ?_⟩
  rw [← hlength]
  simp
  omega

theorem sized : Sized extent? := by
  intro t n h
  obtain ⟨flags, gap, rest, rfl, rfl⟩ := exists_of_extent? h
  exact ⟨by simp, by simp⟩

/-- The text behind the first bracket settles whether there is a header, if it is not blank. -/
theorem parse?_append {after flags behind : Text}
    (hcut : Text.cut? ")" after = some (flags, behind))
    (hink : behind.dropWhile isChartBlank ≠ []) (rest : Text) :
    parse? (keyword ++ after ++ rest) = parse? (keyword ++ after) := by
  obtain ⟨c, ink, hink⟩ := List.exists_cons_of_ne_nil hink
  have hlonger : Text.cut? ")" (after ++ rest) = some (flags, behind ++ rest) := by
    obtain ⟨rfl, hbracket⟩ := cut?_bracket.mp hcut
    exact cut?_bracket.mpr ⟨by simp, hbracket⟩
  have hdrop : (behind ++ rest).dropWhile isChartBlank = c :: (ink ++ rest) := by
    simp [List.dropWhile_append, hink]
  have htake : (behind ++ rest).takeWhile isChartBlank = behind.takeWhile isChartBlank := by
    have hjoin : (behind ++ rest).takeWhile isChartBlank ++ c :: (ink ++ rest) =
        behind.takeWhile isChartBlank ++ c :: (ink ++ rest) := by
      rw [← hdrop, List.takeWhile_append_dropWhile, hdrop, ← List.cons_append, ← List.append_assoc,
        ← hink, List.takeWhile_append_dropWhile]
    exact List.append_cancel_right hjoin
  rw [List.append_assoc, parse?_of_ink hlonger hdrop, parse?_of_ink hcut hink, htake]

theorem closed_of_enclosed {t : Text} (hended : Text.Ended t)
    (hstripped : ∀ c ∈ t, Chart.Stripped c)
    (h : Enclosed t) : Closed keyword extent? t := by
  refine closed_of_local sized fun s rest hs hsuffix hk => ?_
  have hstart := (hended.suffix hsuffix).prefix_of_append hs (by decide) hk
  refine ⟨hstart, ?_⟩
  obtain ⟨after, rfl⟩ := hstart
  obtain ⟨flags, behind, hcut, hmore⟩ := h after hsuffix
  have hink : behind.dropWhile isChartBlank ≠ [] := by
    rw [Ne, List.dropWhile_eq_nil_iff] at hmore ⊢
    intro hblank
    refine hmore fun c hc => decide_eq_true (hstripped c ?_ (hblank c hc))
    obtain ⟨rfl, -⟩ := cut?_bracket.mp hcut
    exact hsuffix.subset (by simp [hc])
  rw [extent?, parse?_append hcut hink, extent?]

theorem not_ended_of_mem {t statement : Text}
    (h : statement ∈ (scan keyword extent? t).statements) :
    ¬ Text.Ended statement := by
  obtain ⟨rest, -, -, hextent⟩ := statement_of_mem sized h
  obtain ⟨flags, gap, after, ht, hlength⟩ := exists_of_extent? hextent
  have hstatement : statement = keyword ++ flags ++ ')' :: gap ++ ['{'] := by
    have hjoin : statement ++ rest = (keyword ++ flags ++ ')' :: gap ++ ['{']) ++
        after := by simp [ht]
    exact List.append_inj_left hjoin (by simp [hlength])
  rw [hstatement]
  exact Text.not_ended_concat (by decide) _

end TimingGroup

namespace Arc

theorem exists_of_extent? {t : Text} {n : Nat} (h : extent? t = some n) :
    ∃ a : Arc, ∃ rest, a.Shaped ∧ t = a.render ++ rest ∧ n = a.render.length := by
  obtain ⟨⟨a, rest⟩, hparse, rfl⟩ := Option.map_eq_some_iff.mp h
  obtain ⟨hshaped, rfl⟩ := parse?_eq_some_iff.mp hparse
  exact ⟨a, rest, hshaped, rfl, by simp⟩

theorem sized : Sized extent? := by
  intro t n h
  obtain ⟨a, rest, -, rfl, rfl⟩ := exists_of_extent? h
  exact ⟨by simp [render], by simp⟩

theorem extent?_append {s : Text} (hended : Text.Ended s) (hs : s ≠ []) (rest : Text) :
    extent? (s ++ rest) = extent? s := by
  cases hlong : extent? (s ++ rest) with
  | none =>
      cases hshort : extent? s with
      | none => rfl
      | some n =>
          obtain ⟨a, after, hshaped, rfl, -⟩ := exists_of_extent? hshort
          rw [List.append_assoc, extent?_render hshaped] at hlong
          cases hlong
  | some n =>
      obtain ⟨a, after, hshaped, hjoin, rfl⟩ := exists_of_extent? hlong
      have hbreak : '\n' ∉ a.render := fun hmem =>
        absurd (not_blank_render hshaped _ hmem) (by decide)
      have hstart : a.render <+: s ++ rest := ⟨after, hjoin.symm⟩
      obtain ⟨u, rfl⟩ := hended.prefix_of_append hs hbreak hstart
      exact (extent?_render hshaped u).symm

/-- No arc reaches over a line break. -/
theorem closed_of_ended {t : Text} (hended : Text.Ended t) : Closed keyword extent? t := by
  refine closed_of_local sized fun s rest hs hsuffix hk => ?_
  have hlines := hended.suffix hsuffix
  exact ⟨hlines.prefix_of_append hs (by decide) hk, extent?_append hlines hs rest⟩

end Arc

namespace Chart

theorem stripBlanks_append {a : Text} (ha : Text.Ended a) (b : Text) :
    stripBlanks (a ++ b) = stripBlanks a ++ stripBlanks b := by
  obtain ⟨ls, hls, rfl⟩ := ha.exists_endLines
  rw [stripBlanks_endLines hls, stripBlanks, Text.lines_endLines_append hls, List.map_append,
    Text.unlines_append (by simp [Text.lines])]
  rfl

theorem ended_stripBlanks {a : Text} (ha : Text.Ended a) : Text.Ended (stripBlanks a) := by
  obtain ⟨ls, hls, rfl⟩ := ha.exists_endLines
  rw [stripBlanks_endLines hls]
  exact Text.ended_endLines _

theorem dropBlankLines_append {a : Text} (ha : Text.Ended a) (b : Text) :
    dropBlankLines (a ++ b) = dropBlankLines a ++ dropBlankLines b := by
  obtain ⟨ls, hls, rfl⟩ := ha.exists_endLines
  have hne : Text.lines b ≠ [] := by simp [Text.lines]
  have hpos := List.length_pos_of_ne_nil hne
  have hlast : (ls ++ Text.lines b).drop ((ls ++ Text.lines b).length - 1) =
      (Text.lines b).drop ((Text.lines b).length - 1) := by
    rw [List.length_append, Nat.add_sub_assoc hpos, List.drop_length_add_append]
  have hdrop : (Text.lines b).drop ((Text.lines b).length - 1) ≠ [] := by
    rw [Ne, List.drop_eq_nil_iff]
    omega
  rw [dropBlankLines_endLines hls, dropBlankLines, Text.lines_endLines_append hls,
    List.dropLast_append_of_ne_nil hne, List.filter_append, hlast, List.append_assoc,
    Text.unlines_append (by simp [hdrop])]
  rfl

theorem ended_dropBlankLines {a : Text} (ha : Text.Ended a) : Text.Ended (dropBlankLines a) := by
  obtain ⟨ls, hls, rfl⟩ := ha.exists_endLines
  rw [dropBlankLines_endLines hls]
  exact Text.ended_endLines _

variable {allowed : Whitelists}

theorem rebuildSceneControls_append {a : Text}
    (hclosed : Closed SceneControl.keyword SceneControl.extent? a)
    (b : Text) : rebuildSceneControls allowed (a ++ b) =
      ((rebuildSceneControls allowed a).1 ++ (rebuildSceneControls allowed b).1,
        (rebuildSceneControls allowed a).2 + (rebuildSceneControls allowed b).2) := by
  simp only [rebuildSceneControls, sceneControls, hclosed b, Tiling.judged_append,
    Tiling.count_append, Tally.add_def]

theorem clearTimingGroups_append {a : Text}
    (hclosed : Closed TimingGroup.keyword TimingGroup.extent? a)
    (b : Text) : clearTimingGroups allowed (a ++ b) =
      ((clearTimingGroups allowed a).1 ++ (clearTimingGroups allowed b).1,
        (clearTimingGroups allowed a).2 + (clearTimingGroups allowed b).2) := by
  simp only [clearTimingGroups, timingGroups, hclosed b, Tiling.judged_append,
    Tiling.count_append, Tally.add_def]

theorem repairArcs_append {a : Text} (hclosed : Closed Arc.keyword Arc.extent? a) (b : Text) :
    repairArcs (a ++ b) =
      ((repairArcs a).1 ++ (repairArcs b).1, (repairArcs a).2 + (repairArcs b).2) := by
  simp only [repairArcs, arcs, hclosed b, Tiling.judged_append, Tiling.count_append, Tally.add_def]

theorem ended_rebuildSceneControls {a : Text} (ha : Text.Ended a) :
    Text.Ended (rebuildSceneControls allowed a).1 := by
  apply Tiling.ended_judged
  · rwa [sceneControls, text_scan]
  · exact fun s hs => SceneControl.not_ended_of_mem hs

theorem ended_clearTimingGroups {a : Text} (ha : Text.Ended a) :
    Text.Ended (clearTimingGroups allowed a).1 := by
  apply Tiling.ended_judged
  · rwa [timingGroups, text_scan]
  · exact fun s hs => TimingGroup.not_ended_of_mem hs

/-- A chunk of whole lines in which no statement is left open is sanitized apart from what
follows. -/
theorem sanitize_append (allowed : Whitelists) {a : Text} (hlines : a.getLast? = some '\n')
    (hscenes : SceneControl.Enclosed (stripBlanks a))
    (htiming :
      TimingGroup.Enclosed (dropBlankLines (rebuildSceneControls allowed (stripBlanks a)).1))
    (b : Text) :
    sanitize allowed (a ++ b) =
      ((sanitize allowed a).1 ++ (sanitize allowed b).1,
        (sanitize allowed a).2 + (sanitize allowed b).2) := by
  have ha : Text.Ended a := Or.inr hlines
  have hstripped := ended_stripBlanks ha
  have hrebuilt : Text.Ended (rebuildSceneControls allowed (stripBlanks a)).1 :=
    ended_rebuildSceneControls hstripped
  have hdropped := ended_dropBlankLines hrebuilt
  have hcleared : Text.Ended (clearTimingGroups allowed _).1 := ended_clearTimingGroups hdropped
  have hink := stripped_dropBlankLines
    (stripped_rebuildSceneControls allowed (stripped_stripBlanks a))
  simp only [sanitize, stripBlanks_append ha,
    rebuildSceneControls_append (SceneControl.closed_of_enclosed hstripped hscenes),
    dropBlankLines_append hrebuilt,
    clearTimingGroups_append (TimingGroup.closed_of_enclosed hdropped hink htiming),
    repairArcs_append (Arc.closed_of_ended hcleared)]
  refine Prod.ext rfl ?_
  simp only [Tally.add_def, Tally.mk.injEq]
  omega

/-- Whole lines; the control and the header reach over line breaks. -/
def wholeLines : Text :=
  "scenecontrol(1,\nredline);timinggroup(noinput)\n\n\x7barc(1,1,0,0,s,0,0,0,none,false);\n"

/-- The beginning of a header, an end without its beginning, and a degenerate arc. -/
def brokenLines : Text := ");timinggroup(x)\narc(2,2,0,0,s,0,0,0,none,false);"

theorem sanitize_append_brokenLines :
    wholeLines.getLast? = some '\n' ∧ SceneControl.Enclosed (stripBlanks wholeLines) ∧
      TimingGroup.Enclosed (dropBlankLines (rebuildSceneControls {} (stripBlanks wholeLines)).1) ∧
      sanitize {} (wholeLines ++ brokenLines) =
        ((sanitize {} wholeLines).1 ++ (sanitize {} brokenLines).1,
          (sanitize {} wholeLines).2 + (sanitize {} brokenLines).2) := by
  have hlines : wholeLines.getLast? = some '\n' := by decide
  have hscenes : SceneControl.Enclosed (stripBlanks wholeLines) := by decide
  have htiming : TimingGroup.Enclosed
      (dropBlankLines (rebuildSceneControls {} (stripBlanks wholeLines)).1) := by decide +kernel
  exact ⟨hlines, hscenes, htiming, sanitize_append {} hlines hscenes htiming brokenLines⟩

end Chart
end ChartPackage
