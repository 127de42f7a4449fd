import Mathlib
import ChartPackage.Proofs.Chart.BlankLines
import ChartPackage.Proofs.Chart.Rebuilding
import ChartPackage.Proofs.Chart.Rescan
import ChartPackage.Proofs.Number.Numerals

/-!
Sanitizing a sanitized chart. If no scene control was deleted, no flags were cleared and no control
starts with a line break, every stage gives back the chart that it gets: a rebuilt control is
written as it is, the repair of arcs brings up no other headers, and a repaired arc needs no repair.
-/

namespace ChartPackage

namespace Tiling

theorem judged_eq_text {verdict : Text → Verdict} {t : Tiling}
    (h : ∀ s ∈ t.statements, (verdict s).apply s = s) : t.judged verdict = t.text := by
  rw [judged, text]
  congr 1
  simp only [List.flatMap_def]
  congr 1
  apply List.map_congr_left
  intro part hpart
  rw [h part.2 (List.mem_map_of_mem hpart)]

theorem count_eq_zero_iff {verdict : Text → Verdict} {sort : Verdict → Bool} {t : Tiling} :
    t.count verdict sort = 0 ↔ ∀ s ∈ t.statements, sort (verdict s) = false := by
  simp [count, List.countP_eq_zero]

theorem judged_of_keep {verdict : Text → Verdict} {t : Tiling}
    (h : ∀ s ∈ t.statements, verdict s = .keep) :
    t.judged verdict = t.text ∧ t.count verdict (· ≠ .keep) = 0 := by
  refine ⟨judged_eq_text fun s hs => ?_, count_eq_zero_iff.mpr fun s hs => ?_⟩
  · rw [h s hs, Verdict.apply]
  · simp [h s hs]

theorem judged_of_replace {verdict : Text → Verdict} {t : Tiling}
    (h : ∀ s ∈ t.statements, verdict s = .replace s) :
    t.judged verdict = t.text ∧ t.count verdict (· ≠ .delete) = t.statements.length ∧
      t.count verdict (· = .delete) = 0 := by
  refine ⟨judged_eq_text fun s hs => ?_, List.countP_eq_length.mpr fun s hs => ?_,
    count_eq_zero_iff.mpr fun s hs => ?_⟩
  · rw [h s hs, Verdict.apply]
  · simp [h s hs]
  · simp [h s hs]

end Tiling

namespace SameButArcs

/-- The first closing bracket comes after the same text, or it closes an arc. -/
theorem exists_of_bracket {k r u : Text} (h : SameButArcs (k ++ ')' :: r) u) (hk : ')' ∉ k) :
    ∃ k' r', u = k' ++ ')' :: r' ∧ ')' ∉ k' ∧ SameButArcs r r' ∧ (k' = k ∨ '(' ∈ k) := by
  generalize hs : k ++ ')' :: r = s at h
  induction h generalizing k with
  | nil => simp at hs
  | @cons c s t h ih =>
      cases k with
      | nil =>
          cases hs
          exact ⟨[], t, rfl, hk, h, Or.inl rfl⟩
      | cons d k =>
          rw [List.cons_append, List.cons.injEq] at hs
          obtain ⟨rfl, hs⟩ := hs
          obtain ⟨hd, hk⟩ := not_or.mp (mt List.mem_cons.mpr hk)
          obtain ⟨k', r', rfl, hk', hrest, hsame⟩ := ih hk hs
          refine ⟨d :: k', r', rfl, ?_, hrest, ?_⟩
          · rw [List.mem_cons]
            exact not_or.mpr ⟨hd, hk'⟩
          · exact hsame.imp (fun heq => by rw [heq]) (List.mem_cons_of_mem d)
  | @arc a b s t ha hb h _ =>
      rw [Arc.render_eq, List.append_assoc, List.singleton_append] at hs
      have hcut : Text.cut? ")" (k ++ ')' :: r) = some (k, r) :=
        TimingGroup.cut?_bracket.mpr ⟨rfl, hk⟩
      rw [TimingGroup.cut?_bracket.mpr ⟨hs, Arc.bracket_not_mem_body ha⟩] at hcut
      cases hcut
      refine ⟨b.body, t, by simp [Arc.render_eq], Arc.bracket_not_mem_body hb, h, Or.inr ?_⟩
      exact List.mem_append_left _ (by decide)

end SameButArcs

namespace TimingGroup

/-- A header as it is written. -/
def header (flags gap : Text) : Text := keyword ++ (flags ++ ')' :: (gap ++ ['{']))

theorem parse?_header {flags gap : Text} (hflags : ')' ∉ flags)
    (hgap : ∀ c ∈ gap, isChartBlank c = true)
    (rest : Text) : parse? (header flags gap ++ rest) = some (flags, gap) := by
  have hcut : Text.cut? ")" (flags ++ ')' :: (gap ++ '{' :: rest)) = some
      (flags, gap ++ '{' :: rest) :=
    cut?_bracket.mpr ⟨rfl, hflags⟩
  have hbrace : isChartBlank '{' = false := by decide
  have hdrop : (gap ++ '{' :: rest).dropWhile isChartBlank = '{' :: rest := by
    rw [List.dropWhile_append_of_pos hgap]
    simp [hbrace]
  have hjoin : header flags gap ++ rest = keyword ++ (flags ++ ')' :: (gap ++ '{' :: rest)) := by
    simp [header]
  rw [hjoin, parse?_of_cut hcut hdrop, List.takeWhile_append_of_pos hgap]
  simp [hbrace]

theorem extent?_header {flags gap : Text} (hflags : ')' ∉ flags)
    (hgap : ∀ c ∈ gap, isChartBlank c = true)
    (rest : Text) : extent? (header flags gap ++ rest) = some (header flags gap).length := by
  rw [extent?, parse?_header hflags hgap]
  simp [header]
  omega

theorem extent?_of_none {t : Text} (h : parse? t = none) : extent? t = none := by
  rw [extent?, h]
  rfl

/-- Two texts that differ in arcs only start with the same header, or with two with arcs in their
flags, or with none both. -/
theorem parse?_same {s t : Text} (h : SameButArcs s t) {flags gap : Text}
    (hs : parse? s = some (flags, gap)) :
    ∃ flags' s' t', s = header flags gap ++ s' ∧ t = header flags' gap ++ t' ∧ ')' ∉ flags ∧
      ')' ∉ flags' ∧
      (∀ c ∈ gap, isChartBlank c = true) ∧ SameButArcs s' t' ∧ (flags' = flags ∨ '(' ∈ flags) := by
  obtain ⟨s', rfl, hflags, hgap⟩ := exists_of_parse? hs
  obtain ⟨body, rfl, hbody⟩ := h.of_append (by decide)
  obtain ⟨flags', behind, rfl, hflags', hbehind, hsame⟩ := hbody.exists_of_bracket hflags
  have harcs : 'a' ∉ gap := fun hmem => absurd (hgap _ hmem) (by decide)
  obtain ⟨brace, rfl, hbrace⟩ := hbehind.of_append harcs
  obtain ⟨t', rfl, hrest⟩ := hbrace.of_cons (by decide)
  exact ⟨flags', s', t', by simp [header], by simp [header], hflags, hflags', hgap, hrest, hsame⟩

theorem parse?_eq_none_of_same {s t : Text} (h : SameButArcs s t) (hs : parse? s = none) :
    parse? t = none := by
  cases ht : parse? t with
  | none => rfl
  | some p =>
      obtain ⟨flags, gap⟩ := p
      obtain ⟨flags', t', s', -, rfl, -, hflags', hgap, -, -⟩ := parse?_same h.symm ht
      rw [parse?_header hflags' hgap] at hs
      cases hs

/-- A bracket among the flags makes one of them invalid. -/
theorem verdict_of_bracket {words : List Text} (hwords : ∀ word ∈ words, '(' ∉ word)
    {flags gap : Text}
    (hflags : ')' ∉ flags) (hgap : ∀ c ∈ gap, isChartBlank c = true) (hbracket : '(' ∈ flags) :
    verdict words (header flags gap) = .replace cleared := by
  have hparse := parse?_header hflags hgap []
  rw [List.append_nil] at hparse
  obtain ⟨flag, hflag, hmem⟩ : ∃ flag ∈ flags.splitOn ',', '(' ∈ flag := by
    by_contra hnone
    push Not at hnone
    have hclean := Text.not_mem_intercalate (d := ',') (by decide) hnone
    rw [List.intercalate_splitOn] at hclean
    exact hclean hbracket
  have htrim : '(' ∈ Text.trim isChartBlank flag := Text.mem_trim hmem (by decide)
  have hinvalid : isValidFlag words (Text.trim isChartBlank flag) = false := by
    rw [isValidFlag, Bool.or_eq_false_iff]
    constructor
    · rw [← Bool.not_eq_true, List.contains_iff_mem]
      exact fun hword => hwords _ hword htrim
    · rw [← Bool.not_eq_true, isNumericLiteral, decide_eq_true_iff]
      exact fun hnumber => absurd (List.all_eq_true.mp hnumber.2 _ htrim) (by decide)
  have hnotCleared : header flags gap ≠ cleared := by
    intro heq
    rw [heq] at hparse
    have hempty : parse? cleared = some ([], []) := by decide
    rw [hempty] at hparse
    cases hparse
    cases hbracket
  rw [verdict, hparse]
  simp only
  rw [if_neg, if_neg hnotCleared]
  rw [List.all_eq_true]
  intro hall
  rw [hall flag hflag] at hinvalid
  cases hinvalid

theorem aligned_same {words : List Text} (hwords : ∀ word ∈ words, '(' ∉ word) {s t : Text}
    (h : SameButArcs s t) :
    Aligned keyword extent? SameButArcs (fun x y => verdict words x = .keep → y = x) s t := by
  have hidle : ∀ {a : Arc} (_ : a.Shaped) (t : Text), Idle keyword extent? a.render t :=
    fun ha t s hs hsuffix hk =>
    absurd hk (Arc.not_keyword_start ha ("timinggroup".toList) (by decide) (by decide) hs hsuffix t)
  cases h with
  | nil => exact .nil
  | @arc a b s t ha hb h =>
      have hne : a.render ≠ [] := by simp [Arc.render_eq]
      exact .gap hne (hidle ha s) (hidle hb t) h
  | @cons c s t h =>
      cases hparse : parse? (c :: s) with
      | none =>
          have hnone := parse?_eq_none_of_same (.cons c h) hparse
          exact .single (fun _ => extent?_of_none hparse) (fun _ => extent?_of_none hnone) h
      | some p =>
          obtain ⟨flags, gap⟩ := p
          obtain ⟨flags', s', t', hs, ht, hflags, hflags', hgap, hrest, hsame⟩ :=
            parse?_same (.cons c h) hparse
          rw [hs, ht]
          refine .statement (List.prefix_append _ _) (List.prefix_append _ _)
            (extent?_header hflags hgap s')
            (extent?_header hflags' hgap t') (fun hkeep => ?_) hrest
          rcases hsame with rfl | hbracket
          · rfl
          · rw [verdict_of_bracket hwords hflags hgap hbracket] at hkeep
            cases hkeep

end TimingGroup

namespace Arc

theorem render_eq_cons (a : Arc) :
    a.render = 'a' :: ("rc(".toList ++ [','].intercalate a.arguments ++ [')']) := rfl

theorem parse?_render {a : Arc} (h : a.Shaped) (rest : Text) :
    parse? (a.render ++ rest) = some (a, rest) :=
  parse?_eq_some_iff.mpr ⟨h, rfl⟩

/-- Two texts that differ in arcs only both start with an arc or neither does. -/
theorem parse?_eq_none_of_same {s t : Text} (h : SameButArcs s t) (hs : parse? s = none) :
    parse? t = none := by
  cases ht : parse? t with
  | none => rfl
  | some p =>
      obtain ⟨a, rest⟩ := p
      obtain ⟨ha, rfl⟩ := parse?_eq_some_iff.mp ht
      have hback := h.symm
      generalize hjoin : a.render ++ rest = t at hback
      cases hback with
      | nil =>
          rw [render_eq_cons] at hjoin
          cases hjoin
      | arc _ hb _ =>
          rw [parse?_render hb] at hs
          cases hs
      | @cons c _ s hback =>
          -- The arc is written out here, and none of its characters belongs to another.
          rw [render_eq_cons, List.cons_append, List.cons.injEq] at hjoin
          obtain ⟨rfl, rfl⟩ := hjoin
          have hinner : ∀ d, d ≠ ',' → (∀ shape : Shape, shape.accepts d = false) →
              d ∉ [','].intercalate a.arguments :=
            fun d hd hshape => Text.not_mem_intercalate hd (not_mem_argument ha hshape)
          rw [List.append_assoc, List.append_assoc, List.singleton_append] at hback
          obtain ⟨s, rfl, hafter⟩ := hback.of_append (by decide)
          have hclose := hinner ')' (by decide) accepts_bracket
          obtain ⟨k, r, rfl, -, -, hsame⟩ := hafter.exists_of_bracket hclose
          rcases hsame with rfl | hopen
          · have hjoin : 'a' :: ("rc(".toList ++ ([','].intercalate a.arguments ++ ')' :: r)) =
                a.render ++ r := by
              simp [render_eq_cons]
            rw [hjoin, parse?_render ha] at hs
            cases hs
          · exact absurd hopen (hinner '(' (by decide) fun shape => by cases shape <;> decide)

theorem not_degenerate_repaired {a : Arc} (ha : a.Shaped) (h : a.Degenerate) :
    ¬ a.repaired.Degenerate := by
  intro hrepaired
  obtain ⟨-, hfinish, -⟩ := shaped_iff.mp ha
  have hsuccessor : a.finish = Numeral.successor a.finish := Eq.trans h.symm hrepaired
  have hvalue := congrArg Numeral.value hsuccessor
  rw [Numeral.successor_eq hfinish.2, Numeral.value_ofNat] at hvalue
  omega

/-- What becomes of an arc needs no repair. -/
theorem verdict_apply {a : Arc} (h : a.Shaped) : ∃ b : Arc, b.Shaped ∧
    (verdict a.render).apply a.render = b.render ∧ verdict b.render = .keep := by
  rw [verdict_render h]
  by_cases hdegenerate : a.Degenerate
  · rw [if_pos hdegenerate]
    refine ⟨a.repaired, repaired_shaped h, rfl, ?_⟩
    rw [verdict_render (repaired_shaped h), if_neg (not_degenerate_repaired h hdegenerate)]
  · rw [if_neg hdegenerate]
    refine ⟨a, h, rfl, ?_⟩
    rw [verdict_render h, if_neg hdegenerate]

theorem keyword_prefix_render (a : Arc) : keyword <+: a.render := by
  rw [render_eq, body, List.append_assoc]
  exact List.prefix_append _ _

theorem aligned_judged {s t : Text} (h : t = (scan keyword extent? s).judged verdict) :
    Aligned keyword extent? (fun s t => t = (scan keyword extent? s).judged verdict)
      (fun _ y => verdict y = .keep)
      s t := by
  subst h
  have hextent : ∀ {t : Text}, parse? t = none → extent? t = none := by
    intro t hnone
    rw [extent?, hnone]
    rfl
  cases s with
  | nil =>
      rw [scan]
      exact .nil
  | cons c s =>
      cases hparse : parse? (c :: s) with
      | none =>
          have hnone := parse?_eq_none_of_same (.cons c (sameButArcs_judged s)) hparse
          rw [scan_cons_of_none fun _ => hextent hparse, Tiling.judged_lead]
          exact .single (fun _ => hextent hparse) (fun _ => hextent hnone) rfl
      | some p =>
          obtain ⟨a, rest⟩ := p
          obtain ⟨ha, hs⟩ := parse?_eq_some_iff.mp hparse
          obtain ⟨b, hb, happly, hkeep⟩ := verdict_apply ha
          have hne : a.render ≠ [] := by simp [render_eq_cons]
          rw [hs, scan_statement (keyword_prefix_render a) hne (extent?_render ha rest),
            Tiling.judged_cons, happly]
          exact .statement (keyword_prefix_render a) (keyword_prefix_render b)
            (extent?_render ha rest)
            (extent?_render hb _) hkeep rfl

end Arc

namespace Chart

theorem rebuildSceneControls_of_settles {allowed : Whitelists} {t : Text}
    (h : ∀ s ∈ (sceneControls t).statements, SceneControl.Settles allowed.sceneControls s) :
    rebuildSceneControls allowed t = (t, { kept := (sceneControls t).statements.length }) := by
  obtain ⟨htext, hkept, hremoved⟩ := Tiling.judged_of_replace fun s hs =>
    SceneControl.verdict_of_settles (h s hs)
  rw [rebuildSceneControls, htext, hkept, hremoved, sceneControls, text_scan]

theorem clearTimingGroups_of_keep {allowed : Whitelists} {t : Text}
    (h : ∀ s ∈ (timingGroups t).statements, TimingGroup.verdict allowed.timingGroups s = .keep) :
    clearTimingGroups allowed t = (t, {}) := by
  obtain ⟨htext, hcleared⟩ := Tiling.judged_of_keep h
  rw [clearTimingGroups, htext, hcleared, timingGroups, text_scan]

theorem repairArcs_of_keep {t : Text} (h : ∀ s ∈ (arcs t).statements, Arc.verdict s = .keep) :
    repairArcs t = (t, {}) := by
  obtain ⟨htext, hrepaired⟩ := Tiling.judged_of_keep h
  rw [repairArcs, htext, hrepaired, arcs, text_scan]

theorem verdict_of_cleared {allowed : Whitelists} {t : Text}
    (h : (clearTimingGroups allowed t).2.cleared = 0) :
    ∀ s ∈ (timingGroups t).statements, TimingGroup.verdict allowed.timingGroups s = .keep := by
  intro s hs
  have hzero : (timingGroups t).count (TimingGroup.verdict allowed.timingGroups) (· ≠ .keep) = 0 :=
    h
  simpa using Tiling.count_eq_zero_iff.mp hzero s hs

theorem verdict_of_removed {allowed : Whitelists} {t : Text}
    (h : (rebuildSceneControls allowed t).2.removed = 0) :
    ∀ s ∈ (sceneControls t).statements, SceneControl.verdict allowed.sceneControls s ≠ .delete := by
  intro s hs
  have hzero : (sceneControls t).count (SceneControl.verdict allowed.sceneControls)
      (· = .delete) = 0 := h
  simpa using Tiling.count_eq_zero_iff.mp hzero s hs

/-- Repaired arcs need no repair, and their repair brings up no others. -/
theorem repairArcs_again (t : Text) : repairArcs (repairArcs t).1 = ((repairArcs t).1, {}) := by
  have hkeyword : Arc.keyword ≠ [] := by decide
  have hpairs := forall₂_statements hkeyword (fun _ _ => Arc.aligned_judged)
    (rfl : (repairArcs t).1 = _)
  refine repairArcs_of_keep fun s hs => ?_
  obtain ⟨-, -, hkeep⟩ := exists_of_forall₂ hpairs s hs
  exact hkeep

/-- Where no flags are cleared, none are after the repair of the arcs. -/
theorem clearTimingGroups_repairArcs {allowed : Whitelists}
    (hwords : ∀ word ∈ allowed.timingGroups, '(' ∉ word)
    {t : Text} (h : (clearTimingGroups allowed t).2.cleared = 0) :
    clearTimingGroups allowed (repairArcs t).1 = ((repairArcs t).1, {}) := by
  have hkeyword : TimingGroup.keyword ≠ [] := by decide
  have hpairs := forall₂_statements hkeyword (fun _ _ => TimingGroup.aligned_same hwords)
    (sameButArcs_judged t)
  refine clearTimingGroups_of_keep fun s hs => ?_
  obtain ⟨x, hx, hsame⟩ := exists_of_forall₂ hpairs s hs
  have hkeep := verdict_of_cleared h x hx
  rw [hsame hkeep, hkeep]

theorem kept_of_removed {allowed : Whitelists} {t : Text}
    (h : (rebuildSceneControls allowed t).2.removed = 0) :
    (rebuildSceneControls allowed t).2.kept = (sceneControls t).statements.length :=
  List.countP_eq_length.mpr fun s hs => by simp [verdict_of_removed h s hs]

/-- Where no control is deleted and none starts with a line break, the controls are as they are
written back once the blank lines have gone and the arcs are repaired. -/
theorem rebuildSceneControls_repairArcs {allowed : Whitelists}
    (hwords : SceneControl.Words allowed.sceneControls)
    {t : Text} (hstripped : ∀ c ∈ t, Stripped c) (hbreak : ¬ SceneControl.keyword ++ ['\n'] <:+: t)
    (h : (rebuildSceneControls allowed t).2.removed = 0) :
    let u := (repairArcs (dropBlankLines (rebuildSceneControls allowed t).1)).1
    rebuildSceneControls allowed u = (u, { kept := (rebuildSceneControls allowed t).2.kept }) := by
  have hbreaks := fewerBreaks_dropBlankLines (stripped_rebuildSceneControls allowed hstripped)
  obtain ⟨hlength, hsettles⟩ :=
    SceneControl.settles_of_fewerBreaks hwords hstripped hbreak (verdict_of_removed h) hbreaks
  have hstatements := statements_repairArcs (dropBlankLines (rebuildSceneControls allowed t).1)
  intro u
  rw [rebuildSceneControls_of_settles, kept_of_removed h]
  · rw [hstatements]
    exact congrArg (fun n => (u, ({ kept := n } : Tally))) hlength.symm
  · rw [hstatements]
    exact hsettles

/-- Sanitizing is stable where nothing was thrown away, whatever the text. -/
theorem sanitize_again {t : Text} (hremoved : (sanitize {} t).2.removed = 0)
    (hcleared : (sanitize {} t).2.cleared = 0)
    (hbreak : ¬ SceneControl.keyword ++ ['\n'] <:+: stripBlanks t) :
    sanitize {} (sanitize {} t).1 = ((sanitize {} t).1, { kept := (sanitize {} t).2.kept }) := by
  have hcontrols : SceneControl.Words ({} : Whitelists).sceneControls := by decide
  have hflags : ∀ word ∈ ({} : Whitelists).timingGroups, '(' ∉ word := by decide
  have htiming : (clearTimingGroups {}
      (dropBlankLines (rebuildSceneControls {} (stripBlanks t)).1)).2.cleared = 0 :=
    (Nat.zero_add _).symm.trans hcleared
  have hbefore : beforeArcs {} t = dropBlankLines (rebuildSceneControls {} (stripBlanks t)).1 := by
    rw [beforeArcs, clearTimingGroups_of_keep (verdict_of_cleared htiming)]
  have hresult : (repairArcs (dropBlankLines (rebuildSceneControls {} (stripBlanks t)).1)).1 =
      (sanitize {} t).1 := by
    rw [sanitize_fst, hbefore]
  have hscene' := rebuildSceneControls_repairArcs hcontrols (stripped_stripBlanks t) hbreak hremoved
  have hdrop' :=
    dropBlankLines_of_sameButArcs
      (sameButArcs_judged (dropBlankLines (rebuildSceneControls {} (stripBlanks t)).1))
  have htiming' := clearTimingGroups_repairArcs hflags htiming
  have harcs' := repairArcs_again (dropBlankLines (rebuildSceneControls {} (stripBlanks t)).1)
  change dropBlankLines (repairArcs _).1 = (repairArcs _).1 at hdrop'
  simp only [hresult] at hscene' hdrop' htiming' harcs'
  rw [sanitize, stripBlanks_eq_self (stripped_sanitize {} t), hscene']
  simp only [hdrop', htiming', harcs']
  rfl

/-- A value to pad and one that is no number, line breaks in a control and in a header, a degenerate
arc in a header of no end, and a control of no end. -/
def tangledLines : Text :=
  ("scenecontrol(5,red\tline,1e21);\n\nscenecontrol(6,hidegroup,\n\nNaN );" : Text) ++
    "timinggroup(noinput)\n\x7btiminggroup(arc(3,3,0,0,s,0,0,0,a,b);scenecontrol("

theorem sanitize_again_tangledLines :
    (sanitize {} tangledLines).2.removed = 0 ∧ (sanitize {} tangledLines).2.cleared = 0 ∧
      ¬ SceneControl.keyword ++ ['\n'] <:+: stripBlanks tangledLines ∧
      sanitize {} (sanitize {} tangledLines).1 = ((sanitize {} tangledLines).1, { kept := 2 }) := by
  have htally : (sanitize {} tangledLines).2 = { kept := 2, repaired := 1 } := by decide +kernel
  have hremoved : (sanitize {} tangledLines).2.removed = 0 := congrArg Tally.removed htally
  have hcleared : (sanitize {} tangledLines).2.cleared = 0 := congrArg Tally.cleared htally
  have hbreak : ¬ SceneControl.keyword ++ ['\n'] <:+: stripBlanks tangledLines := by decide +kernel
  have hagain := sanitize_again hremoved hcleared hbreak
  rw [htally] at hagain
  exact ⟨hremoved, hcleared, hbreak, hagain⟩

end Chart
end ChartPackage
