import Mathlib
import ChartPackage.Proofs.Chart.Passes
import ChartPackage.Proofs.Chart.Rescan

/-!
The arcs that the repair leaves. An arc keeps its place, and its end is moved if it is written like
its start; the repair of one brings up no other, so that a second repair finds nothing to do. In a
sanitized chart no arc has two times that are written alike.
-/

namespace ChartPackage

namespace Arc

/-- A keyword that starts in an arc is that of the arc. -/
theorem eq_render_of_keyword {a : Arc} (h : a.Shaped) {z rest : Text} (hz : z ≠ [])
    (hsuffix : z <:+ a.render)
    (hstart : keyword <+: z ++ rest) : z = a.render := by
  have hjoin : a.render = "arc".toList ++ '(' :: [','].intercalate a.arguments ++ [')'] :=
    render_eq_cons a
  have hinner : '(' ∉ [','].intercalate a.arguments :=
    Text.not_mem_intercalate (by decide) (not_mem_argument h fun shape => by cases shape <;> decide)
  rw [hjoin] at hsuffix ⊢
  exact Text.eq_of_start (by decide) hinner (by decide) hz hsuffix hstart

theorem starts_of_parse? {t rest : Text} {a : Arc} (h : parse? t = some (a, rest)) :
    keyword <+: t := by
  obtain ⟨-, rfl⟩ := parse?_eq_some_iff.mp h
  exact (keyword_prefix_render a).trans (List.prefix_append _ _)

theorem isWritten_apply {s : Text} (h : IsWritten s) : IsWritten ((verdict s).apply s) := by
  obtain ⟨a, ha, rfl⟩ := h
  exact ⟨a.mended, mended_shaped ha, apply_render ha⟩

/-- The end that a repaired arc gets is the numeral of the tick after its start. -/
theorem mended_eq {a : Arc} (h : a.Shaped) :
    a.mended = if a.start =
      a.finish then { a with finish := Numeral.ofNat (Numeral.value a.start + 1) } else a := by
  obtain ⟨-, hfinish, -⟩ := shaped_iff.mp h
  by_cases hsame : a.start = a.finish
  · have hdegenerate : a.Degenerate := hsame
    rw [mended, if_pos hdegenerate, if_pos hsame, repaired, Numeral.successor_eq hfinish.2, hsame]
  · have hdegenerate : ¬ a.Degenerate := hsame
    rw [mended, if_neg hdegenerate, if_neg hsame]

/-- Exactly the arcs with two times written alike are counted. -/
theorem verdict_eq_keep_iff {a : Arc} (h : a.Shaped) :
    verdict a.render = .keep ↔ a.start ≠ a.finish := by
  rw [verdict_render h]
  split
  · next hdegenerate => simp [show a.start = a.finish from hdegenerate]
  · next hdegenerate => exact iff_of_true rfl hdegenerate

end Arc

namespace Chart
open Arc (parse? IsWritten)

/-- Where no arc started, none starts in front of repaired ones. -/
theorem not_starts_repairArcs {c : Char} {rest : Text}
    (hnone : ∀ s, IsWritten s → ¬ s <+: c :: rest) :
    ∀ s, IsWritten s → ¬ s <+: c :: (repairArcs rest).1 :=
  Arc.not_starts
    (Arc.parse?_eq_none_of_same (.cons c (sameButArcs_judged rest)) (Arc.parse?_eq_none hnone))

theorem arcs_repairArcs (t : Text) :
    arcs (repairArcs t).1 = (arcs t).map fun s => (Arc.verdict s).apply s :=
  Arc.reads.scan_judged (fun _ => Arc.isWritten_apply) (fun _ _ => not_starts_repairArcs) t

/-- No arc in a repaired text, wherever it starts, has two times that are written alike. -/
theorem not_degenerate_of_repairArcs (t : Text) {u rest : Text} {a : Arc}
    (hu : u <:+ (repairArcs t).1)
    (hparse : parse? u = some (a, rest)) : a.start ≠ a.finish := by
  induction t using Arc.reads.induction with
  | nil =>
      rw [repairArcs_nil, List.suffix_nil] at hu
      rw [hu] at hparse
      cases hparse
  | skip c rest hnone ih =>
      rw [repairArcs_cons hnone] at hu
      rcases List.suffix_cons_iff.mp hu with rfl | hu
      · rw [Arc.parse?_eq_none (not_starts_repairArcs hnone)] at hparse
        cases hparse
      · exact ih hu
  | statement _ after harc ih =>
      obtain ⟨b, hb, rfl⟩ := harc
      rw [repairArcs_render hb] at hu
      rcases Text.suffix_append_cases hu with hu | ⟨z, hz, hsuffix, rfl⟩
      · exact ih hu
      · have hmended := Arc.mended_shaped hb
        rw [Arc.eq_render_of_keyword hmended hz hsuffix (Arc.starts_of_parse? hparse),
          Arc.parse?_render hmended]
          at hparse
        cases hparse
        exact Arc.not_degenerate_mended hb

/-- In a sanitized chart no arc, wherever it starts, has two times that are written alike. The
repair keeps the text around the arcs; an arc stays as it is or, if its times are written alike,
ends at the numeral of the tick after its start. Exactly these arcs are counted, and a second repair
changes and counts nothing. -/
theorem arcs_sound (allowed : Whitelists) (t : Text) :
    (∀ u a rest, u <:+ (sanitize allowed t).1 → parse? u = some (a, rest) → a.start ≠ a.finish) ∧
    ∃ notes : List Arc,
      (∀ a ∈ notes, a.Shaped) ∧
      (arcs t).text = t ∧
      (arcs t).statements = notes.map Arc.render ∧
      (arcs (repairArcs t).1).text = (repairArcs t).1 ∧
      (arcs (repairArcs t).1).statements = notes.map (fun a =>
        (if a.start = a.finish then { a with finish := Numeral.ofNat (Numeral.value a.start + 1) }
          else a).render) ∧
      (arcs (repairArcs t).1).gaps = (arcs t).gaps ∧
      (arcs (repairArcs t).1).tail = (arcs t).tail ∧
      (repairArcs t).2 = { repaired := (notes.countP fun a => a.start = a.finish) } ∧
      repairArcs (repairArcs t).1 = ((repairArcs t).1, {}) := by
  constructor
  · intro u a rest hu hparse
    rw [sanitize_fst] at hu
    exact not_degenerate_of_repairArcs _ hu hparse
  · have hnotes : ∀ s ∈ (arcs t).statements, ∃ a : Arc, a.Shaped ∧ s = a.render := Arc.reads.of_mem
    obtain ⟨notes, hshaped, hstatements⟩ := Text.exists_map_eq hnotes
    refine ⟨notes, hshaped, text_scan _ _ t, hstatements, text_scan _ _ _, ?_, ?_, ?_, ?_,
      repairArcs_again t⟩
    · rw [arcs_repairArcs, Tiling.statements_map, hstatements, List.map_map]
      refine List.map_congr_left fun a ha => ?_
      rw [Function.comp_apply, Arc.apply_render (hshaped a ha), Arc.mended_eq (hshaped a ha)]
    · rw [arcs_repairArcs, Tiling.gaps_map]
    · rw [arcs_repairArcs, Tiling.tail_map]
    · have hcount : (arcs t).count Arc.verdict (· ≠ .keep) = notes.countP fun a =>
          a.start = a.finish := by
        rw [Tiling.count, hstatements, List.countP_map]
        refine List.countP_congr fun a ha => ?_
        simp [Arc.verdict_eq_keep_iff (hshaped a ha)]
      rw [repairArcs, hcount]

/-- A time of nines is carried into a place more, and zeros in front go. -/
theorem arcs_sound_carry :
    (sanitize {} "arc(099,099,0,0.5,s,0,1,0,none,false)[arctap(99)];").1 =
        "arc(099,100,0,0.5,s,0,1,0,none,false)[arctap(99)];".toList ∧
      ("099".toList ≠ "100".toList) := by
  have hchart : (sanitize {} "arc(099,099,0,0.5,s,0,1,0,none,false)[arctap(99)];").1 =
      "arc(099,100,0,0.5,s,0,1,0,none,false)[arctap(99)];".toList := by decide +kernel
  have hparse : parse? (sanitize {} "arc(099,099,0,0.5,s,0,1,0,none,false)[arctap(99)];").1 =
      some (⟨"099".toList, "100".toList, ["0", "0.5", "s", "0", "1", "0", "none", "false"]⟩,
        "[arctap(99)];".toList) := by
    rw [hchart]
    decide +kernel
  exact ⟨hchart, (arcs_sound {} _).1 _ _ _ List.suffix_rfl hparse⟩

end Chart
end ChartPackage
