import Mathlib
import ChartPackage.Proofs.Chart.Headers

/-!
Checking flags and repairing arcs in either order. An arc among the flags of a header ends with
them; the flag that its repair changes is a number before and after. So a header is cleared after
the repair if and only if it is before, and neither pass brings up a statement of the other's kind.
-/

namespace ChartPackage

namespace TimingGroup

variable {words : List Text}

theorem admissible_append (a b : Text) :
    Admissible words (a ++ ',' :: b) ↔ Admissible words a ∧ Admissible words b := by
  rw [Admissible, List.splitOn_append_cons_self, List.forall_mem_append]
  rfl

/-- A run of digits is an admitted flag. -/
theorem admissible_of_fits {digits : Text} (h : Arc.Fits .integer digits) :
    Admissible words digits := by
  have hcomma : ',' ∉ digits := fun hmem => absurd (h.2 _ hmem) (by decide)
  have htrim : Text.trim isChartBlank digits = digits :=
    Text.trim_eq_self fun c hc => Arc.not_blank_of_accepts (h.2 c hc)
  rw [Admissible, List.splitOn_eq_singleton hcomma]
  intro flag hflag
  rw [List.mem_singleton.mp hflag, htrim]
  exact Or.inr ⟨h.1, fun c hc => Or.inl (h.2 c hc)⟩

end TimingGroup

namespace Arc

theorem body_eq {a : Arc} (h : a.others ≠ []) :
    a.body = (keyword ++ a.start) ++ ',' :: (a.finish ++ ',' :: [','].intercalate a.others) := by
  rw [body, arguments, List.intercalate_cons_of_ne_nil (List.cons_ne_nil _ _),
    List.intercalate_cons_of_ne_nil h]
  simp

/-- The end of an arc among flags is a number, and the other arguments are flags as they are. -/
theorem admissible_body_iff {words : List Text} {a : Arc} (h : a.Shaped) (lead : Text) :
    TimingGroup.Admissible words (lead ++ a.body) ↔
      TimingGroup.Admissible words (lead ++ (keyword ++ a.start)) ∧
        TimingGroup.Admissible words ([','].intercalate a.others) := by
  obtain ⟨-, hfinish, hothers⟩ := shaped_iff.mp h
  have hnumber : TimingGroup.Admissible words a.finish := TimingGroup.admissible_of_fits hfinish
  rw [body_eq (ne_nil_of_fits (by decide) hothers), ← List.append_assoc,
    TimingGroup.admissible_append,
    TimingGroup.admissible_append]
  simp only [hnumber, true_and]

/-- Flags that end with the arguments of an arc are admitted just if those of the mended arc are. -/
theorem admissible_mended {words : List Text} {a : Arc} (h : a.Shaped) (lead : Text) :
    TimingGroup.Admissible words (lead ++ a.mended.body) ↔
      TimingGroup.Admissible words (lead ++ a.body) := by
  have hkept : a.mended.start = a.start ∧ a.mended.others = a.others := by
    rw [mended]
    split <;> exact ⟨rfl, rfl⟩
  rw [admissible_body_iff (mended_shaped h), admissible_body_iff h, hkept.1, hkept.2]

/-- An arc that reaches up to a header ends in front of it. -/
theorem render_prefix_of_keyword {a : Arc} (h : a.Shaped) {x y : Text}
    (hstart : a.render <+: x ++ (TimingGroup.keyword ++ y)) : a.render <+: x := by
  rcases List.prefix_or_prefix_of_prefix hstart (List.prefix_append x _) with hshort | ⟨z, hz⟩
  · exact hshort
  · rw [← hz, List.prefix_append_right_inj] at hstart
    cases hcases : z with
    | nil =>
        rw [hcases, List.append_nil] at hz
        exact hz ▸ List.prefix_rfl
    | cons c tail =>
        -- What the arc goes on with holds its closing bracket, and so all of the keyword.
        have hne : z ≠ [] := by simp [hcases]
        have hbracket : ')' ∈ z := by
          rw [render_eq] at hz
          have hlast := congrArg List.getLast? hz
          rw [List.getLast?_append_of_ne_nil _ hne, List.getLast?_concat] at hlast
          exact List.mem_of_getLast? hlast
        rcases List.prefix_or_prefix_of_prefix hstart (List.prefix_append _ y) with hpart | hwhole
        · exact absurd (hpart.subset hbracket) (by decide)
        · have hstarts := not_keyword_start h ("timinggroup".toList) (by decide)
            (by decide) hne ⟨x, hz⟩ []
          rw [List.append_nil] at hstarts
          exact absurd hwhole hstarts

end Arc

namespace Chart
open TimingGroup (keyword header cleared Admissible IsHeader)

variable {allowed : Whitelists}

/-- What the repair makes of the flags up to a bracket, whatever stands behind it. -/
theorem exists_repaired_flags {flags : Text} (h : ')' ∉ flags) :
    ∃ flags', ')' ∉ flags' ∧
      (∀ behind, (repairArcs (flags ++ ')' :: behind)).1 = flags' ++ ')' :: (repairArcs behind).1) ∧
      (flags' = flags ∨ ∃ lead, ∃ a : Arc, a.Shaped ∧ flags = lead ++ a.body ∧
        flags' = lead ++ a.mended.body) := by
  induction flags with
  | nil =>
      exact ⟨[], h, fun behind => repairArcs_append_left (k := [')']) (by decide) behind,
        Or.inl rfl⟩
  | cons c flags ih =>
      obtain ⟨hc, hflags⟩ := not_or.mp (mt List.mem_cons.mpr h)
      by_cases harc : ∃ a : Arc, a.Shaped ∧ c :: flags = a.body
      · obtain ⟨a, ha, hbody⟩ := harc
        refine ⟨a.mended.body, Arc.bracket_not_mem_body (Arc.mended_shaped ha), fun behind => ?_,
          Or.inr ⟨[], a, ha, hbody, rfl⟩⟩
        have hrepaired := repairArcs_render ha behind
        rwa [Arc.render_eq, Arc.render_eq, List.append_assoc, List.append_assoc,
          List.singleton_append,
          List.singleton_append, ← hbody] at hrepaired
      · obtain ⟨flags', hflags', hrepaired, hsame⟩ := ih hflags
        refine ⟨c :: flags', ?_, fun behind => ?_, ?_⟩
        · rw [List.mem_cons]
          exact not_or.mpr ⟨hc, hflags'⟩
        · have hnone : ∀ s, Arc.IsWritten s → ¬ s <+: c :: (flags ++ ')' :: behind) := by
            rintro _ ⟨a, ha, rfl⟩ ⟨rest, hrest⟩
            have hcut : Text.cut? ")" (c :: (flags ++ ')' :: behind)) = some (c :: flags, behind) :=
              TimingGroup.cut?_bracket.mpr ⟨rfl, h⟩
            rw [Arc.render_eq, List.append_assoc, List.singleton_append] at hrest
            rw [TimingGroup.cut?_bracket.mpr ⟨hrest.symm, Arc.bracket_not_mem_body ha⟩,
              Option.some.injEq,
              Prod.mk.injEq] at hcut
            exact harc ⟨a, ha, hcut.1.symm⟩
          rw [List.cons_append, repairArcs_cons hnone, hrepaired, List.cons_append]
        · rcases hsame with rfl | ⟨lead, a, ha, rfl, rfl⟩
          · exact Or.inl rfl
          · exact Or.inr ⟨c :: lead, a, ha, rfl, rfl⟩

/-- A header stays a header under the repair, with flags that are admitted just if they were. -/
theorem exists_repaired_header {flags gap : Text} (hflags : ')' ∉ flags)
    (hgap : ∀ c ∈ gap, isChartBlank c = true) :
    ∃ flags', ')' ∉ flags' ∧ (∀ words, Admissible words flags' ↔ Admissible words flags) ∧
      ∀ rest, (repairArcs (header flags gap ++ rest)).1 = header flags' gap ++
        (repairArcs rest).1 := by
  obtain ⟨flags', hflags', hrepaired, hsame⟩ := exists_repaired_flags hflags
  refine ⟨flags', hflags', fun words => ?_, fun rest => ?_⟩
  · rcases hsame with rfl | ⟨lead, a, ha, rfl, rfl⟩
    · rfl
    · exact Arc.admissible_mended ha lead
  · have hbehind : 'a' ∉ gap ++ ['{'] := by
      simp [TimingGroup.not_mem_of_blank (c := 'a') (by decide) hgap]
    have hsplit : ∀ flags rest : Text, header flags gap ++ rest =
        keyword ++ (flags ++ ')' :: (gap ++ ['{'] ++ rest)) := by
      intro flags rest
      simp [header]
    rw [hsplit, repairArcs_append_left (by decide), hrepaired,
      repairArcs_append_left hbehind, hsplit]

/-- An arc in front of checked headers stands in front of the headers as they were. -/
theorem starts_arc_of_clearTimingGroups {a : Arc} (ha : a.Shaped) (t : Text) {x : Text}
    (h : a.render <+: x ++ (clearTimingGroups allowed t).1) : a.render <+: x ++ t := by
  induction t using TimingGroup.reads.induction generalizing x with
  | nil => rwa [clearTimingGroups_nil] at h
  | skip c rest hnone ih =>
      rw [clearTimingGroups_cons hnone] at h
      have hlater := ih (x := x ++ [c]) (by simpa using h)
      simpa using hlater
  | statement _ rest hheader =>
      obtain ⟨y, hy⟩ := exists_keyword_clearTimingGroups allowed hheader rest
      rw [hy] at h
      have hshort := Arc.render_prefix_of_keyword ha h
      exact hshort.trans (List.prefix_append _ _)

/-- The repair of arcs and the check of flags give the same text in either order. -/
theorem repairArcs_clearTimingGroups (allowed : Whitelists) (t : Text) :
    (repairArcs (clearTimingGroups allowed t).1).1 =
    (clearTimingGroups allowed (repairArcs t).1).1 := by
  have hne : ∀ s, IsHeader s ∨ Arc.IsWritten s → s ≠ [] := by
    rintro s (hheader | harc)
    · exact TimingGroup.reads.ne_nil hheader
    · exact Arc.reads.ne_nil harc
  induction t using Text.statement_induction hne with
  | nil => rw [clearTimingGroups_nil, repairArcs_nil, clearTimingGroups_nil]
  | skip c rest hnone ih =>
      have hheader : ∀ s, IsHeader s → ¬ s <+: c :: rest := fun s hs => hnone s (Or.inl hs)
      have harc : ∀ s, Arc.IsWritten s → ¬ s <+: c :: rest := fun s hs => hnone s (Or.inr hs)
      have hheader' : ∀ s, IsHeader s → ¬ s <+: c :: (repairArcs rest).1 :=
        TimingGroup.not_starts
          (TimingGroup.parse?_eq_none_of_same (.cons c (sameButArcs_judged rest))
          (TimingGroup.parse?_eq_none hheader))
      have harc' : ∀ s, Arc.IsWritten s → ¬ s <+: c :: (clearTimingGroups allowed rest).1 := by
        rintro _ ⟨a, ha, rfl⟩ hstart
        exact harc _ ⟨a, ha, rfl⟩ (starts_arc_of_clearTimingGroups (x := [c]) ha rest hstart)
      rw [clearTimingGroups_cons hheader, repairArcs_cons harc', ih, repairArcs_cons harc,
        clearTimingGroups_cons hheader']
  | statement s rest hs ih =>
      rcases hs with ⟨flags, gap, hflags, hgap, rfl⟩ | ⟨a, ha, rfl⟩
      · obtain ⟨flags', hflags', hadmissible, hrepaired⟩ := exists_repaired_header hflags hgap
        rw [clearTimingGroups_header hflags hgap, hrepaired,
          clearTimingGroups_header hflags' hgap, ← ih,
          TimingGroup.mended, TimingGroup.mended]
        simp only [hadmissible]
        split
        · rw [hrepaired]
        · rw [repairArcs_append_left (by decide)]
      · rw [clearTimingGroups_render ha, repairArcs_render ha, repairArcs_render ha,
          clearTimingGroups_render (Arc.mended_shaped ha), ih]

end Chart
end ChartPackage
