import ChartPackage.Proofs.Chart.Scanning
import ChartPackage.Proofs.Chart.Statements

/-!
Blanks in a sanitized chart. The first stage leaves line breaks as the only blanks, and no later
stage writes a blank; so sanitizing a second time finds nothing to strip.
-/

namespace ChartPackage

namespace Tiling

/-- What holds of the characters of a text and of all replacements holds after judging. -/
theorem forall_judged {P : Char → Prop} {verdict : Text → Verdict} {t : Tiling}
    (htext : ∀ c ∈ t.text, P c)
    (hverdict : ∀ s, (∀ c ∈ s, P c) → ∀ c ∈ (verdict s).apply s, P c) :
    ∀ c ∈ t.judged verdict, P c := by
  intro c hc
  rcases List.mem_append.mp hc with hc | hc
  · obtain ⟨⟨gap, statement⟩, hpart, hc⟩ := List.mem_flatMap.mp hc
    have hpiece : ∀ d ∈ gap ++ statement, P d := fun d hd =>
      htext d (List.mem_append_left _ (List.mem_flatMap.mpr ⟨_, hpart, hd⟩))
    rcases List.mem_append.mp hc with hc | hc
    · exact hpiece c (List.mem_append_left _ hc)
    · exact hverdict statement (fun d hd => hpiece d (List.mem_append_right _ hd)) c hc
  · exact htext c (List.mem_append_right _ hc)

end Tiling

namespace Chart

/-- A character of a stripped chart: no blank, or else a line break. -/
def Stripped (c : Char) : Prop := isChartBlank c = true → c = '\n'

theorem stripped_of_not_blank {c : Char} (h : isChartBlank c = false) : Stripped c := by
  intro hc
  rw [h] at hc
  cases hc

theorem stripped_of_isNumberChar {c : Char} (h : isNumberChar c = true) : Stripped c :=
  stripped_of_not_blank (not_blank_of_isNumberChar h)

theorem stripped_of_all {t : Text} (h : t.all fun c => !isChartBlank c) : ∀ c ∈ t, Stripped c :=
  fun c hc => stripped_of_not_blank (by simpa using List.all_eq_true.mp h c hc)

theorem stripped_stripBlanks (t : Text) : ∀ c ∈ stripBlanks t, Stripped c := by
  apply Text.forall_mem_intercalate
  · exact fun _ => rfl
  · intro line hline c hc
    obtain ⟨raw, -, rfl⟩ := List.mem_map.mp hline
    exact stripped_of_not_blank (by simpa using (List.mem_filter.mp hc).2)

theorem stripBlanks_eq_self {t : Text} (h : ∀ c ∈ t, Stripped c) : stripBlanks t = t := by
  have hline : ∀ line ∈ Text.lines t, (line.filter fun c => !isChartBlank c) = line := by
    intro line hline
    apply List.filter_eq_self.mpr
    intro c hc
    have hbreak : c ≠ '\n' := fun heq => Text.not_mem_of_mem_splitOn hline (heq ▸ hc)
    have hc : Stripped c := h c (Text.mem_of_mem_splitOn hline hc)
    simpa using mt hc hbreak
  rw [stripBlanks, List.map_congr_left hline, List.map_id']
  exact List.intercalate_splitOn '\n'

theorem stripped_value {extras : List Text}
    (h : ∀ x ∈ extras, ∀ d ∈ SceneControl.trim x, Stripped d) :
    ∀ d ∈ SceneControl.value extras, Stripped d := by
  match extras with
  | [] | [] :: _ => exact fun d hd => by cases hd
  | (e :: raw) :: _ =>
      simp only [SceneControl.value]
      split
      · exact h (e :: raw) (List.mem_cons_self ..)
      · exact fun d hd => stripped_of_isNumberChar (Fixed.isNumberChar_of_mem_render hd)

theorem stripped_render {s : Text} {c : SceneControl} {n : Nat}
    (hparse : SceneControl.parse? s = some (c, n)) (h : ∀ d ∈ s, Stripped d) :
    ∀ d ∈ c.render, Stripped d := by
  have hargument : ∀ x ∈ c.arguments, ∀ d ∈ SceneControl.trim x, Stripped d := fun x hx d hd =>
    h d (SceneControl.mem_of_mem_argument hparse hx (Text.mem_of_mem_trim hd))
  have hextras : ∀ x ∈ c.extras, ∀ d ∈ SceneControl.trim x, Stripped d := fun x hx =>
    hargument x (by simp [SceneControl.arguments, hx])
  have hextra : ∀ i, ∀ d ∈ SceneControl.trim (c.extras.getD i []), Stripped d := by
    intro i
    rw [List.getD_eq_getElem?_getD]
    cases hi : c.extras[i]? with
    | none => exact fun d hd => by cases hd
    | some x => exact hextras x (List.mem_of_getElem? hi)
  have hinner : ∀ d ∈ [','].intercalate [SceneControl.trim c.time, SceneControl.trim c.effect,
      SceneControl.value c.extras, SceneControl.trim (c.extras.getD 1 []),
      SceneControl.trim (c.extras.getD 2 []), SceneControl.trim (c.extras.getD 3 [])],
      Stripped d := by
    apply Text.forall_mem_intercalate
    · exact stripped_of_not_blank (by decide)
    · simp only [List.forall_mem_cons]
      exact ⟨hargument _ (by simp [SceneControl.arguments]),
        hargument _ (by simp [SceneControl.arguments]), stripped_value hextras, hextra 1, hextra 2,
        hextra 3, by simp⟩
  intro d hd
  rcases List.mem_append.mp hd with hd | hd
  · rcases List.mem_append.mp hd with hd | hd
    · exact stripped_of_all (by decide) d hd
    · exact hinner d hd
  · exact stripped_of_all (by decide) d hd

variable {t : Text}

theorem stripped_rebuildSceneControls (allowed : Whitelists) (h : ∀ c ∈ t, Stripped c) :
    ∀ c ∈ (rebuildSceneControls allowed t).1, Stripped c := by
  apply Tiling.forall_judged
  · rw [sceneControls, text_scan]
    exact h
  · intro s hs
    rw [SceneControl.verdict]
    split
    · exact hs
    · next c n hparse =>
        split
        · exact stripped_render hparse hs
        · exact fun d hd => by cases hd

theorem stripped_dropBlankLines (h : ∀ c ∈ t, Stripped c) : ∀ c ∈ dropBlankLines t, Stripped c := by
  apply Text.forall_mem_intercalate
  · exact fun _ => rfl
  · intro line hline c hc
    have hmem : line ∈ Text.lines t := by
      rcases List.mem_append.mp hline with hline | hline
      · exact List.mem_of_mem_dropLast (List.mem_filter.mp hline).1
      · exact List.mem_of_mem_drop hline
    exact h c (Text.mem_of_mem_splitOn hmem hc)

theorem stripped_clearTimingGroups (allowed : Whitelists) (h : ∀ c ∈ t, Stripped c) :
    ∀ c ∈ (clearTimingGroups allowed t).1, Stripped c := by
  apply Tiling.forall_judged
  · rw [timingGroups, text_scan]
    exact h
  · intro s hs
    rw [TimingGroup.verdict]
    split
    · exact hs
    · split
      · exact hs
      · split
        · exact hs
        · have hcleared : TimingGroup.cleared.all fun c => !isChartBlank c := by decide
          exact stripped_of_all hcleared

theorem stripped_repairArcs (h : ∀ c ∈ t, Stripped c) : ∀ c ∈ (repairArcs t).1, Stripped c := by
  apply Tiling.forall_judged
  · rw [arcs, text_scan]
    exact h
  · intro s hs
    rw [Arc.verdict]
    split
    · exact hs
    · next a rest hparse =>
        split
        · have hshaped := (Arc.parse?_eq_some_iff.mp hparse).1
          exact fun d hd => stripped_of_not_blank
            (Arc.not_blank_render (Arc.repaired_shaped hshaped) d hd)
        · exact hs

/-- The only blanks of a sanitized chart are line breaks. -/
theorem stripped_sanitize (allowed : Whitelists) (t : Text) :
    ∀ c ∈ (sanitize allowed t).1, Stripped c :=
  stripped_repairArcs (stripped_clearTimingGroups allowed
    (stripped_dropBlankLines (stripped_rebuildSceneControls allowed (stripped_stripBlanks t))))

end Chart
end ChartPackage
