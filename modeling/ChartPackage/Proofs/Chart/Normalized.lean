import Mathlib
import ChartPackage.Proofs.Chart.Rebuilding

/-!
Scene controls in their normal form. Once rebuilt, a control has six arguments, is found again as a
whole and is rebuilt as it is, whatever its arguments were, also with brackets, semicolons and line
breaks in them.
-/

namespace ChartPackage.SceneControl

/-- What stands between the brackets of a statement, taken apart at the commas. -/
def slots (statement : Text) : List Text :=
  ((statement.drop keyword.length).rdrop terminator.length).splitOn ','

variable {effects : List Text} {c : SceneControl} {s r : Text}

theorem slots_written (h : c.WellFormed) : slots c.written = c.arguments := by
  have harguments := (ofArguments?_eq_some_iff.mp (ofArguments?_splitOn.mpr ⟨h, rfl⟩)).2.2.2
  rw [slots, written, List.append_assoc, List.drop_left, List.rdrop_append_length, ← harguments]

/-- A statement that is found as a whole is a control as it is written. -/
theorem exists_written (h : extent? s = some s.length) : ∃ c :
    SceneControl, c.Legible ∧ s = c.written := by
  obtain ⟨⟨c, n⟩, hparse, hn⟩ := Option.map_eq_some_iff.mp h
  obtain ⟨hlegible, rest, rfl⟩ := legible_of_parse? hparse
  rw [parse?_of_legible hlegible] at hparse
  obtain rfl : c.written.length = n := (Prod.mk.inj (Option.some.inj hparse)).2
  have hnil : rest = [] := by
    rw [List.length_append] at hn
    exact List.length_eq_zero_iff.mp (by omega)
  exact ⟨c, hlegible, by rw [hnil, List.append_nil]⟩

theorem trim_ne_nil {x : Text} (h : ∃ d ∈ x, isChartBlank d = false) : trim x ≠ [] := by
  obtain ⟨d, hd, hink⟩ := h
  exact List.ne_nil_of_mem (Text.mem_trim hd hink)

/-- A third argument with a point stays as it is but for the blanks around it. -/
theorem value_of_point {extras : List Text} (h : '.' ∈ trim (extras.getD 0 [])) :
    value extras = trim (extras.getD 0 []) := by
  cases extras with
  | nil => exact absurd h List.not_mem_nil
  | cons raw extras =>
      rw [List.getD_cons_zero] at h ⊢
      have hraw : raw ≠ [] := List.ne_nil_of_mem (Text.mem_of_mem_trim h)
      rw [value_of_ne_nil hraw, if_pos h]

/-- A control with a time and an effect that is rebuilt has six arguments: those it had without the
blanks around them, and nothing where it had none, but for the third, which becomes a number if it
has no point. It is found as a whole, and rebuilt as it is. -/
theorem verdict_rebuilt (effects : List Text) {s r : Text} (hextent : extent? s = some s.length)
    (htime : ∃ d ∈ (slots s).getD 0 [], isChartBlank d = false)
    (heffect : ∃ d ∈ (slots s).getD 1 [], isChartBlank d = false)
    (hverdict : verdict effects s = .replace r) :
    extent? r = some r.length ∧ (slots r).length = 6 ∧
      (∀ i < 6, i ≠ 2 → (slots r).getD i [] = trim ((slots s).getD i [])) ∧
      ('.' ∈ trim ((slots s).getD 2 []) → (slots r).getD 2 [] = trim ((slots s).getD 2 [])) ∧
      verdict effects r = .replace r := by
  obtain ⟨c, hlegible, rfl⟩ := exists_written hextent
  rw [slots_written hlegible.wellFormed] at *
  rw [verdict_of_legible effects hlegible] at hverdict
  split at hverdict
  · next hallowed =>
      obtain rfl := Verdict.replace.inj hverdict
      have htidy := tidy_tidied hlegible (trim_ne_nil htime) (trim_ne_nil heffect) hallowed
      have hfound := extent?_of_legible htidy.legible []
      rw [List.append_nil] at hfound
      rw [← written_tidied, slots_written htidy.legible.wellFormed]
      refine ⟨hfound, rfl, fun i hi hvalue => ?_, value_of_point, verdict_of_tidy htidy⟩
      interval_cases i
      all_goals first | rfl | exact absurd rfl hvalue
  · cases hverdict

/-- Brackets, semicolons and line breaks in the arguments, and a value with an exponent. -/
theorem verdict_rebuilt_brackets :
    verdict ["redline".toList] "scenecontrol(;t) ,\nredline\n, 1e22x;,)\n);".toList =
        .replace "scenecontrol(;t),redline,1e+22,),,);".toList ∧
      extent? "scenecontrol(;t),redline,1e+22,),,);".toList = some 36 ∧
      verdict ["redline".toList] "scenecontrol(;t),redline,1e+22,),,);".toList =
        .replace "scenecontrol(;t),redline,1e+22,),,);".toList := by
  have hverdict : verdict ["redline".toList] "scenecontrol(;t) ,\nredline\n, 1e22x;,)\n);".toList =
      .replace "scenecontrol(;t),redline,1e+22,),,);".toList := by decide +kernel
  have hextent : extent? "scenecontrol(;t) ,\nredline\n, 1e22x;,)\n);".toList =
      some "scenecontrol(;t) ,\nredline\n, 1e22x;,)\n);".toList.length := by decide +kernel
  have htime : ∃ d ∈ (slots "scenecontrol(;t) ,\nredline\n, 1e22x;,)\n);".toList).getD 0 [],
      isChartBlank d = false :=
    ⟨'t', by decide +kernel, rfl⟩
  have heffect : ∃ d ∈ (slots "scenecontrol(;t) ,\nredline\n, 1e22x;,)\n);".toList).getD 1 [],
      isChartBlank d = false := ⟨'r', by decide +kernel, rfl⟩
  have hrebuilt := verdict_rebuilt ["redline".toList] hextent htime heffect hverdict
  exact ⟨hverdict, hrebuilt.1, hrebuilt.2.2.2.2⟩

end ChartPackage.SceneControl
