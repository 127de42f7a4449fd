import ChartPackage.Proofs.Chart.Scanning
import ChartPackage.Proofs.Chart.Statements
import ChartPackage.Proofs.Number.Characters

/-!
Charts with one statement a line. Of such a chart the whole sanitizing can be told line by line: no
stage reads across a line break, and a line goes with its break. The kinds of lines and what becomes
of each are said here without a scan; the main statement is that sanitizing does just that.
-/

namespace ChartPackage.Chart

/-- A line without its blanks. -/
def ink (line : Text) : Text := line.filter fun c => !isChartBlank c

/-- A line by what stands on it once its blanks are gone. -/
inductive Line where
  | sceneControl (c : SceneControl)
  | timingGroup (flags : List Text)
  /-- A line that starts with an arc, and what follows the arc. -/
  | arc (text : Text) (a : Arc) (rest : Text)
  | other (text : Text)

/-- None of the three keywords stands in the text. -/
def Quiet (t : Text) : Prop :=
  ¬ SceneControl.keyword <:+: t ∧ ¬ TimingGroup.keyword <:+: t ∧ ¬ Arc.keyword <:+: t

/-- No character that structures a statement. -/
def Plain (argument : Text) : Prop := ',' ∉ argument ∧ '(' ∉ argument ∧ ')' ∉ argument

instance (t : Text) : Decidable (Quiet t) := inferInstanceAs (Decidable (_ ∧ _))

instance (argument : Text) : Decidable (Plain argument) := inferInstanceAs (Decidable (_ ∧ _))

namespace Line

def text : Line → Text
  | .sceneControl c => c.written
  | .timingGroup flags => TimingGroup.written flags
  | .arc text _ _ => text
  | .other text => text

def Valid : Line → Prop
  | .sceneControl c =>
      c.time ≠ [] ∧ c.effect ≠ [] ∧ c.extras.length ≤ 4 ∧ ∀ x ∈ c.arguments, Plain x
  | .timingGroup flags => flags ≠ [] ∧ ∀ x ∈ flags, Plain x
  | .arc text a rest => Arc.parse? text = some (a, rest) ∧ Quiet rest
  | .other text => Quiet text

instance : DecidablePred Valid
  | .sceneControl _ => inferInstanceAs (Decidable (_ ∧ _))
  | .timingGroup _ => inferInstanceAs (Decidable (_ ∧ _))
  | .arc _ _ _ => inferInstanceAs (Decidable (_ ∧ _))
  | .other _ => inferInstanceAs (Decidable (Quiet _))

/-- The third argument as written back. -/
def value : List Text → Text
  | [] => []
  | raw :: _ => if raw = [] ∨ '.' ∈ raw then raw else Fixed.render (Leading.read? raw) 2

/-- The scene control with six arguments. -/
def rebuilt (c : SceneControl) : Text :=
  "scenecontrol(".toList ++ [','].intercalate
    [c.time, c.effect, value c.extras, c.extras.getD 1 [], c.extras.getD 2 [],
      c.extras.getD 3 []] ++
    ");".toList

/-- What stands for the line afterwards, if it stays. -/
def sanitized (allowed : Whitelists) : Line → Option Text
  | .sceneControl c =>
      if SceneControl.Allowed allowed.sceneControls c.effect then some (rebuilt c) else none
  | .timingGroup flags =>
      some (if ∀ x ∈ flags, TimingGroup.isValidFlag allowed.timingGroups x then
        TimingGroup.written flags else "timinggroup()\x7b")
  | .arc text a rest => some (if a.Degenerate then a.repaired.render ++ rest else text)
  | .other text => if text = [] then none else some text

/-- What is counted for the line. -/
def tally (allowed : Whitelists) : Line → Tally
  | .sceneControl c =>
      if SceneControl.Allowed allowed.sceneControls c.effect then { kept := 1 } else
        { removed := 1 }
  | .timingGroup flags =>
      if (∀ x ∈ flags, TimingGroup.isValidFlag allowed.timingGroups x) ∨ flags = [[]] then {}
      else { cleared := 1 }
  | .arc _ a _ => if a.Degenerate then { repaired := 1 } else {}
  | .other _ => {}

end Line

instance : Zero Tally := ⟨{}⟩

theorem stripBlanks_endLines {ls : List Text} (h : ∀ l ∈ ls, '\n' ∉ l) :
    stripBlanks (Text.endLines ls) = Text.endLines (ls.map ink) := by
  rw [stripBlanks, Text.lines_endLines h, ← Text.unlines_concat_nil, List.map_append]
  rfl

theorem dropBlankLines_endLines {ls : List Text} (h : ∀ l ∈ ls, '\n' ∉ l) :
    dropBlankLines (Text.endLines ls) =
      Text.endLines (ls.filter fun line => !line.all isChartBlank) := by
  rw [dropBlankLines, Text.lines_endLines h, ← Text.unlines_concat_nil]
  simp

/-- A keyword of another stem is not in a text with one bracket. -/
theorem not_infix_of_bracket (stem head : Text) {inner : Text} (hhead : '(' ∉ head)
    (hinner : '(' ∉ inner) (hstem : ¬ stem <:+ head) :
    ¬ stem ++ ['('] <:+: head ++ '(' :: inner :=
  fun h => hstem (Text.stem_suffix_of_infix hhead hinner h)

namespace Line
variable {allowed : Whitelists}

/-- What the scene-control stage leaves of the line. -/
def afterScene (allowed : Whitelists) : Line → Text
  | .sceneControl c =>
      if SceneControl.Allowed allowed.sceneControls c.effect then rebuilt c else []
  | line => line.text

/-- What the timing-group stage leaves of it. -/
def afterTiming (allowed : Whitelists) : Line → Text
  | .timingGroup flags =>
      if ∀ x ∈ flags, TimingGroup.isValidFlag allowed.timingGroups x then
        TimingGroup.written flags else TimingGroup.cleared
  | line => line.afterScene allowed

/-- What the arc stage leaves of it. -/
def afterArcs (allowed : Whitelists) : Line → Text
  | .arc text a rest => if a.Degenerate then a.repaired.render ++ rest else text
  | line => line.afterTiming allowed

def sceneTiling : Line → Tiling
  | .sceneControl c => ⟨[([], c.written)], ['\n']⟩
  | line => ⟨[], line.text ++ ['\n']⟩

def timingTiling (allowed : Whitelists) : Line → Tiling
  | .timingGroup flags => ⟨[([], TimingGroup.written flags)], ['\n']⟩
  | line => ⟨[], line.afterScene allowed ++ ['\n']⟩

def arcTiling (allowed : Whitelists) : Line → Tiling
  | .arc _ a rest => ⟨[([], a.render)], rest ++ ['\n']⟩
  | line => ⟨[], line.afterTiming allowed ++ ['\n']⟩

theorem sceneControl_quiet {inner : Text} (h : '(' ∉ inner) :
    ¬ TimingGroup.keyword <:+: SceneControl.keyword ++ inner ∧
      ¬ Arc.keyword <:+: SceneControl.keyword ++ inner :=
  ⟨not_infix_of_bracket "timinggroup" "scenecontrol" (by decide) h
      (by decide),
    not_infix_of_bracket "arc" "scenecontrol" (by decide) h
      (by decide)⟩

theorem timingGroup_quiet {inner : Text} (h : '(' ∉ inner) :
    ¬ SceneControl.keyword <:+: TimingGroup.keyword ++ inner ∧
      ¬ Arc.keyword <:+: TimingGroup.keyword ++ inner :=
  ⟨not_infix_of_bracket "scenecontrol" "timinggroup" (by decide) h
      (by decide),
    not_infix_of_bracket "arc" "timinggroup" (by decide) h
      (by decide)⟩

theorem arc_quiet {inner rest : Text} (h : '(' ∉ inner) (hrest : Quiet rest) :
    ¬ SceneControl.keyword <:+: Arc.keyword ++ inner ++ ')' :: rest ∧
      ¬ TimingGroup.keyword <:+: Arc.keyword ++ inner ++ ')' :: rest := by
  rw [Text.infix_append_cons_iff (by decide), Text.infix_append_cons_iff (by decide)]
  exact ⟨not_or.mpr ⟨not_infix_of_bracket "scenecontrol" "arc"
      (by decide) h (by decide), hrest.1⟩,
    not_or.mpr ⟨not_infix_of_bracket "timinggroup" "arc"
      (by decide) h (by decide), hrest.2.1⟩⟩

theorem not_mem_value {extras : List Text} (h : ∀ x ∈ extras, '(' ∉ x) : '(' ∉ value extras := by
  cases extras with
  | nil => simp [value]
  | cons raw extras =>
      rw [value]
      split
      · exact h raw (by simp)
      · exact Fixed.not_mem_render (by decide) _ _

theorem getD_of_forall {P : Text → Prop} {texts : List Text} (h : ∀ x ∈ texts, P x) (hnil : P [])
    (i : Nat) : P (texts.getD i []) := by
  rw [List.getD_eq_getElem?_getD]
  cases hi : texts[i]? with
  | none => exact hnil
  | some x => exact h x (List.mem_of_getElem? hi)

/-- The arguments of the rebuilt control and what ends it. -/
def rebuiltTail (c : SceneControl) : Text :=
  [','].intercalate [c.time, c.effect, value c.extras, c.extras.getD 1 [], c.extras.getD 2 [],
    c.extras.getD 3 []] ++ SceneControl.terminator

theorem rebuilt_eq (c : SceneControl) : rebuilt c = SceneControl.keyword ++ rebuiltTail c :=
  List.append_assoc _ _ _

theorem rebuilt_ne_nil (c : SceneControl) : rebuilt c ≠ [] := by
  rw [rebuilt_eq]
  exact List.append_ne_nil_of_left_ne_nil (by decide) _

theorem not_mem_rebuilt {c : SceneControl} (h : ∀ x ∈ c.arguments, Plain x) :
    '(' ∉ rebuiltTail c := by
  have hextras : ∀ x ∈ c.extras, '(' ∉ x := fun x hx =>
    (h x (by simp [SceneControl.arguments, hx])).2.1
  rw [rebuiltTail, List.mem_append]
  refine not_or.mpr ⟨Text.not_mem_intercalate (by decide) ?_, by decide⟩
  simp only [List.forall_mem_cons]
  exact ⟨(h c.time (by simp [SceneControl.arguments])).2.1,
    (h c.effect (by simp [SceneControl.arguments])).2.1, not_mem_value hextras,
    getD_of_forall hextras (by simp) 1, getD_of_forall hextras (by simp) 2,
    getD_of_forall hextras (by simp) 3, by simp⟩

theorem not_mem_timingGroup {flags : List Text} (h : ∀ x ∈ flags, Plain x) :
    '(' ∉ [','].intercalate flags ++ ")\x7b".toList := by
  rw [List.mem_append]
  exact not_or.mpr ⟨Text.not_mem_intercalate (by decide) fun x hx => (h x hx).2.1, by decide⟩

theorem not_mem_arc {a : Arc} (h : a.Shaped) : '(' ∉ [','].intercalate a.arguments :=
  Text.not_mem_intercalate (by decide) (Arc.not_mem_argument h fun shape => by
    cases shape <;> decide)

theorem render_append (a : Arc) (rest : Text) :
    a.render ++ rest = Arc.keyword ++ [','].intercalate a.arguments ++ ')' :: rest := by
  simp [Arc.render, Arc.arguments]

theorem wellFormed {c : SceneControl} (h : (sceneControl c).Valid) : c.WellFormed :=
  ⟨h.1, h.2.1, h.2.2.1, fun x hx => (h.2.2.2 x hx).1⟩

theorem sceneScanned {line : Line} (h : line.Valid) :
    Scanned SceneControl.keyword SceneControl.extent? line.text line.sceneTiling := by
  cases line with
  | sceneControl c =>
      have hextent : ∀ rest, SceneControl.extent? (c.written ++ rest) = some c.written.length :=
        fun rest => SceneControl.extent?_of_some
          (SceneControl.parse?_written (wellFormed h) (fun x hx => (h.2.2.2 x hx).2.2) rest)
      have hk : SceneControl.keyword <+: c.written := by
        rw [SceneControl.written, List.append_assoc]
        exact List.prefix_append _ _
      exact scanned_whole (by decide) (by decide) hk hextent
  | timingGroup flags =>
      apply scanned_quiet (by decide)
      rw [text, TimingGroup.written, List.append_assoc]
      exact (timingGroup_quiet (not_mem_timingGroup h.2)).1
  | arc text a rest =>
      obtain ⟨hshaped, rfl⟩ := Arc.parse?_eq_some_iff.mp h.1
      apply scanned_quiet (by decide)
      rw [Line.text, render_append]
      exact (arc_quiet (not_mem_arc hshaped) h.2).1
  | other text => exact scanned_quiet (by decide) h.1

theorem afterScene_quiet {c : SceneControl} (h : (sceneControl c).Valid) :
    ¬ TimingGroup.keyword <:+: (sceneControl c).afterScene allowed ∧
      ¬ Arc.keyword <:+: (sceneControl c).afterScene allowed := by
  by_cases hallowed : SceneControl.Allowed allowed.sceneControls c.effect
  · have hrebuilt : (sceneControl c).afterScene allowed = rebuilt c := if_pos hallowed
    rw [hrebuilt, rebuilt_eq]
    exact sceneControl_quiet (not_mem_rebuilt h.2.2.2)
  · have hgone : (sceneControl c).afterScene allowed = [] := if_neg hallowed
    rw [hgone]
    exact ⟨by decide, by decide⟩

theorem timingScanned {line : Line} (h : line.Valid) :
    Scanned TimingGroup.keyword TimingGroup.extent? (line.afterScene allowed)
      (line.timingTiling allowed) := by
  cases line with
  | sceneControl c => exact scanned_quiet (by decide) (afterScene_quiet h).1
  | timingGroup flags =>
      have hk : TimingGroup.keyword <+: TimingGroup.written flags := by
        rw [TimingGroup.written, List.append_assoc]
        exact List.prefix_append _ _
      exact scanned_whole (by decide) (by decide) hk
        (TimingGroup.extent?_written fun x hx => (h.2 x hx).2.2)
  | arc text a rest =>
      obtain ⟨hshaped, rfl⟩ := Arc.parse?_eq_some_iff.mp h.1
      have hquiet := (arc_quiet (not_mem_arc hshaped) h.2).2
      rw [← render_append] at hquiet
      exact scanned_quiet (by decide) hquiet
  | other text => exact scanned_quiet (by decide) h.2.1

theorem afterTiming_quiet {flags : List Text} (h : (timingGroup flags).Valid) :
    ¬ Arc.keyword <:+: (timingGroup flags).afterTiming allowed := by
  by_cases hvalid : ∀ x ∈ flags, TimingGroup.isValidFlag allowed.timingGroups x
  · have hkept : (timingGroup flags).afterTiming allowed = TimingGroup.written flags :=
      if_pos hvalid
    rw [hkept, TimingGroup.written, List.append_assoc]
    exact (timingGroup_quiet (not_mem_timingGroup h.2)).2
  · have hcleared : (timingGroup flags).afterTiming allowed = TimingGroup.cleared := if_neg hvalid
    rw [hcleared]
    exact (timingGroup_quiet (show '(' ∉ ")\x7b".toList by decide)).2

theorem arcScanned {line : Line} (h : line.Valid) :
    Scanned Arc.keyword Arc.extent? (line.afterTiming allowed) (line.arcTiling allowed) := by
  cases line with
  | sceneControl c => exact scanned_quiet (by decide) (afterScene_quiet h).2
  | timingGroup flags => exact scanned_quiet (by decide) (afterTiming_quiet h)
  | arc text a rest =>
      obtain ⟨hshaped, rfl⟩ := Arc.parse?_eq_some_iff.mp h.1
      have hk : Arc.keyword <+: a.render := by
        rw [Arc.render, List.append_assoc]
        exact List.prefix_append _ _
      exact scanned_statement (by decide) (by decide) hk (Arc.extent?_render hshaped) h.2.2.2
  | other text => exact scanned_quiet (by decide) h.2.2

/-- A line that has lost its blanks. -/
def Inked (line : Line) : Prop := ∀ c ∈ line.text, isChartBlank c = false

theorem trim_argument {c : SceneControl} (h : (sceneControl c).Inked) {x : Text}
    (hx : x ∈ c.arguments) : SceneControl.trim x = x := by
  apply Text.trim_eq_self
  intro d hd
  apply h d
  have hmem : d ∈ [','].intercalate c.arguments := Text.mem_intercalate hd hx
  exact List.mem_append_left _ (List.mem_append_right _ hmem)

theorem value_eq {extras : List Text} (h : ∀ x ∈ extras, SceneControl.trim x = x) :
    SceneControl.value extras = value extras := by
  match extras with
  | [] => rfl
  | [] :: _ => rfl
  | (d :: raw) :: _ =>
      simp only [SceneControl.value, value, h (d :: raw) (by simp), reduceCtorEq, false_or]

theorem render_eq_rebuilt {c : SceneControl} (h : (sceneControl c).Inked) :
    c.render = rebuilt c := by
  have hextras : ∀ x ∈ c.extras, SceneControl.trim x = x := fun x hx =>
    trim_argument h (by simp [SceneControl.arguments, hx])
  have hnil : SceneControl.trim [] = [] := rfl
  simp only [SceneControl.render]
  rw [trim_argument h (by simp [SceneControl.arguments] : c.time ∈ c.arguments),
    trim_argument h (by simp [SceneControl.arguments] : c.effect ∈ c.arguments),
    value_eq hextras, getD_of_forall hextras hnil 1, getD_of_forall hextras hnil 2,
    getD_of_forall hextras hnil 3]
  rfl

theorem sceneVerdict {c : SceneControl} (h : (sceneControl c).Valid)
    (hink : (sceneControl c).Inked) :
    SceneControl.verdict allowed.sceneControls c.written =
      if SceneControl.Allowed allowed.sceneControls c.effect then .replace (rebuilt c)
      else .delete := by
  rw [SceneControl.verdict_written _ (wellFormed h) fun x hx => (h.2.2.2 x hx).2.2,
    trim_argument hink (by simp [SceneControl.arguments]), render_eq_rebuilt hink]

theorem timingVerdict {flags : List Text} (h : (timingGroup flags).Valid)
    (hink : (timingGroup flags).Inked) :
    TimingGroup.verdict allowed.timingGroups (TimingGroup.written flags) =
      if ∀ x ∈ flags, TimingGroup.isValidFlag allowed.timingGroups x then .keep
      else if flags = [[]] then .keep
      else .replace TimingGroup.cleared := by
  have hcommas : ∀ x ∈ flags, ',' ∉ x := fun x hx => (h.2 x hx).1
  have htrim : ∀ x ∈ flags, Text.trim isChartBlank x = x := by
    intro x hx
    apply Text.trim_eq_self
    intro d hd
    apply hink d
    have hmem : d ∈ [','].intercalate flags := Text.mem_intercalate hd hx
    exact List.mem_append_left _ (List.mem_append_right _ hmem)
  have hall : (flags.all fun x => TimingGroup.isValidFlag allowed.timingGroups
      (Text.trim isChartBlank x)) = true ↔
      ∀ x ∈ flags, TimingGroup.isValidFlag allowed.timingGroups x = true := by
    rw [List.all_eq_true]
    exact forall₂_congr fun x hx => by rw [htrim x hx]
  have hcleared : TimingGroup.written flags = TimingGroup.cleared ↔ flags = [[]] := by
    rw [← Text.intercalate_eq_nil_iff h.1 hcommas]
    have hsplit : TimingGroup.cleared = TimingGroup.keyword ++ [] ++ ")\x7b".toList := by decide
    rw [TimingGroup.written, hsplit, List.append_left_inj, List.append_right_inj]
  rw [TimingGroup.verdict_written _ h.1 hcommas fun x hx => (h.2 x hx).2.2]
  simp only [hall, hcleared]

theorem judged_gap (verdict : Text → Verdict) (gap : Text) :
    (⟨[], gap⟩ : Tiling).judged verdict = gap := rfl

theorem judged_one (verdict : Text → Verdict) (statement tail : Text) :
    (⟨[([], statement)], tail⟩ : Tiling).judged verdict =
      (verdict statement).apply statement ++ tail := by
  simp [Tiling.judged]

theorem count_gap (verdict : Text → Verdict) (sort : Verdict → Bool) (gap : Text) :
    (⟨[], gap⟩ : Tiling).count verdict sort = 0 := rfl

theorem count_one (verdict : Text → Verdict) (sort : Verdict → Bool) (statement tail : Text) :
    (⟨[([], statement)], tail⟩ : Tiling).count verdict sort =
      if sort (verdict statement) then 1 else 0 := by
  simp [Tiling.count, Tiling.statements, List.countP_singleton]

theorem scene_judged {line : Line} (h : line.Valid) (hink : line.Inked) :
    line.sceneTiling.judged (SceneControl.verdict allowed.sceneControls) =
      line.afterScene allowed ++ ['\n'] := by
  cases line with
  | sceneControl c =>
      rw [sceneTiling, judged_one, sceneVerdict h hink, afterScene]
      by_cases hallowed : SceneControl.Allowed allowed.sceneControls c.effect
      · rw [if_pos hallowed, if_pos hallowed, Verdict.apply]
      · rw [if_neg hallowed, if_neg hallowed, Verdict.apply]
  | timingGroup flags => exact judged_gap _ _
  | arc text a rest => exact judged_gap _ _
  | other text => exact judged_gap _ _

theorem timing_judged {line : Line} (h : line.Valid) (hink : line.Inked) :
    (line.timingTiling allowed).judged (TimingGroup.verdict allowed.timingGroups) =
      line.afterTiming allowed ++ ['\n'] := by
  cases line with
  | sceneControl c => exact judged_gap _ _
  | timingGroup flags =>
      rw [timingTiling, judged_one, timingVerdict h hink, afterTiming]
      by_cases hvalid : ∀ x ∈ flags, TimingGroup.isValidFlag allowed.timingGroups x
      · rw [if_pos hvalid, if_pos hvalid, Verdict.apply]
      · rw [if_neg hvalid, if_neg hvalid]
        by_cases hempty : flags = [[]]
        · rw [if_pos hempty, Verdict.apply, hempty]
          rfl
        · rw [if_neg hempty, Verdict.apply]
  | arc text a rest => exact judged_gap _ _
  | other text => exact judged_gap _ _

theorem arc_judged {line : Line} (h : line.Valid) :
    (line.arcTiling allowed).judged Arc.verdict = line.afterArcs allowed ++ ['\n'] := by
  cases line with
  | sceneControl c => exact judged_gap _ _
  | timingGroup flags => exact judged_gap _ _
  | arc text a rest =>
      obtain ⟨hshaped, rfl⟩ := Arc.parse?_eq_some_iff.mp h.1
      rw [arcTiling, judged_one, Arc.verdict_render hshaped, afterArcs]
      by_cases hdegenerate : a.Degenerate
      · rw [if_pos hdegenerate, if_pos hdegenerate, Verdict.apply, List.append_assoc]
      · rw [if_neg hdegenerate, if_neg hdegenerate, Verdict.apply, List.append_assoc]
  | other text => exact judged_gap _ _

theorem count_kept {line : Line} (h : line.Valid) (hink : line.Inked) :
    line.sceneTiling.count (SceneControl.verdict allowed.sceneControls) (· ≠ .delete) =
      (line.tally allowed).kept := by
  cases line with
  | sceneControl c =>
      rw [sceneTiling, count_one, sceneVerdict h hink, tally]
      by_cases hallowed : SceneControl.Allowed allowed.sceneControls c.effect <;> simp [hallowed]
  | timingGroup flags => simp only [sceneTiling, count_gap, tally, apply_ite Tally.kept, ite_self]
  | arc text a rest => simp only [sceneTiling, count_gap, tally, apply_ite Tally.kept, ite_self]
  | other text => rfl

theorem count_removed {line : Line} (h : line.Valid) (hink : line.Inked) :
    line.sceneTiling.count (SceneControl.verdict allowed.sceneControls) (· = .delete) =
      (line.tally allowed).removed := by
  cases line with
  | sceneControl c =>
      rw [sceneTiling, count_one, sceneVerdict h hink, tally]
      by_cases hallowed : SceneControl.Allowed allowed.sceneControls c.effect <;> simp [hallowed]
  | timingGroup flags =>
      simp only [sceneTiling, count_gap, tally, apply_ite Tally.removed, ite_self]
  | arc text a rest => simp only [sceneTiling, count_gap, tally, apply_ite Tally.removed, ite_self]
  | other text => rfl

theorem count_cleared {line : Line} (h : line.Valid) (hink : line.Inked) :
    (line.timingTiling allowed).count (TimingGroup.verdict allowed.timingGroups) (· ≠ .keep) =
      (line.tally allowed).cleared := by
  cases line with
  | sceneControl c =>
      simp only [timingTiling, count_gap, tally, apply_ite Tally.cleared, ite_self]
  | timingGroup flags =>
      rw [timingTiling, count_one, timingVerdict h hink, tally]
      by_cases hvalid : ∀ x ∈ flags, TimingGroup.isValidFlag allowed.timingGroups x
      · rw [if_pos hvalid, if_pos (Or.inl hvalid)]
        rfl
      · rw [if_neg hvalid]
        by_cases hempty : flags = [[]]
        · rw [if_pos hempty, if_pos (Or.inr hempty)]
          rfl
        · rw [if_neg hempty, if_neg (not_or.mpr ⟨hvalid, hempty⟩)]
          rfl
  | arc text a rest =>
      simp only [timingTiling, count_gap, tally, apply_ite Tally.cleared, ite_self]
  | other text => rfl

theorem count_repaired {line : Line} (h : line.Valid) :
    (line.arcTiling allowed).count Arc.verdict (· ≠ .keep) = (line.tally allowed).repaired := by
  cases line with
  | sceneControl c =>
      simp only [arcTiling, count_gap, tally, apply_ite Tally.repaired, ite_self]
  | timingGroup flags =>
      simp only [arcTiling, count_gap, tally, apply_ite Tally.repaired, ite_self]
  | arc text a rest =>
      obtain ⟨hshaped, rfl⟩ := Arc.parse?_eq_some_iff.mp h.1
      rw [arcTiling, count_one, Arc.verdict_render hshaped, tally]
      by_cases hdegenerate : a.Degenerate <;> simp [hdegenerate]
  | other text => rfl

theorem not_break_of_inked {line : Line} (hink : line.Inked) : '\n' ∉ line.text :=
  fun h => absurd (hink '\n' h) (by decide)

theorem not_break_rebuilt {c : SceneControl} (hink : (sceneControl c).Inked) :
    '\n' ∉ rebuilt c := by
  have hargument : ∀ x ∈ c.arguments, '\n' ∉ x := by
    intro x hx hmem
    exact not_break_of_inked hink
      (List.mem_append_left _ (List.mem_append_right _ (Text.mem_intercalate hmem hx)))
  have hextras : ∀ x ∈ c.extras, '\n' ∉ x := fun x hx =>
    hargument x (by simp [SceneControl.arguments, hx])
  have hvalue : '\n' ∉ value c.extras := by
    cases hcase : c.extras with
    | nil => simp [value]
    | cons raw extras =>
        rw [value]
        split
        · exact hextras raw (by simp [hcase])
        · exact Fixed.not_mem_render (by decide) _ _
  rw [rebuilt_eq, rebuiltTail, List.mem_append, List.mem_append]
  refine not_or.mpr ⟨by decide, not_or.mpr ⟨Text.not_mem_intercalate (by decide) ?_, by decide⟩⟩
  simp only [List.forall_mem_cons]
  exact ⟨hargument c.time (by simp [SceneControl.arguments]),
    hargument c.effect (by simp [SceneControl.arguments]), hvalue,
    getD_of_forall hextras (by simp) 1, getD_of_forall hextras (by simp) 2,
    getD_of_forall hextras (by simp) 3, by simp⟩

theorem not_break_afterScene {line : Line} (hink : line.Inked) :
    '\n' ∉ line.afterScene allowed := by
  cases line with
  | sceneControl c =>
      by_cases hallowed : SceneControl.Allowed allowed.sceneControls c.effect
      · have hrebuilt : (sceneControl c).afterScene allowed = rebuilt c := if_pos hallowed
        rw [hrebuilt]
        exact not_break_rebuilt hink
      · have hgone : (sceneControl c).afterScene allowed = [] := if_neg hallowed
        rw [hgone]
        exact List.not_mem_nil
  | timingGroup flags => exact not_break_of_inked hink
  | arc text a rest => exact not_break_of_inked hink
  | other text => exact not_break_of_inked hink

theorem all_blank_of_inked {line : Line} (hink : line.Inked) :
    line.text.all isChartBlank = true ↔ line.text = [] := by
  cases hcase : line.text with
  | nil => simp
  | cons c t =>
      have hc : isChartBlank c = false := hink c (by simp [hcase])
      simp [hc]

theorem all_blank_afterScene (allowed : Whitelists) {line : Line} (hink : line.Inked) :
    (line.afterScene allowed).all isChartBlank = true ↔ line.afterScene allowed = [] := by
  cases line with
  | sceneControl c =>
      by_cases hallowed : SceneControl.Allowed allowed.sceneControls c.effect
      · have hrebuilt : (sceneControl c).afterScene allowed = rebuilt c := if_pos hallowed
        have hkeyword : SceneControl.keyword.all isChartBlank = false := by decide
        rw [hrebuilt, rebuilt_eq, List.all_append, hkeyword, Bool.false_and, ← rebuilt_eq]
        exact iff_of_false Bool.false_ne_true (rebuilt_ne_nil c)
      · have hgone : (sceneControl c).afterScene allowed = [] := if_neg hallowed
        simp [hgone]
  | timingGroup flags => exact all_blank_of_inked hink
  | arc text a rest => exact all_blank_of_inked hink
  | other text => exact all_blank_of_inked hink

/-- A line without text after the first stage is gone for good, and nothing else is. -/
theorem sanitized_eq (allowed : Whitelists) {line : Line} (h : line.Valid) :
    line.sanitized allowed =
      if line.afterScene allowed = [] then none else some (line.afterArcs allowed) := by
  cases line with
  | sceneControl c =>
      by_cases hallowed : SceneControl.Allowed allowed.sceneControls c.effect
      · have hscene : (sceneControl c).afterScene allowed = rebuilt c := if_pos hallowed
        have harcs : (sceneControl c).afterArcs allowed = rebuilt c := if_pos hallowed
        rw [sanitized, if_pos hallowed, hscene, harcs, if_neg (rebuilt_ne_nil c)]
      · have hgone : (sceneControl c).afterScene allowed = [] := if_neg hallowed
        rw [sanitized, if_neg hallowed, if_pos hgone]
  | timingGroup flags =>
      have hne : TimingGroup.written flags ≠ [] := by simp [TimingGroup.written]
      exact (if_neg hne).symm
  | arc text a rest =>
      obtain ⟨-, rfl⟩ := Arc.parse?_eq_some_iff.mp h.1
      have hne : a.render ++ rest ≠ [] := by simp [Arc.render]
      exact (if_neg hne).symm
  | other text => rfl

theorem tally_of_gone {line : Line} (h : line.Valid) (hgone : line.afterScene allowed = []) :
    (line.tally allowed).cleared = 0 ∧ (line.tally allowed).repaired = 0 := by
  cases line with
  | sceneControl c =>
      by_cases hallowed : SceneControl.Allowed allowed.sceneControls c.effect <;>
        simp [tally, hallowed]
  | timingGroup flags => exact absurd hgone (by simp [afterScene, text, TimingGroup.written])
  | arc text a rest =>
      obtain ⟨-, rfl⟩ := Arc.parse?_eq_some_iff.mp h.1
      exact absurd hgone (by simp [afterScene, text, Arc.render])
  | other text => exact ⟨rfl, rfl⟩

end Line

theorem Tally.add_def (a b : Tally) :
    a + b = ⟨a.kept + b.kept, a.removed + b.removed, a.cleared + b.cleared,
      a.repaired + b.repaired⟩ :=
  rfl

theorem Tally.sum_eq (tallies : List Tally) :
    tallies.sum = ⟨(tallies.map Tally.kept).sum, (tallies.map Tally.removed).sum,
      (tallies.map Tally.cleared).sum, (tallies.map Tally.repaired).sum⟩ := by
  induction tallies with
  | nil => rfl
  | cons a tallies ih =>
      rw [List.sum_cons, ih, Tally.add_def]
      simp only [List.map_cons, List.sum_cons]

theorem sum_map_filter {α : Type} {p : α → Bool} {f : α → Nat} {items : List α}
    (h : ∀ x ∈ items, p x = false → f x = 0) :
    ((items.filter p).map f).sum = (items.map f).sum := by
  induction items with
  | nil => rfl
  | cons x items ih =>
      have hrest := ih fun y hy => h y (List.mem_cons_of_mem _ hy)
      cases hp : p x with
      | true => simp [hp, hrest]
      | false => simp [hp, hrest, h x (by simp) hp]

section
variable {kinds : List Line}

theorem rebuildSceneControls_endLines (allowed : Whitelists) (h : ∀ k ∈ kinds, k.Valid)
    (hink : ∀ k ∈ kinds, k.Inked) :
    rebuildSceneControls allowed (Text.endLines (kinds.map Line.text)) =
      (Text.endLines (kinds.map (Line.afterScene allowed)),
        { kept := (kinds.map fun k => (k.tally allowed).kept).sum,
          removed := (kinds.map fun k => (k.tally allowed).removed).sum }) := by
  have hscan : ∀ k ∈ kinds,
      Scanned SceneControl.keyword SceneControl.extent? k.text k.sceneTiling :=
    fun k hk => Line.sceneScanned (h k hk)
  rw [rebuildSceneControls]
  simp only [sceneControls]
  rw [judged_endLines _ hscan fun k hk => Line.scene_judged (h k hk) (hink k hk),
    count_endLines _ _ hscan, count_endLines _ _ hscan,
    List.map_congr_left fun k hk => Line.count_kept (h k hk) (hink k hk),
    List.map_congr_left fun k hk => Line.count_removed (h k hk) (hink k hk)]

theorem clearTimingGroups_endLines (allowed : Whitelists) (h : ∀ k ∈ kinds, k.Valid)
    (hink : ∀ k ∈ kinds, k.Inked) :
    clearTimingGroups allowed (Text.endLines (kinds.map (Line.afterScene allowed))) =
      (Text.endLines (kinds.map (Line.afterTiming allowed)),
        { cleared := (kinds.map fun k => (k.tally allowed).cleared).sum }) := by
  have hscan : ∀ k ∈ kinds, Scanned TimingGroup.keyword TimingGroup.extent? (k.afterScene allowed)
      (k.timingTiling allowed) := fun k hk => Line.timingScanned (h k hk)
  rw [clearTimingGroups]
  simp only [timingGroups]
  rw [judged_endLines _ hscan fun k hk => Line.timing_judged (h k hk) (hink k hk),
    count_endLines _ _ hscan,
    List.map_congr_left fun k hk => Line.count_cleared (h k hk) (hink k hk)]

theorem repairArcs_endLines (allowed : Whitelists) (h : ∀ k ∈ kinds, k.Valid) :
    repairArcs (Text.endLines (kinds.map (Line.afterTiming allowed))) =
      (Text.endLines (kinds.map (Line.afterArcs allowed)),
        { repaired := (kinds.map fun k => (k.tally allowed).repaired).sum }) := by
  have hscan : ∀ k ∈ kinds, Scanned Arc.keyword Arc.extent? (k.afterTiming allowed)
      (k.arcTiling allowed) := fun k hk => Line.arcScanned (h k hk)
  rw [repairArcs]
  simp only [arcs]
  rw [judged_endLines _ hscan fun k hk => Line.arc_judged (h k hk), count_endLines _ _ hscan,
    List.map_congr_left fun k hk => Line.count_repaired (h k hk)]

theorem dropBlankLines_afterScene (allowed : Whitelists) (hink : ∀ k ∈ kinds, k.Inked) :
    dropBlankLines (Text.endLines (kinds.map (Line.afterScene allowed))) =
      Text.endLines ((kinds.filter fun k => k.afterScene allowed ≠ []).map
        (Line.afterScene allowed)) := by
  have hbreak : ∀ l ∈ kinds.map (Line.afterScene allowed), '\n' ∉ l := by
    intro l hl
    obtain ⟨k, hk, rfl⟩ := List.mem_map.mp hl
    exact Line.not_break_afterScene (hink k hk)
  rw [dropBlankLines_endLines hbreak, List.filter_map]
  congr 2
  apply List.filter_congr
  intro k hk
  have hblank := Line.all_blank_afterScene allowed (hink k hk)
  by_cases hgone : k.afterScene allowed = []
  · simp [hgone]
  · simp [hgone, mt hblank.mp hgone]

theorem filterMap_sanitized (allowed : Whitelists) (h : ∀ k ∈ kinds, k.Valid) :
    kinds.filterMap (Line.sanitized allowed) =
      (kinds.filter fun k => k.afterScene allowed ≠ []).map (Line.afterArcs allowed) := by
  induction kinds with
  | nil => rfl
  | cons k kinds ih =>
      have hrest := ih fun k' hk' => h k' (List.mem_cons_of_mem _ hk')
      have hk := Line.sanitized_eq allowed (h k (List.mem_cons_self ..))
      by_cases hgone : k.afterScene allowed = []
      · rw [if_pos hgone] at hk
        rw [List.filterMap_cons_none hk, hrest, List.filter_cons_of_neg (by simp [hgone])]
      · rw [if_neg hgone] at hk
        rw [List.filterMap_cons_some hk, hrest, List.filter_cons_of_pos (by simp [hgone]),
          List.map_cons]

/-- A chart with one statement a line is sanitized line by line, and every statement is counted. -/
theorem sanitize_endLines (allowed : Whitelists) {lines : List Text} {kinds : List Line}
    (hlines : ∀ l ∈ lines, '\n' ∉ l)
    (hkinds : List.Forall₂ (fun l k => ink l = Line.text k ∧ k.Valid) lines kinds) :
    sanitize allowed (Text.endLines lines) =
      (Text.endLines (kinds.filterMap (Line.sanitized allowed)),
        (kinds.map (Line.tally allowed)).sum) := by
  have htexts : lines.map ink = kinds.map Line.text := by
    induction hkinds with
    | nil => rfl
    | cons hk _ ih =>
        rw [List.map_cons, List.map_cons, hk.1, ih fun l hl => hlines l (List.mem_cons_of_mem _ hl)]
  have hvalid : ∀ k ∈ kinds, k.Valid := by
    intro k hk
    obtain ⟨l, -, hl⟩ := exists_of_forall₂ hkinds k hk
    exact hl.2
  have hink : ∀ k ∈ kinds, k.Inked := by
    intro k hk c hc
    obtain ⟨l, -, hl⟩ := exists_of_forall₂ hkinds k hk
    rw [← hl.1] at hc
    simpa using (List.mem_filter.mp hc).2
  -- The lines that are left when the blank ones go.
  let left := kinds.filter fun k => k.afterScene allowed ≠ []
  have hleft : ∀ k ∈ left, k ∈ kinds := fun k hk => (List.mem_filter.mp hk).1
  have hcleared : (left.map fun k => (k.tally allowed).cleared).sum =
      (kinds.map fun k => (k.tally allowed).cleared).sum :=
    sum_map_filter fun k hk hgone => (Line.tally_of_gone (hvalid k hk) (by simpa using hgone)).1
  have hrepaired : (left.map fun k => (k.tally allowed).repaired).sum =
      (kinds.map fun k => (k.tally allowed).repaired).sum :=
    sum_map_filter fun k hk hgone => (Line.tally_of_gone (hvalid k hk) (by simpa using hgone)).2
  have hscene := rebuildSceneControls_endLines allowed hvalid hink
  have htiming := clearTimingGroups_endLines allowed
    (fun k hk => hvalid k (hleft k hk)) fun k hk => hink k (hleft k hk)
  have harcs := repairArcs_endLines allowed fun k hk => hvalid k (hleft k hk)
  have htext := filterMap_sanitized allowed hvalid
  rw [sanitize, stripBlanks_endLines hlines, htexts, hscene]
  simp only [dropBlankLines_afterScene allowed hink]
  rw [htiming]
  simp only []
  rw [harcs, htext, hcleared, hrepaired, Tally.sum_eq, Tally.add_def, Tally.add_def]
  refine Prod.ext rfl ?_
  simp [Function.comp_def]

/-- Lines of every kind, with blanks in them. -/
def mixedLines : List Text :=
  ["scenecontrol(1, redline);", "scenecontrol(2,Bad,3);", "timinggroup(fast)\x7b",
    "arc(5,5,0.00,1.00,s,0.00,1.00,0,none,false);", " ", "\x7d;"].map String.toList

def mixedKinds : List Line :=
  [.sceneControl ⟨"1", "redline", []⟩, .sceneControl ⟨"2", "Bad", [['3']]⟩,
    .timingGroup ["fast".toList],
    .arc "arc(5,5,0.00,1.00,s,0.00,1.00,0,none,false);"
      ⟨"5", "5", ["0.00", "1.00", "s", "0.00", "1.00", "0", "none", "false"].map String.toList⟩ ";",
    .other [], .other "\x7d;"]

theorem sanitize_endLines_mixed :
    (∀ l ∈ mixedLines, '\n' ∉ l) ∧
      List.Forall₂ (fun l k => ink l = Line.text k ∧ k.Valid) mixedLines mixedKinds ∧
      sanitize {} (Text.endLines mixedLines) =
        (Text.endLines (["scenecontrol(1,redline,,,,);", "timinggroup()\x7b",
            "arc(5,6,0.00,1.00,s,0.00,1.00,0,none,false);", "\x7d;"].map String.toList),
          { kept := 1, removed := 1, cleared := 1, repaired := 1 }) := by
  have hlines : ∀ l ∈ mixedLines, '\n' ∉ l := by decide
  have hkinds : List.Forall₂ (fun l k => ink l = Line.text k ∧ k.Valid) mixedLines mixedKinds := by
    exact .cons (by decide) <| .cons (by decide) <| .cons (by decide) <| .cons (by decide) <|
      .cons (by decide) <| .cons (by decide) .nil
  refine ⟨hlines, hkinds, ?_⟩
  rw [sanitize_endLines {} hlines hkinds]
  decide

end
end ChartPackage.Chart
