import Mathlib
import ChartPackage.Console.Terminal
import ChartPackage.Proofs.Text.Cutting
import ChartPackage.Proofs.Text.Utf8
import ChartPackage.Proofs.Work

/-!
Answers on a terminal. Each question takes one line of the input, whether its answer will do or not,
so the start of the preview is the first line that tells one, and the names of charts are the lines
behind it.
-/

namespace ChartPackage

namespace Text

/-- The lines of a text, each with the line break at its end, which the last may lack. -/
def brokenLines : Text → List Text
  | [] => []
  | c :: t =>
      if c = '\n' then [c] :: brokenLines t
      else
        match brokenLines t with
        | [] => [[c]]
        | line :: rest => (c :: line) :: rest

theorem flatten_brokenLines (t : Text) : (brokenLines t).flatten = t := by
  induction t with
  | nil => rfl
  | cons c t ih =>
      rw [brokenLines]
      split
      · simp [ih]
      · cases hlines : brokenLines t with
        | nil => simp [hlines] at ih; simp [ih]
        | cons line rest => simp [hlines] at ih; simp [ih]

theorem brokenLines_append_break {line : Text} (h : '\n' ∉ line) (t : Text) :
    brokenLines (line ++ '\n' :: t) = (line ++ ['\n']) :: brokenLines t := by
  induction line with
  | nil => simp [brokenLines]
  | cons c line ih =>
      simp only [List.mem_cons, not_or] at h
      simp [brokenLines, Ne.symm h.1, ih h.2]

theorem brokenLines_of_no_break {line : Text} (h : '\n' ∉ line) (hne : line ≠ []) :
    brokenLines line = [line] := by
  induction line with
  | nil => exact absurd rfl hne
  | cons c line ih =>
      simp only [List.mem_cons, not_or] at h
      by_cases hlast : line = []
      · simp [hlast, brokenLines, Ne.symm h.1]
      · simp [brokenLines, Ne.symm h.1, ih h.2 hlast]

/-- Blanks at the end are trimmed off. -/
theorem trim_append_blank {blank : Char → Bool} {c : Char} (hc : blank c = true) (t : Text) :
    trim blank (t ++ [c]) = trim blank t := by
  rw [trim, trim, trimLeft, trimLeft, List.dropWhile_append]
  split
  · next hnil =>
      rw [List.isEmpty_iff] at hnil
      simp [hnil, hc]
  · simp [trimRight, hc]

end Text

namespace Numeral

/-- A whole-number answer is an optional plus sign and digits, and its value lies below the
limit. -/
theorem readBelow?_eq_some_iff {limit n : Nat} {t : Text} :
    readBelow? limit t = some n ↔ ∃ digits, (t = digits ∨ t = '+' :: digits) ∧ digits ≠ [] ∧
      (∀ c ∈ digits, c.isDigit = true) ∧ value digits = n ∧ n < limit := by
  have hread : ∀ digits : Text,
      (if digits ≠ [] ∧ digits.all Char.isDigit ∧ value digits < limit then
      some (value digits) else none) = some n ↔
        digits ≠ [] ∧ (∀ c ∈ digits, c.isDigit = true) ∧ value digits = n ∧ n < limit := by
    intro digits
    rw [Option.ite_none_right_eq_some, List.all_eq_true, Option.some.injEq]
    constructor
    · rintro ⟨⟨hne, hdigits, hlimit⟩, rfl⟩
      exact ⟨hne, hdigits, rfl, hlimit⟩
    · rintro ⟨hne, hdigits, rfl, hlimit⟩
      exact ⟨⟨hne, hdigits, hlimit⟩, rfl⟩
  rw [readBelow?.eq_def]
  dsimp only
  rw [hread]
  split
  · next rest =>
      constructor
      · intro h
        exact ⟨rest, Or.inr rfl, h⟩
      · rintro ⟨digits, rfl | heq, h⟩
        · exact absurd (h.2.1 '+' List.mem_cons_self) (by decide)
        · obtain rfl := (List.cons.inj heq).2
          exact h
  · next hplus =>
      constructor
      · intro h
        exact ⟨t, Or.inl rfl, h⟩
      · rintro ⟨digits, rfl | rfl, h⟩
        · exact h
        · exact absurd rfl (hplus digits)

end Numeral

namespace Terminal

/-- A line that tells a start: blanks aside, an optional plus sign and digits of a value below
2^32. -/
def GivesStart (line : Text) (n : Nat) : Prop :=
  ∃ digits, (Text.trim isBlank line = digits ∨ Text.trim isBlank line = '+' :: digits) ∧
    digits ≠ [] ∧
    (∀ c ∈ digits, c.isDigit = true) ∧ Numeral.value digits = n ∧ n < 2 ^ 32

/-- A terminal on which these lines are left to be read. -/
def Holds (t : Terminal) (lines : List Text) : Prop :=
  ∃ text, t.input = Utf8.encode text ∧ Text.brokenLines text = lines

/-- The answer to a question for which no line is left. -/
def unanswered (question : Text) : Fault := .prompt (Text.phrase ["no answer to '", question, "'"])

variable {t : Terminal} {line : Text} {lines rest : List Text}

theorem Holds.input (h : t.Holds lines) : t.input = Utf8.encode lines.flatten := by
  obtain ⟨text, hinput, rfl⟩ := h
  rw [hinput, Text.flatten_brokenLines]

theorem Holds.say (h : t.Holds lines) (message : Text) : (t.say message).Holds lines := h

/-- A text is a line and what follows its line break, or a last line without one. -/
theorem lines_cases (text : Text) :
    text = [] ∨ (∃ line rest, '\n' ∉ line ∧ text = line ++ '\n' :: rest) ∨ text ≠ [] ∧
      '\n' ∉ text := by
  by_cases hbreak : '\n' ∈ text
  · obtain ⟨line, rest, rfl, hline⟩ := List.eq_append_cons_of_mem hbreak
    exact Or.inr (Or.inl ⟨line, rest, hline, rfl⟩)
  · by_cases hnil : text = []
    · exact Or.inl hnil
    · exact Or.inr (Or.inr ⟨hnil, hbreak⟩)

theorem cutLine_cons {b : UInt8} (h : b ≠ 10) (input : List UInt8) :
    cutLine (b :: input) = (b :: (cutLine input).1, (cutLine input).2) := by
  simp [cutLine, h]

theorem cutLine_append_break {line : List UInt8} (h : 10 ∉ line) (rest : List UInt8) :
    cutLine (line ++ 10 :: rest) = (line, rest) := by
  induction line with
  | nil => simp [cutLine]
  | cons b line ih =>
      simp only [List.mem_cons, not_or] at h
      rw [List.cons_append, cutLine_cons (Ne.symm h.1), ih h.2]

theorem cutLine_of_no_break {line : List UInt8} (h : 10 ∉ line) : cutLine line = (line, []) := by
  induction line with
  | nil => rfl
  | cons b line ih =>
      simp only [List.mem_cons, not_or] at h
      rw [cutLine_cons (Ne.symm h.1), ih h.2]

/-- A question takes the first of the lines that are left. -/
theorem ask_of_line (h : t.Holds (line :: rest)) (question : Text) :
    ∃ u, ask question t = (.ok (Text.trim isBlank line), u) ∧ u.Holds rest := by
  obtain ⟨text, hinput, hlines⟩ := h
  have hask : ∀ bytes behind answer, t.input ≠ [] → cutLine t.input = (bytes, behind) →
      Utf8.decode? bytes = some answer →
        ask question t =
          (.ok (Text.trim isBlank answer), { t.say question with input := behind }) := by
    intro bytes behind answer hsome hcut hdecode
    rw [ask, if_neg hsome, hcut]
    simp only [hdecode]
  rcases lines_cases text with rfl | ⟨first, later, hfirst, rfl⟩ | ⟨hne, hlast⟩
  · cases hlines
  · rw [Text.brokenLines_append_break hfirst, List.cons.injEq] at hlines
    obtain ⟨rfl, rfl⟩ := hlines
    have hbytes : t.input = Utf8.encode first ++ 10 :: Utf8.encode later := by
      rw [hinput, Utf8.encode_append, Utf8.encode_cons]
      rfl
    have hcut := cutLine_append_break (mt (Utf8.break_mem_encode_iff first).mp hfirst)
      (Utf8.encode later)
    have hasked := hask _ _ _ (by simp [hbytes]) (hbytes ▸ hcut) (Utf8.decode?_encode first)
    rw [Text.trim_append_blank (by decide)]
    exact ⟨_, hasked, later, rfl, rfl⟩
  · rw [Text.brokenLines_of_no_break hlast hne, List.cons.injEq] at hlines
    obtain ⟨rfl, rfl⟩ := hlines
    have hcut : cutLine t.input = (Utf8.encode text, []) := by
      rw [hinput, cutLine_of_no_break (mt (Utf8.break_mem_encode_iff text).mp hlast)]
    have hsome : t.input ≠ [] := hinput ▸ Utf8.encode_ne_nil hne
    exact ⟨_, hask _ _ _ hsome hcut (Utf8.decode?_encode text), [], rfl, rfl⟩

/-- Where no line is left a question has no answer. -/
theorem ask_of_no_line (h : t.Holds []) (question : Text) :
    ask question t = (.error (unanswered question), t.say question) := by
  have hnil : t.input = [] := h.input
  rw [ask, if_pos hnil, unanswered]

/-! ### The start of the preview -/

theorem readBelow?_eq_some_iff {n : Nat} :
    Numeral.readBelow? (2 ^ 32) (Text.trim isBlank line) = some n ↔ GivesStart line n :=
  Numeral.readBelow?_eq_some_iff

theorem readBelow?_eq_none (h : ∀ n, ¬ GivesStart line n) :
    Numeral.readBelow? (2 ^ 32) (Text.trim isBlank line) = none := by
  rw [Option.eq_none_iff_forall_ne_some]
  exact fun n hn => h n (readBelow?_eq_some_iff.mp hn)

/-- Each question for the start is answered, or asked again. -/
theorem askStart_of_answer {answer : Text} {u : Terminal}
    (h : ask startQuestion t = (.ok answer, u)) :
    askStart t = match Numeral.readBelow? (2 ^ 32) answer with
      | some start => (.ok start, u)
      | none =>
        askStart (u.say (Text.phrase ["'", answer, "' is not a whole number of seconds"])) := by
  rw [askStart]
  split
  · next h' => cases h.symm.trans h'
  · next h' =>
      cases h.symm.trans h'
      rfl

theorem askStart_of_fault {f : Fault} {u : Terminal} (h : ask startQuestion t = (.error f, u)) :
    askStart t = (.error f, u) := by
  rw [askStart]
  split
  · next h' =>
      cases h.symm.trans h'
      rfl
  · next h' => cases h.symm.trans h'

/-- The first line that tells a start ends the questions. -/
theorem askStart_of_first {passed : List Text} {n : Nat} (h : t.Holds (passed ++ line :: rest))
    (hpassed : ∀ l ∈ passed, ∀ m, ¬ GivesStart l m) (hline : GivesStart line n) :
    ∃ u, askStart t = (.ok n, u) ∧ u.Holds rest := by
  induction passed generalizing t with
  | nil =>
      obtain ⟨u, hask, hrest⟩ := ask_of_line h startQuestion
      refine ⟨u, ?_, hrest⟩
      rw [askStart_of_answer hask, readBelow?_eq_some_iff.mpr hline]
  | cons first passed ih =>
      obtain ⟨u, hask, hrest⟩ := ask_of_line h startQuestion
      simp only [List.forall_mem_cons] at hpassed
      rw [askStart_of_answer hask, readBelow?_eq_none hpassed.1]
      exact ih (hrest.say _) hpassed.2

/-- Without such a line all lines are used up. -/
theorem askStart_of_none (h : t.Holds lines) (hlines : ∀ l ∈ lines, ∀ m, ¬ GivesStart l m) :
    ∃ u, askStart t = (.error (unanswered startQuestion), u) ∧ u.Holds [] := by
  induction lines generalizing t with
  | nil => exact ⟨_, askStart_of_fault (ask_of_no_line h startQuestion), h.say _⟩
  | cons first lines ih =>
      obtain ⟨u, hask, hrest⟩ := ask_of_line h startQuestion
      simp only [List.forall_mem_cons] at hlines
      rw [askStart_of_answer hask, readBelow?_eq_none hlines.1]
      exact ih (hrest.say _) hlines.2

/-! ### The names of charts -/

def nameQuestion (chart : Text) : Text := Text.phrase ["Enter new name for ", chart, ":"]

/-- Charts for which there are enough lines get them in order. -/
theorem names_of_lines {charts : List Text} (h : t.Holds lines)
    (hlength : charts.length ≤ lines.length) :
    ∃ u, charts.mapM askName t = (.ok ((lines.take charts.length).map (Text.trim isBlank)), u) ∧
      u.Holds (lines.drop charts.length) := by
  induction charts generalizing t lines with
  | nil => exact ⟨t, rfl, h⟩
  | cons chart charts ih =>
      cases lines with
      | nil => cases hlength
      | cons line lines =>
          obtain ⟨u, hask, hrest⟩ := ask_of_line h (nameQuestion chart)
          obtain ⟨v, hnames, hleft⟩ := ih hrest (Nat.le_of_succ_le_succ hlength)
          refine ⟨v, ?_, hleft⟩
          rw [List.mapM_cons]
          exact Work.bind_eq_ok_iff.mpr ⟨_, u, hask, Work.bind_eq_ok_iff.mpr ⟨_, v, hnames, rfl⟩⟩

/-- The first chart without a line ends the questions. -/
theorem names_of_too_few {charts : List Text} (h : t.Holds lines)
    (hlength : lines.length < charts.length) :
    ∃ chart u, charts[lines.length]? = some chart ∧
      charts.mapM askName t = (.error (unanswered (nameQuestion chart)), u) ∧ u.Holds [] := by
  induction charts generalizing t lines with
  | nil => cases hlength
  | cons chart charts ih =>
      cases lines with
      | nil =>
          refine ⟨chart, t.say (nameQuestion chart), rfl, ?_, h.say _⟩
          rw [List.mapM_cons]
          exact Work.bind_eq_error_iff.mpr (Or.inl (ask_of_no_line h _))
      | cons line lines =>
          obtain ⟨u, hask, hrest⟩ := ask_of_line h (nameQuestion chart)
          obtain ⟨other, v, hother, hnames, hleft⟩ := ih hrest (Nat.lt_of_succ_lt_succ hlength)
          refine ⟨other, v, hother, ?_, hleft⟩
          rw [List.mapM_cons]
          exact Work.bind_eq_error_iff.mpr
            (Or.inr ⟨_, u, hask, Work.bind_eq_error_iff.mpr (Or.inl hnames)⟩)

/-! ### Both questions on one input -/

/-- The first of some lines that tells a start, with the lines in front of it and behind it. -/
structure FirstStart (lines passed : List Text) (line : Text) (rest : List Text) (n : Nat) :
    Prop where
  split : lines = passed ++ line :: rest
  passed : ∀ l ∈ passed, ∀ m, ¬ GivesStart l m
  start : GivesStart line n

theorem firstStart_or_none (lines : List Text) :
    (∃ passed line rest n, FirstStart lines passed line rest n) ∨ ∀ l ∈ lines, ∀ n,
      ¬ GivesStart l n := by
  induction lines with
  | nil => exact Or.inr fun l hl => absurd hl List.not_mem_nil
  | cons first lines ih =>
      by_cases hfirst : ∃ n, GivesStart first n
      · obtain ⟨n, hn⟩ := hfirst
        exact Or.inl ⟨[], first, lines, n, rfl, by simp, hn⟩
      · rw [not_exists] at hfirst
        rcases ih with ⟨passed, line, rest, n, hsplit, hpassed, hn⟩ | hnone
        · refine Or.inl ⟨first :: passed, line, rest, n, by rw [hsplit, List.cons_append], ?_, hn⟩
          exact List.forall_mem_cons.mpr ⟨hfirst, hpassed⟩
        · exact Or.inr (List.forall_mem_cons.mpr ⟨hfirst, hnone⟩)

/-- A terminal that is to answer both questions reads its input line by line: the first line that
tells a start is the answer to the first, and uses up the input as far as it goes, and each chart
gets the next line after that. The end of the input is an error for the question that comes upon
it. -/
theorem answers_line_by_line (text output : Text) :
    let lines := Text.brokenLines text
    let first := (prompter none).previewStart { input := Utf8.encode text, output }
    lines.flatten = text ∧
    (∀ n, first.1 = .ok n ↔ ∃ passed line rest, FirstStart lines passed line rest n) ∧
    ((∀ l ∈ lines, ∀ n, ¬ GivesStart l n) → first.1 = .error (unanswered startQuestion) ∧
      first.2.input = []) ∧
    ∀ passed line rest n, FirstStart lines passed line rest n →
      first.2.input = Utf8.encode rest.flatten ∧
      ∀ charts, let second := (prompter none).chartNames charts first.2
        (charts.length ≤ rest.length →
          second.1 = .ok ((rest.take charts.length).map (Text.trim isBlank)) ∧
          second.2.input = Utf8.encode (rest.drop charts.length).flatten) ∧
        (rest.length < charts.length → second.2.input = [] ∧
          ∃ chart, charts[rest.length]? = some chart ∧
          second.1 = .error (unanswered (nameQuestion chart))) := by
  intro lines first
  have hholds : Holds { input := Utf8.encode text, output } lines := ⟨text, rfl, rfl⟩
  have hfirst : first = askStart { input := Utf8.encode text, output } := rfl
  have hsome : ∀ passed line rest n, FirstStart lines passed line rest n →
      first.1 = .ok n ∧ first.2.Holds rest := by
    intro passed line rest n h
    obtain ⟨u, hstart, hrest⟩ := askStart_of_first (h.split ▸ hholds) h.passed h.start
    rw [hfirst, hstart]
    exact ⟨rfl, hrest⟩
  have hnone : (∀ l ∈ lines, ∀ n, ¬ GivesStart l n) →
      first.1 = .error (unanswered startQuestion) ∧ first.2.Holds [] := by
    intro h
    obtain ⟨u, hstart, hrest⟩ := askStart_of_none hholds h
    rw [hfirst, hstart]
    exact ⟨rfl, hrest⟩
  clear_value first
  refine ⟨Text.flatten_brokenLines text, ?_, ?_, ?_⟩
  · intro n
    constructor
    · intro hok
      rcases firstStart_or_none lines with ⟨passed, line, rest, m, h⟩ | h
      · obtain rfl := Except.ok.inj ((hsome _ _ _ _ h).1.symm.trans hok)
        exact ⟨passed, line, rest, h⟩
      · cases (hnone h).1.symm.trans hok
    · rintro ⟨passed, line, rest, h⟩
      exact (hsome _ _ _ _ h).1
  · intro h
    exact ⟨(hnone h).1, (hnone h).2.input⟩
  · intro passed line rest n h
    have hrest := (hsome _ _ _ _ h).2
    refine ⟨hrest.input, fun charts => ?_⟩
    intro second
    have hsecond : second = charts.mapM askName first.2 := rfl
    constructor
    · intro hlength
      obtain ⟨u, hnames, hleft⟩ := names_of_lines hrest hlength
      rw [hsecond, hnames]
      exact ⟨rfl, hleft.input⟩
    · intro hlength
      obtain ⟨chart, u, hchart, hnames, hleft⟩ := names_of_too_few hrest hlength
      rw [hsecond, hnames]
      exact ⟨hleft.input, chart, hchart, rfl⟩

/-- Two answers that will not do are passed over, and the last name has no line break. -/
theorem answers_line_by_line_retried :
    let lines := Text.brokenLines "1:30\n\n  +090 \n0.aff\n 2.aff"
    let first := (prompter none).previewStart
      { input := Utf8.encode "1:30\n\n  +090 \n0.aff\n 2.aff", output := [] }
    let second := (prompter none).chartNames ["a.aff", "b.aff"] first.2
    FirstStart lines ["1:30\n", "\n"] "  +090 \n" ["0.aff\n", " 2.aff"] 90 ∧ first.1 = .ok 90 ∧
      second.1 = .ok ["0.aff".toList, "2.aff".toList] ∧ second.2.input = [] := by
  intro lines first second
  have hpassed : ∀ l ∈ (["1:30\n", "\n"] : List Text),
      Numeral.readBelow? (2 ^ 32) (Text.trim isBlank l) = none := by
    decide
  have hfirst : FirstStart lines ["1:30\n", "\n"] "  +090 \n" ["0.aff\n", " 2.aff"] 90 := by
    refine ⟨by decide, fun l hl m hm => ?_, readBelow?_eq_some_iff.mp (by decide)⟩
    rw [← readBelow?_eq_some_iff, hpassed l hl] at hm
    cases hm
  obtain ⟨-, hok, -, hnames⟩ := answers_line_by_line "1:30\n\n  +090 \n0.aff\n 2.aff" []
  obtain ⟨hsecond, hinput⟩ := ((hnames _ _ _ _ hfirst).2 ["a.aff", "b.aff"]).1 (by decide)
  exact ⟨hfirst, (hok 90).mpr ⟨_, _, _, hfirst⟩, hsecond, hinput⟩

end Terminal
end ChartPackage
