import ChartPackage.Crew
import ChartPackage.Number.Power
import ChartPackage.Text.Blank

/-!
Questions on a terminal. A question is printed on a line of its own and takes one line of the
input as its answer, without the blanks around it; a last line without a line break counts.
-/

namespace ChartPackage

open scoped Power

structure Terminal where
  /-- The input that no question has taken yet. -/
  input : List UInt8
  output : Text
  deriving DecidableEq

namespace Terminal

def say (line : Text) (t : Terminal) : Terminal := { t with output := t.output ++ line ++ ['\n'] }

def cutLine (input : List UInt8) : List UInt8 × List UInt8 :=
  (input.takeWhile (· ≠ 10), (input.dropWhile (· ≠ 10)).drop 1)

theorem length_cutLine_lt {input : List UInt8} (h : input ≠ []) :
    (cutLine input).2.length < input.length := by
  cases input with
  | nil => exact absurd rfl h
  | cons b input =>
      have := (List.dropWhile_sublist (fun b : UInt8 => decide (b ≠ 10)) (l := input)).length_le
      by_cases hb : b = 10
      · simp [cutLine, hb]
      · simp [cutLine, hb] at this ⊢
        omega

/-- Asks a question. A line that is no text is used up all the same. -/
def ask (question : Text) (t : Terminal) : Except Fault Text × Terminal :=
  if t.input = [] then
    (.error (.prompt (Text.phrase ["no answer to '", question, "'"])), t.say question)
  else
    let (line, rest) := cutLine t.input
    let asked := { t.say question with input := rest }
    match Utf8.decode? line with
    | some answer => (.ok (Text.trim isBlank answer), asked)
    | none => (.error (.disk .notText), asked)

theorem length_input_ask_lt {question answer : Text} {t u : Terminal}
    (h : ask question t = (.ok answer, u)) : u.input.length < t.input.length := by
  unfold ask at h
  split at h
  · cases h
  · next hne =>
      have := length_cutLine_lt hne
      simp only at h
      split at h <;> cases h
      exact this

def startQuestion : Text :=
  "Enter start time for preview: (Should only be numbers. ex: Enter 90 for 1:30.)"

def askStart (t : Terminal) : Except Fault Nat × Terminal :=
  match _asked : ask startQuestion t with
  | (.error e, u) => (.error e, u)
  | (.ok answer, u) =>
      match Numeral.readBelow? (2 ^ (32 : Nat)) answer with
      | some start => (.ok start, u)
      | none => askStart (u.say (Text.phrase ["'", answer, "' is not a whole number of seconds"]))
  termination_by t.input.length
  decreasing_by
    have := length_input_ask_lt _asked
    exact this

def askName (chart : Text) : Chore Terminal Text :=
  ask (Text.phrase ["Enter new name for ", chart, ":"])

/-- Answers from a terminal; a start that is given beforehand is not asked for. -/
def prompter (start : Option Nat) : Prompter Terminal where
  previewStart := match start with
    | some start => pure start
    | none => askStart
  chartNames charts := charts.mapM askName
  notify message t := ((), t.say message)

end Terminal

namespace Prompter

/-- Answers that are given beforehand, for runs that nobody attends. -/
def fixed (start : Nat) (names : Option (List Text)) : Prompter σ where
  previewStart := pure start
  chartNames charts :=
    let found := Text.phrase [Numeral.ofNat charts.length, " chart files found "]
    match names with
    | none =>
        throw (.prompt
          (Text.phrase [found, "and no names configured: ", ", ".toList.intercalate charts]))
    | some names =>
        if names.length = charts.length then pure names
        else
          throw (.prompt
            (Text.phrase [found, "but ", Numeral.ofNat names.length, " names configured"]))
  notify _ := pure ()

/-- A prompter whose state is a part of a larger one. -/
def within (get : τ → σ) (set : σ → τ → τ) (p : Prompter σ) : Prompter τ where
  previewStart := part p.previewStart
  chartNames charts := part (p.chartNames charts)
  notify message := part (p.notify message)
where
  part {α : Type} (act : StateM σ α) : StateM τ α := fun t =>
    let (result, s) := act (get t)
    (result, set s t)

end Prompter
end ChartPackage
