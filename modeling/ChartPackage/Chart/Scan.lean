import ChartPackage.Text.Basic

/-!
Finding the statements of one kind in a chart. A scan reads from left to right; at each occurrence
of the kind's keyword it asks how long the statement there is, takes it if there is one, and goes
on one character further if there is none. The result is a tiling: statements with the text in
front of each, and the text after the last.
-/

namespace ChartPackage

inductive Verdict where
  | keep
  | replace (text : Text)
  | delete
  deriving DecidableEq

/-- The text that stands for a statement afterwards. -/
def Verdict.apply (statement : Text) : Verdict → Text
  | .keep => statement
  | .replace text => text
  | .delete => []

/-- A text cut into statements, each after the text in front of it, and a tail. -/
structure Tiling where
  parts : List (Text × Text)
  tail : Text
  deriving DecidableEq

namespace Tiling

def statements (t : Tiling) : List Text := t.parts.map (·.2)

def text (t : Tiling) : Text := t.parts.flatMap (fun (gap, statement) => gap ++ statement) ++ t.tail

/-- The text with each statement turned into what its verdict makes of it. -/
def judged (verdict : Text → Verdict) (t : Tiling) : Text :=
  t.parts.flatMap (fun (gap, statement) => gap ++ (verdict statement).apply statement) ++ t.tail

def count (verdict : Text → Verdict) (sort : Verdict → Bool) (t : Tiling) : Nat :=
  t.statements.countP fun statement => sort (verdict statement)

def push (c : Char) : Tiling → Tiling
  | ⟨[], tail⟩ => ⟨[], c :: tail⟩
  | ⟨(gap, statement) :: parts, tail⟩ => ⟨(c :: gap, statement) :: parts, tail⟩

def cons (statement : Text) (t : Tiling) : Tiling := ⟨([], statement) :: t.parts, t.tail⟩

theorem text_push (c : Char) (t : Tiling) : (t.push c).text = c :: t.text := by
  obtain ⟨_ | ⟨_, _⟩, _⟩ := t <;> simp [push, text]

theorem text_cons (statement : Text) (t : Tiling) :
    (t.cons statement).text = statement ++ t.text := by
  simp [cons, text]

end Tiling

/-- The tiling of a text by the statements that start with `keyword`. `extent` is told the text
from an occurrence of the keyword on and gives the length of the statement there. -/
def scan (keyword : Text) (extent : Text → Option Nat) : Text → Tiling
  | [] => ⟨[], []⟩
  | c :: rest =>
      match if keyword.isPrefixOf (c :: rest) then extent (c :: rest) else none with
      | some (n + 1) => (scan keyword extent (rest.drop n)).cons (c :: rest.take n)
      | _ => (scan keyword extent rest).push c
  termination_by t => t.length
  decreasing_by all_goals simp; try omega

/-- A scan neither loses nor adds nor moves a character. -/
theorem text_scan (keyword : Text) (extent : Text → Option Nat) (t : Text) :
    (scan keyword extent t).text = t := by
  fun_induction scan keyword extent t with
  | case1 => rfl
  | case2 c rest n h ih => simp [Tiling.text_cons, ih]
  | case3 c rest h ih => simp [Tiling.text_push, ih]

end ChartPackage
