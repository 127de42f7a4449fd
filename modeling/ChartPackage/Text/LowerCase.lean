import ChartPackage.Text.Basic
import ChartPackage.Text.CaseTable

/-!
Lower case after the full Unicode rules. A capital sigma becomes final sigma at the end of a word,
all other characters have one lower-case form wherever they stand.
-/

namespace ChartPackage
namespace LowerCase

def inRanges (ranges : List (Nat × Nat)) (c : Char) : Bool :=
  ranges.any fun (first, last) => first ≤ c.toNat && c.toNat ≤ last

def isIgnorable (c : Char) : Bool := inRanges CaseTable.ignorable c

def isCased (c : Char) : Bool := inRanges CaseTable.cased c

/-- The distance to the lower-case form of a character that has a single one of its own. -/
def shift? (c : Char) : Option Int :=
  CaseTable.lowerRuns.findSome? fun (first, last, step, distance) =>
    if first ≤ c.toNat ∧ c.toNat ≤ last ∧ (c.toNat - first) % step = 0 then some distance else none

def char (c : Char) : Text :=
  if c = 'İ' then ['i', '\u0307']
  else match shift? c with
    | some distance => [Char.ofNat ((c.toNat : Int) + distance).toNat]
    | none => [c]

/-- Whether the first character that is not case-ignorable is cased. -/
def meetsCased (t : Text) : Bool :=
  match t.dropWhile isIgnorable with
  | c :: _ => isCased c
  | [] => false

/-- The rest of a text in lower case; `before` is the text in front of it, backwards. -/
def after (before : Text) : Text → Text
  | [] => []
  | c :: rest =>
      (if c = 'Σ' then [if meetsCased before && !meetsCased rest then 'ς' else 'σ'] else char c) ++
        after (c :: before) rest

end LowerCase

def Text.lowerCase (t : Text) : Text := LowerCase.after [] t

end ChartPackage
