import ChartPackage.Number.Numeral
import ChartPackage.Text.HiddenTable

/-!
Texts in double quotes. Quotes, backslashes and characters that do not show by themselves are
escaped, so that the quoted text shows all there is.
-/

namespace ChartPackage.Text

/-- A character that does not show by itself. -/
def isHidden (c : Char) : Bool :=
  HiddenTable.runs.any fun (first, last) => first ≤ c.toNat && c.toNat ≤ last

def escaped (c : Char) : Text :=
  if c = '\x00' then ['\\', '0']
  else if c = '\t' then ['\\', 't']
  else if c = '\n' then ['\\', 'n']
  else if c = '\r' then ['\\', 'r']
  else if c = '"' ∨ c = '\\' then ['\\', c]
  else if isHidden c then phrase ["\\u\x7b", Nat.toDigits 16 c.toNat, "\x7d"]
  else [c]

def quoted (t : Text) : Text := phrase ["\"", t.flatMap escaped, "\""]

end ChartPackage.Text
