import ChartPackage.Number.Numeral

/-!
Control characters that would act on a terminal, written so that they show instead: the bell, the
backspace, the form feed, the escape, the delete and the upper controls.
-/

namespace ChartPackage.Console

/-- Whether a character acts on a terminal in ways that a record must not. -/
def isActive (c : Char) : Bool :=
  c == '\x07' || c == '\x08' || c == '\x0C' || c == '\x1B' || (0x7F ≤ c.toNat && c.toNat ≤ 0x9F)

def shownInRecord (c : Char) : Text :=
  let digits := Numeral.padLeft 2 (Nat.toDigits 16 c.toNat)
  if !isActive c then [c]
  else if c.toNat < 0x80 then '\\' :: 'x' :: digits
  else Text.phrase ["\\u\x7b", digits, "\x7d"]

def shown (t : Text) : Text := t.flatMap shownInRecord

end ChartPackage.Console
