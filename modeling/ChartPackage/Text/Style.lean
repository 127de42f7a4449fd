import ChartPackage.Text.Basic

/-!
Weights and colours of text on a terminal, switched on and off by codes around it.
-/

namespace ChartPackage.Style

def styled (on off : Text) (t : Text) : Text :=
  Text.phrase ["\x1b[", on, "m", t, "\x1b[", off, "m"]

def bold : Text → Text := styled "1" "0"
def dimmed : Text → Text := styled "2" "0"
def red : Text → Text := styled "31" "39"
def green : Text → Text := styled "32" "39"
def yellow : Text → Text := styled "33" "39"

end ChartPackage.Style
