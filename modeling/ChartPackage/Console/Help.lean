import ChartPackage.Console.Arguments
import ChartPackage.Console.Sequence
import ChartPackage.Text.Style

/-!
The help text and the version. The help shows the variables of the environment as they are set; its
option names are bold, and like all control sequences those of the names and of the variables are
dropped where they are printed.
-/

namespace ChartPackage.Console

open Style

def versionText : Text := "arcpkg 0.2.0\n"

def explanationColumn : Nat := 33

/-- A variable as it is set, its lines one below the other. -/
def variableNote (name : Text) (value : Option Text) : Text :=
  let indent := List.replicate explanationColumn ' '
  let lines := ('\n' :: indent).intercalate (Text.lines (value.getD []))
  Text.phrase ["[env: ", name, "=", lines, "]"]

def optionHelp (letter : Option Char) (name takes : Text) (purpose : Text) : Text :=
  let lead : Text := match letter with
    | some c => bold ['-', c] ++ ", ".toList
    | none => "    "
  let width := explanationColumn - 6
  let padding := List.replicate (width - (name ++ takes).length) ' '
  Text.phrase ["  ", lead, bold name, takes, padding, purpose]

def styledHelp (env : Environment) : Text :=
  Text.unlines [
    "Convert an .arcpkg chart package into game-ready song folders",
    "",
    "Usage: arcpkg [OPTIONS] <PACKAGE>",
    "",
    "Arguments:",
    "  <PACKAGE>  Package to convert",
    "",
    "Options:",
    optionHelp (some 'c') "--config" " <FILE>"
      ("Pipeline settings (TOML) ".toList ++ variableNote "ARCPKG_CONFIG" env.settings),
    optionHelp (some 'o') "--output-dir" " <DIR>"
      "Where to create the output folders (default: next to the package)",
    optionHelp none "--ffmpeg" " <PATH>"
      ("ffmpeg executable ".toList ++ variableNote "ARCPKG_FFMPEG" env.encoder),
    optionHelp (some 'p') "--preview-start" " <SECONDS>"
      "Preview start in seconds (skips the prompt)",
    optionHelp none "--keep-package" [] "Copy the package instead of consuming it",
    optionHelp (some 'h') "--help" [] "Print help",
    optionHelp (some 'V') "--version" [] "Print version",
    ""]

def helpText (env : Environment) : Text := plain (styledHelp env)

end ChartPackage.Console
