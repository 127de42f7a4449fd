import ChartPackage.Number.Numeral
import ChartPackage.Number.Power

/-!
The command line. Words are read from left to right, and the first that asks for help or for the
version or breaks a rule decides. A word that starts with a dash is an option, but for a dash
alone; behind a double dash nothing is. A value may be joined to its option; as a word of its own
it must not look like an option.
-/

namespace ChartPackage.Console

open scoped Power

structure Options where
  settings : Option Text := none
  outputFolder : Option Text := none
  encoder : Option Text := none
  previewStart : Option Nat := none
  keepPackage : Bool := false
  deriving DecidableEq

structure Request extends Options where
  package : Text
  deriving DecidableEq

/-- A request as far as it has been read. -/
structure Draft extends Options where
  package : Option Text := none
  deriving DecidableEq

inductive Stop where
  | help
  | version
  | misuse
  deriving DecidableEq

/-- Variables of the environment that stand in for options. -/
structure Environment where
  settings : Option Text := none
  encoder : Option Text := none
  deriving DecidableEq

/-- Options that take a value. -/
inductive Setting where
  | settings
  | outputFolder
  | encoder
  | previewStart
  deriving DecidableEq

/-- Options that stand alone. -/
inductive Switch where
  | keepPackage
  | help
  | version
  deriving DecidableEq

def longSetting? (name : Text) : Option Setting :=
  if name = "config".toList then some .settings
  else if name = "output-dir".toList then some .outputFolder
  else if name = "ffmpeg".toList then some .encoder
  else if name = "preview-start".toList then some .previewStart
  else none

def longSwitch? (name : Text) : Option Switch :=
  if name = "keep-package".toList then some .keepPackage
  else if name = "help".toList then some .help
  else if name = "version".toList then some .version
  else none

def shortSetting? : Char → Option Setting
  | 'c' => some .settings
  | 'o' => some .outputFolder
  | 'p' => some .previewStart
  | _ => none

def shortSwitch? : Char → Option Switch
  | 'h' => some .help
  | 'V' => some .version
  | _ => none

def seconds? : Text → Option Nat
  | '-' :: digits =>
      if digits ≠ [] ∧ digits.all Char.isDigit ∧ Numeral.value digits = 0 then some 0 else none
  | t => Numeral.readBelow? (2 ^ (32 : Nat)) t

def onlyPath (before : Option Text) (value : Text) : Except Stop (Option Text) :=
  if before.isSome ∨ value = [] then .error .misuse else .ok (some value)

def Setting.take (d : Draft) (value : Text) : Setting → Except Stop Draft
  | settings => return { d with settings := ← onlyPath d.settings value }
  | outputFolder => return { d with outputFolder := ← onlyPath d.outputFolder value }
  | encoder => return { d with encoder := ← onlyPath d.encoder value }
  | previewStart =>
      match d.previewStart, seconds? value with
      | none, some start => .ok { d with previewStart := some start }
      | _, _ => .error .misuse

def Switch.take (d : Draft) : Switch → Except Stop Draft
  | keepPackage => if d.keepPackage then .error .misuse else .ok { d with keepPackage := true }
  | help => .error .help
  | version => .error .version

def takePackage (d : Draft) (word : Text) : Except Stop Draft :=
  return { d with package := ← onlyPath d.package word }

def isOption (word : Text) : Bool := word.head? == some '-' && word != ['-']

/-- Takes the letters behind a single dash. If the last is an option without a value, it waits for
the next word. -/
def takeLetters (d : Draft) : Text → Except Stop (Draft × Option Setting)
  | [] => .ok (d, none)
  | c :: letters =>
      match shortSwitch? c, shortSetting? c with
      | some switch, _ => do takeLetters (← switch.take d) letters
      | none, some setting =>
          match letters with
          | [] => .ok (d, some setting)
          | '=' :: value | value => do return (← setting.take d value, none)
      | none, none => .error .misuse

/-- Takes what stands behind a double dash: a name, with its value behind an equals sign. -/
def takeLong (d : Draft) (word : Text) : Except Stop (Draft × Option Setting) :=
  let (name, value) := match Text.cut? ['='] word with
    | some (name, value) => (name, some value)
    | none => (word, none)
  match longSwitch? name, longSetting? name, value with
  | some switch, _, none => do return (← switch.take d, none)
  | _, some setting, some value => do return (← setting.take d value, none)
  | _, some setting, none => .ok (d, some setting)
  | _, _, _ => .error .misuse

def takeWords (d : Draft) : List Text → Except Stop Draft
  | [] => .ok d
  | word :: words =>
      if word = ['-', '-'] then words.foldlM takePackage d
      else if isOption word then do
        let (d, waiting) ← match Text.dropLead? ['-', '-'] word with
          | some word => takeLong d word
          | none => takeLetters d (word.drop 1)
        match waiting, words with
        | none, words => takeWords d words
        | some _, [] => .error .misuse
        | some setting, value :: words =>
            if isOption value then .error .misuse else do takeWords (← setting.take d value) words
      else do takeWords (← takePackage d word) words

def orVariable (given fallback : Option Text) : Except Stop (Option Text) :=
  match given, fallback with
  | none, some value => onlyPath none value
  | given, _ => .ok given

def Request.parse (env : Environment) (words : List Text) : Except Stop Request := do
  let d ← takeWords {} words
  let settings ← orVariable d.settings env.settings
  let encoder ← orVariable d.encoder env.encoder
  match d.package with
  | some package => return { d with package, settings, encoder }
  | none => .error .misuse

end ChartPackage.Console
