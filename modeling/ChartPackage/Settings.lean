import ChartPackage.Fault
import ChartPackage.Number.Power
import ChartPackage.Toml.Reader

/-!
The settings of a conversion and the file they are read from. A key that is missing keeps its
default and an unknown one is ignored; the fades of the preview are checked before the sizes.
-/

namespace ChartPackage

open scoped Power

/-- Lengths are in seconds, sizes in pixels. -/
structure Settings where
  /-- Where the song folders are made; next to the package if there is none. -/
  outputFolder : Option Text := none
  keepPackage : Bool := false
  encoder : Text := "ffmpeg"
  previewLength : Nat := 20
  fadeLength : Nat := 1
  jacketSize : Nat := 768
  thumbnailSize : Nat := 384
  deriving DecidableEq

namespace Settings

def text? : Toml → Option Text
  | .string t => some t
  | _ => none

def bool? : Toml → Option Bool
  | .boolean b => some b
  | _ => none

/-- A length or size, which has at most 32 bits. -/
def size? : Toml → Option Nat
  | .integer n => if 0 ≤ n ∧ n < 2 ^ (32 : Nat) then some n.toNat else none
  | _ => none

/-- The value of a key, of the kind that `read?` reads, or else its default. -/
def entry? (entries : Toml.Entries) (key : Text) (read? : Toml → Option α) (default : α) :
    Option α :=
  match entries.lookup key with
  | none => some default
  | some value => read? value

def ofEntries? (entries : Toml.Entries) : Option Settings := do
  let usual : Settings := {}
  return {
    outputFolder := ← entry? entries "output_dir" (fun v => (text? v).map some) usual.outputFolder
    keepPackage := ← entry? entries "keep_package" bool? usual.keepPackage
    encoder := ← entry? entries "ffmpeg" text? usual.encoder
    previewLength := ← entry? entries "preview_duration_secs" size? usual.previewLength
    fadeLength := ← entry? entries "preview_fade_secs" size? usual.fadeLength
    jacketSize := ← entry? entries "jacket_size" size? usual.jacketSize
    thumbnailSize := ← entry? entries "thumbnail_size" size? usual.thumbnailSize }

def check (s : Settings) : Except SettingsFault Settings :=
  if s.previewLength < s.fadeLength * 2 then .error (.fadesTooLong s.fadeLength s.previewLength)
  else if s.jacketSize = 0 ∨ s.thumbnailSize = 0 then .error .emptySize
  else .ok s

def parse (t : Text) : Except Fault Settings :=
  match (Toml.parse? t).bind ofEntries? with
  | none => .error (.settings .malformed)
  | some s => s.check.mapError .settings

end Settings
end ChartPackage
