import ChartPackage.Number.Numeral

/-!
The preview clip that is cut out of a track, and the arguments that ask an encoder for a clip or
for a whole track in another format.
-/

namespace ChartPackage

/-- A part of a track that fades in and out; all in seconds. -/
structure Clip where
  start : Nat
  length : Nat
  fade : Nat
  deriving DecidableEq

namespace Clip

def fadeOutStart (c : Clip) : Nat := c.length - c.fade

def filters (c : Clip) : Text :=
  let fade := Numeral.ofNat c.fade
  Text.phrase ["afade=t=in:ss=0:d=", fade, ",afade=t=out:st=",
    Numeral.ofNat c.fadeOutStart, ":d=", fade]

end Clip

namespace Encoder

/-- What every run is told: overwrite files and report errors only. -/
def commonArguments : List Text := ["-y", "-hide_banner", "-loglevel", "error"]

def transcodeArguments (source target : Text) : List Text :=
  commonArguments ++ ["-i".toList, source, "-f".toList, "ogg".toList, target]

def clipArguments (source target : Text) (c : Clip) : List Text :=
  commonArguments ++
    ["-ss".toList, Numeral.ofNat c.start, "-i".toList, source, "-t".toList, Numeral.ofNat c.length,
      "-af".toList, c.filters, target]

end Encoder
end ChartPackage
