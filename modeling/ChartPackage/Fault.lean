import ChartPackage.Number.Numeral

/-!
What can go wrong, by cause, with the one wording of each cause, its class and the exit code of
the class.
-/

namespace ChartPackage

/-- Refusals of the operating system. `other` is a refusal known by its wording only. -/
inductive DiskFault where
  | notFound
  | argumentTooLong
  | denied
  | busy
  | exists
  | crossDevice
  | notDirectory
  | isDirectory
  | invalid
  | nameTooLong
  | notEmpty
  | tooManyLinks
  | notText
  | nulInPath
  | notRegular
  | other (text : Text)
  deriving DecidableEq

def DiskFault.message : DiskFault → Text
  | .notFound => "No such file or directory (os error 2)"
  | .argumentTooLong => "Argument list too long (os error 7)"
  | .denied => "Permission denied (os error 13)"
  | .busy => "Device or resource busy (os error 16)"
  | .exists => "File exists (os error 17)"
  | .crossDevice => "Invalid cross-device link (os error 18)"
  | .notDirectory => "Not a directory (os error 20)"
  | .isDirectory => "Is a directory (os error 21)"
  | .invalid => "Invalid argument (os error 22)"
  | .nameTooLong => "File name too long (os error 36)"
  | .notEmpty => "Directory not empty (os error 39)"
  | .tooManyLinks => "Too many levels of symbolic links (os error 40)"
  | .notText => "stream did not contain valid UTF-8"
  | .nulInPath => "file name contained an unexpected NUL byte"
  | .notRegular => "the source path is neither a regular file nor a symlink to a regular file"
  | .other text => text

inductive ArchiveFault where
  | invalid (reason : Text)
  | disk (cause : DiskFault)
  deriving DecidableEq

def ArchiveFault.message : ArchiveFault → Text
  | .invalid reason => Text.phrase ["invalid Zip archive: ", reason]
  | .disk cause => Text.phrase ["i/o error: ", cause.message]

/-- What makes settings unusable. `malformed` is a text that is no settings file at all. -/
inductive SettingsFault where
  | malformed
  | fadesTooLong (fade duration : Nat)
  | emptySize
  | other (text : Text)
  deriving DecidableEq

def SettingsFault.message : SettingsFault → Text
  | .malformed => "not a valid settings file"
  | .fadesTooLong fade duration =>
      Text.phrase ["preview fades (", Numeral.ofNat fade, "s each) do not fit in a ",
        Numeral.ofNat duration, "s clip"]
  | .emptySize => "jacket sizes must be non-zero"
  | .other text => text

inductive Fault where
  | noProject (extracted : Text)
  | noDescriptor (folder : Text)
  | emptySongId (folder : Text)
  | missingKey (key : Text)
  | noChart (folder : Text)
  | renameRefused (chart name reason : Text)
  | transcoding (target reason : Text)
  | preview (reason : Text)
  | noAudio (track : Text)
  | image (reason : Text)
  | archive (cause : ArchiveFault)
  | settings (cause : SettingsFault)
  | prompt (reason : Text)
  | disk (cause : DiskFault)
  | json (reason : Text)
  deriving DecidableEq

inductive FaultKind where
  | structural
  | media
  | input
  | storage
  deriving DecidableEq

def FaultKind.exitCode : FaultKind → Nat
  | .structural => 2
  | .media => 3
  | .input => 4
  | .storage => 5

namespace Fault

def kind : Fault → FaultKind
  | noProject _ | noDescriptor _ | emptySongId _ | missingKey _ | noChart _ | archive _ =>
    .structural
  | transcoding .. | preview _ | noAudio _ | image _ => .media
  | renameRefused .. | settings _ | prompt _ => .input
  | disk _ | json _ => .storage

def message : Fault → Text
  | noProject extracted =>
      Text.phrase ["Unexpected file structure in ", extracted, " (is this a valid .arcpkg file?)"]
  | noDescriptor folder =>
      Text.phrase ["'project.arcproj' not found in ", folder, " (is this a valid .arcpkg file?)"]
  | emptySongId folder => Text.phrase ["Folder name '", folder, "' yields an empty song id"]
  | missingKey key => Text.phrase ["Descriptor is missing required key '", key, "'"]
  | noChart folder => Text.phrase ["No .aff files found in ", folder]
  | renameRefused chart name reason =>
      Text.phrase ["Failed to rename chart '", chart, "' to '", name, "': ", reason]
  | transcoding target reason => Text.phrase ["Failed generating '", target, "': ", reason]
  | preview reason => Text.phrase ["Failed generating 'preview.ogg': ", reason]
  | noAudio track => Text.phrase ["'", track, "' not found, cannot generate preview"]
  | image reason => Text.phrase ["Image error: ", reason]
  | archive cause => Text.phrase ["Archive error: ", cause.message]
  | settings cause => Text.phrase ["Config parse error: ", cause.message]
  | prompt reason => Text.phrase ["Prompt error: ", reason]
  | disk cause => Text.phrase ["IO error: ", cause.message]
  | json reason => Text.phrase ["JSON error: ", reason]

/-- The wordings of the errors that this one passes on, from the outside in. -/
def causes : Fault → List Text
  | image reason | json reason => [reason]
  | archive (.disk cause) => [(ArchiveFault.disk cause).message, cause.message]
  | archive cause => [cause.message]
  | disk cause => [cause.message]
  | _ => []

end Fault
end ChartPackage
