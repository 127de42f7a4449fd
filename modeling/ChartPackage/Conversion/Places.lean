import ChartPackage.Disk.Path

/-!
The names a conversion goes by: the places it works in, which follow from where the package lies,
and the files it looks for and makes.
-/

namespace ChartPackage.Conversion

def packageExtension : Text := ".arcpkg"

def descriptorName : Text := "project.arcproj"

def songListName : Text := "songlist"

def jacketName : Text := "1080_base.jpg"

def thumbnailName : Text := "1080_base_256.jpg"

def trackName : Text := "base.ogg"

def previewName : Text := "preview.ogg"

def chartExtension : Text := ".aff"

def downloadNames : List Text := [jacketName, thumbnailName, previewName]

def pictureExtensions : List Text := ["jpg", "png"]

def audioExtensions : List Text := ["mp3", "ogg"]

structure Places where
  package : Path
  /-- The package under the name of an archive. -/
  archive : Path
  workFolder : Path
  outputFolder : Path
  deriving DecidableEq

namespace Places

/-- The name of a package without its extension, unless nothing else is left of it. -/
def stem (name : Text) : Text :=
  match Text.dropTail? packageExtension name with
  | none | some [] => name
  | some stem => stem

/-- The folder a path lies in, as far as it is written. -/
def folderOf (p : Path) : Path :=
  match p.parent? with
  | none | some [] => ['.']
  | some folder => folder

def ofPackage (package : Path) (outputFolder : Option Path) : Places :=
  let folder := folderOf package
  let stem := stem (package.fileName?.getD [])
  { package
    archive := folder.join (stem ++ ".zip".toList)
    workFolder := folder.join ("extracted_".toList ++ stem)
    outputFolder := outputFolder.getD folder }

def downloadFolder (p : Places) (songId : Text) :
    Path := p.outputFolder.join ("dl_".toList ++ songId)

def contentFolder (p : Places) (songId : Text) : Path := p.outputFolder.join songId

end Places
end ChartPackage.Conversion
