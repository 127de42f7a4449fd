import ChartPackage.Number.Leading
import ChartPackage.Song.Descriptor
import ChartPackage.Song.Id
import ChartPackage.Song.Rating

/-!
The entry of a song in the game's song list, and how it is made from the descriptor of a project.
-/

namespace ChartPackage

/-- The name to search by, for each of two languages. -/
structure SearchNames where
  ja : Text
  ko : Text
  deriving DecidableEq

def SearchNames.same (name : Text) : SearchNames := ⟨name, name⟩

structure Difficulty where
  ratingClass : RatingClass
  chartDesigner : Text
  jacketDesigner : Text
  rating : Option UInt64
  ratingPlus : Option Bool
  deriving DecidableEq

structure SongEntry where
  index : UInt32
  id : Text
  title : Text
  artist : Text
  searchTitle : SearchNames
  searchArtist : SearchNames
  bpm : Text
  /-- Not a number if the descriptor's is none. -/
  bpmBase : Binary64
  set : Text
  purchase : Text
  audioPreview : UInt32
  audioPreviewEnd : UInt32
  side : UInt32
  background : Text
  backgroundInverse : Text
  remoteDownload : Bool
  worldUnlock : Bool
  /-- Seconds since 1970. -/
  date : Int64
  version : Text
  difficulties : List Difficulty
  deriving DecidableEq

namespace SongEntry

/-- The descriptor keys an entry is made from, in the order they are asked for. -/
def requiredKeys : List Text :=
  ["title", "composer", "difficulty", "charter", "illustrator", "bpmText", "baseBpm"]

/-- The entry of the song in a project folder. The three difficulties differ in their class only. -/
def ofDescriptor (d : Descriptor) (folder : Text) (date : Int64) : Except Fault SongEntry := do
  let title ← d.require "title"
  let composer ← d.require "composer"
  let difficulty ← d.require "difficulty"
  let charter ← d.require "charter"
  let illustrator ← d.require "illustrator"
  let bpmText ← d.require "bpmText"
  let baseBpm ← d.require "baseBpm"
  let rating := Rating.parse difficulty
  return {
    index := 0
    id := songId folder
    title
    artist := composer
    searchTitle := .same title
    searchArtist := .same composer
    bpm := bpmText
    bpmBase := (Leading.read? baseBpm).getD .nan
    set := "custom"
    purchase := folder
    audioPreview := 0
    audioPreviewEnd := 0
    side := 0
    background := []
    backgroundInverse := []
    remoteDownload := true
    worldUnlock := false
    date
    version := []
    difficulties := RatingClass.all.map fun ratingClass => {
      ratingClass
      chartDesigner := charter
      jacketDesigner := illustrator
      rating := rating.level
      ratingPlus := if rating.plus then some true else none } }

end SongEntry
end ChartPackage
