import ChartPackage.Json.Decode
import ChartPackage.Json.Printer
import ChartPackage.Json.Reader
import ChartPackage.Song.Entry

/-!
Song-list files: an entry as JSON text, and the entry that a JSON text holds.
-/

namespace ChartPackage
open Json (member text nat)

def RatingClass.toJson (c : RatingClass) : Json := nat c.index

def RatingClass.ofJson? (j : Json) : Option RatingClass :=
  (Json.natBelow? 256 j).bind ofIndex?

namespace SearchNames

def toJson (s : SearchNames) : Json := .object [member "ja" (text s.ja), member "ko" (text s.ko)]

def ofJson? (j : Json) : Option SearchNames := do
  let [ja, ko] ← Json.fields? ["ja", "ko"] 0 j | none
  return { ja := ← Json.required? Json.text? ja, ko := ← Json.required? Json.text? ko }

end SearchNames

namespace Difficulty

def toJson (d : Difficulty) : Json :=
  .object ([
    member "ratingClass" d.ratingClass.toJson,
    member "chartDesigner" (text d.chartDesigner),
    member "jacketDesigner" (text d.jacketDesigner),
    member "rating" (match d.rating with
      | some level => nat level.toNat
      | none => .null)] ++
    match d.ratingPlus with
      | some plus => [member "ratingPlus" (.bool plus)]
      | none => [])

def ofJson? (j : Json) : Option Difficulty := do
  let names : List Text :=
    ["ratingClass", "chartDesigner", "jacketDesigner", "rating", "ratingPlus"]
  let [ratingClass, chartDesigner, jacketDesigner, rating, ratingPlus] ← Json.fields?
      names 1 j | none
  return {
    ratingClass := ← Json.required? RatingClass.ofJson? ratingClass
    chartDesigner := ← Json.required? Json.text? chartDesigner
    jacketDesigner := ← Json.required? Json.text? jacketDesigner
    rating := ← Json.optional? Json.uint64? rating
    ratingPlus := ← Json.optional? Json.bool? ratingPlus }

end Difficulty

namespace SongEntry

def titleToJson (title : Text) : Json := .object [member "en" (text title)]

def titleOfJson? (j : Json) : Option Text := do
  let [en] ← Json.fields? ["en"] 0 j | none
  Json.required? Json.text? en

def toJson (e : SongEntry) : Json :=
  .object [
    member "idx" (nat e.index.toNat),
    member "id" (text e.id),
    member "title_localized" (titleToJson e.title),
    member "artist" (text e.artist),
    member "search_title" e.searchTitle.toJson,
    member "search_artist" e.searchArtist.toJson,
    member "bpm" (text e.bpm),
    member "bpm_base" (Json.double e.bpmBase),
    member "set" (text e.set),
    member "purchase" (text e.purchase),
    member "audioPreview" (nat e.audioPreview.toNat),
    member "audioPreviewEnd" (nat e.audioPreviewEnd.toNat),
    member "side" (nat e.side.toNat),
    member "bg" (text e.background),
    member "bg_inverse" (text e.backgroundInverse),
    member "remote_dl" (.bool e.remoteDownload),
    member "world_unlock" (.bool e.worldUnlock),
    member "date" (Json.int e.date.toInt),
    member "version" (text e.version),
    member "difficulties" (.array (e.difficulties.map Difficulty.toJson))]

def fieldNames : List Text :=
  ["idx", "id", "title_localized", "artist", "search_title", "search_artist", "bpm", "bpm_base",
    "set", "purchase", "audioPreview", "audioPreviewEnd", "side", "bg", "bg_inverse", "remote_dl",
    "world_unlock", "date", "version", "difficulties"]

def ofJson? (j : Json) : Option SongEntry := do
  let [index, id, title, artist, searchTitle, searchArtist, bpm, bpmBase, set, purchase,
    audioPreview, audioPreviewEnd, side, background, backgroundInverse, remoteDownload,
    worldUnlock, date, version, difficulties] ← Json.fields? fieldNames 0 j | none
  return {
    index := ← Json.required? Json.uint32? index
    id := ← Json.required? Json.text? id
    title := ← Json.required? titleOfJson? title
    artist := ← Json.required? Json.text? artist
    searchTitle := ← Json.required? SearchNames.ofJson? searchTitle
    searchArtist := ← Json.required? SearchNames.ofJson? searchArtist
    bpm := ← Json.required? Json.text? bpm
    bpmBase := (← Json.required? (Json.nullable? Json.double?) bpmBase).getD .nan
    set := ← Json.required? Json.text? set
    purchase := ← Json.required? Json.text? purchase
    audioPreview := ← Json.required? Json.uint32? audioPreview
    audioPreviewEnd := ← Json.required? Json.uint32? audioPreviewEnd
    side := ← Json.required? Json.uint32? side
    background := ← Json.required? Json.text? background
    backgroundInverse := ← Json.required? Json.text? backgroundInverse
    remoteDownload := ← Json.required? Json.bool? remoteDownload
    worldUnlock := ← Json.required? Json.bool? worldUnlock
    date := ← Json.required? Json.int64? date
    version := ← Json.required? Json.text? version
    difficulties := ← Json.required? (Json.list? Difficulty.ofJson?) difficulties }

/-- The text of a song-list file with this entry. -/
def render (e : SongEntry) : Text := e.toJson.render 0

def parse (t : Text) : Except Fault SongEntry :=
  match (Json.parse? t).bind ofJson? with
  | some e => .ok e
  | none => .error (.json "not a song-list entry")

end SongEntry
end ChartPackage
