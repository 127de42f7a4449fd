import Mathlib
import ChartPackage.Proofs.Json.Decoding
import ChartPackage.Proofs.Json.Doubles
import ChartPackage.Song.List

/-!
Song-list files are read back: an entry is found in its text field by field, and all of it but the
tempo is as it was written.
-/

namespace ChartPackage
open Json (Readable record text nat)

/-! ### The parts of an entry -/

theorem RatingClass.ofJson?_toJson (c : RatingClass) : ofJson? c.toJson = some c := by
  have hbound : c.index < 256 := by
    cases c
    all_goals decide
  rw [ofJson?, toJson, Json.natBelow?_nat hbound, Option.bind_some, ofIndex?_index]

namespace SearchNames

theorem toJson_eq (s : SearchNames) : s.toJson = record ["ja", "ko"] [text s.ja, text s.ko] := rfl

theorem readable_toJson (s : SearchNames) : Readable s.toJson := by
  rw [toJson_eq]
  refine Json.readable_record _ ?_
  simp only [List.forall_mem_cons, List.not_mem_nil, false_imp_iff, implies_true, and_true]
  exact ⟨.text _, .text _⟩

theorem ofJson?_toJson (s : SearchNames) : ofJson? s.toJson = some s := by
  rw [toJson_eq, ofJson?, Json.fields?_whole rfl (by decide)]
  rfl

end SearchNames

namespace SongEntry

theorem readable_titleToJson (title : Text) : Readable (titleToJson title) := by
  refine @Json.readable_record ["en"] [text title] ?_
  simpa using Readable.text title

theorem titleOfJson?_titleToJson (title : Text) :
    titleOfJson? (titleToJson title) = some title := by
  have hrecord : titleToJson title = record ["en"] [text title] := rfl
  rw [hrecord, titleOfJson?, Json.fields?_whole rfl (by decide)]
  rfl

end SongEntry

namespace Difficulty

/-- The fields that every difficulty is written with. -/
def commonNames : List Text := ["ratingClass", "chartDesigner", "jacketDesigner", "rating"]

def plusName : Text := "ratingPlus"

def ratingValue (d : Difficulty) : Json :=
  match d.rating with
  | some level => nat level.toNat
  | none => .null

def commonValues (d : Difficulty) : List Json :=
  [d.ratingClass.toJson, text d.chartDesigner, text d.jacketDesigner, d.ratingValue]

theorem toJson_eq (d : Difficulty) : d.toJson =
    match d.ratingPlus with
    | none => record commonNames d.commonValues
    | some plus => record (commonNames ++ [plusName]) (d.commonValues ++ [.bool plus]) := by
  rw [toJson]
  cases d.ratingPlus with
  | none => rfl
  | some plus => rfl

theorem readable_commonValues (d : Difficulty) : ∀ value ∈ d.commonValues, Readable value := by
  simp only [commonValues, List.forall_mem_cons, List.not_mem_nil, false_imp_iff,
    implies_true, and_true]
  refine ⟨Json.readable_int _, .text _, .text _, ?_⟩
  rw [ratingValue]
  cases d.rating with
  | none => exact .null
  | some level => exact Json.readable_int _

theorem readable_toJson (d : Difficulty) : Readable d.toJson := by
  rw [toJson_eq]
  cases d.ratingPlus with
  | none => exact Json.readable_record _ d.readable_commonValues
  | some plus =>
      refine Json.readable_record _ fun value hvalue => ?_
      cases List.mem_append.mp hvalue with
      | inl h => exact d.readable_commonValues value h
      | inr h => exact List.mem_singleton.mp h ▸ .bool plus

/-- Without the mark there is no field for it. -/
theorem fields?_toJson (d : Difficulty) : Json.fields? (commonNames ++ [plusName]) 1 d.toJson =
    some (d.commonValues.map some ++ [d.ratingPlus.map .bool]) := by
  rw [toJson_eq]
  cases d.ratingPlus with
  | none => exact Json.fields?_record rfl (by decide) 1
  | some plus =>
      dsimp only
      rw [Json.fields?_whole rfl (by decide), List.map_append]
      rfl

theorem optional?_rating (d : Difficulty) :
    Json.optional? Json.uint64? (some d.ratingValue) = some d.rating := by
  rw [ratingValue]
  cases d.rating with
  | none => rfl
  | some level =>
      change (Json.uint64? (nat level.toNat)).map some = _
      rw [Json.uint64?_nat, Option.map_some]

theorem optional?_ratingPlus (plus : Option Bool) :
    Json.optional? Json.bool? (plus.map .bool) = some plus := by
  cases plus with
  | none => rfl
  | some plus => rfl

theorem ofJson?_toJson (d : Difficulty) : ofJson? d.toJson = some d := by
  have hfields : Json.fields? ["ratingClass", "chartDesigner", "jacketDesigner", "rating",
      "ratingPlus"] 1 d.toJson = _ :=
    d.fields?_toJson
  unfold ofJson?
  dsimp only
  rw [hfields]
  change (RatingClass.ofJson? d.ratingClass.toJson).bind _ = _
  rw [RatingClass.ofJson?_toJson]
  change (Json.optional? Json.uint64? _).bind _ = _
  rw [optional?_rating]
  change (Json.optional? Json.bool? _).bind _ = _
  rw [optional?_ratingPlus]
  rfl

end Difficulty

namespace SongEntry

def values (e : SongEntry) : List Json :=
  [nat e.index.toNat, text e.id, titleToJson e.title, text e.artist, e.searchTitle.toJson,
    e.searchArtist.toJson,
    text e.bpm, Json.double e.bpmBase, text e.set, text e.purchase, nat e.audioPreview.toNat,
    nat e.audioPreviewEnd.toNat, nat e.side.toNat, text e.background, text e.backgroundInverse,
    .bool e.remoteDownload, .bool e.worldUnlock, Json.int e.date.toInt, text e.version,
    .array (e.difficulties.map Difficulty.toJson)]

theorem toJson_eq (e : SongEntry) : e.toJson = record fieldNames e.values := rfl

theorem readable_toJson (e : SongEntry) : Readable e.toJson := by
  have hdifficulties : ∀ j ∈ e.difficulties.map Difficulty.toJson, Readable j := by
    intro j hj
    obtain ⟨d, -, rfl⟩ := List.mem_map.mp hj
    exact d.readable_toJson
  rw [toJson_eq]
  refine Json.readable_record _ ?_
  simp only [values, List.forall_mem_cons, List.not_mem_nil, false_imp_iff, implies_true, and_true]
  exact ⟨Json.readable_int _, .text _, readable_titleToJson _, .text _,
    e.searchTitle.readable_toJson,
    e.searchArtist.readable_toJson, .text _, Json.readable_double _, .text _, .text _,
      Json.readable_int _,
    Json.readable_int _, Json.readable_int _, .text _, .text _, .bool _, .bool _,
      Json.readable_int _, .text _,
    .array hdifficulties⟩

/-- All of an entry is found in its JSON, the tempo as numbers of its kind are read. -/
theorem ofJson?_toJson (e : SongEntry) :
    ofJson? e.toJson = (Json.reread? e.bpmBase).map fun b => { e with bpmBase := b } := by
  rw [toJson_eq]
  unfold ofJson?
  rw [Json.fields?_whole rfl (by decide)]
  change (Json.uint32? (nat e.index.toNat)).bind _ = _
  simp only [Option.bind_eq_bind, Option.bind_some, Json.required?_some, Json.uint32?_nat,
    Json.text?_text,
    titleOfJson?_titleToJson, SearchNames.ofJson?_toJson, Json.bool?_bool, Json.int64?_int,
    Json.list?_map Difficulty.ofJson?_toJson]
  rw [Json.reread?, Option.map_map, Option.map_eq_bind]
  rfl

/-- All of an entry is found in its text, the tempo as numbers of its kind are read. -/
theorem parse_render (e : SongEntry) : parse e.render =
    (Json.reread? e.bpmBase).elim (.error (.json "not a song-list entry")) fun b =>
      .ok { e with bpmBase := b } := by
  rw [parse, render, Json.parse?_render e.readable_toJson, Option.bind_some, ofJson?_toJson]
  cases Json.reread? e.bpmBase with
  | none => rfl
  | some b => rfl

/-- The entry as its text tells it: the tempo may be no number, but then nothing else. -/
def numeric (e : SongEntry) : SongEntry := { e with bpmBase := e.bpmBase.numeric }

theorem render_numeric (e : SongEntry) : e.numeric.render = e.render := by
  rw [render, toJson_eq, render, toJson_eq]
  simp only [values, numeric, Json.double_numeric]

/-- What is loaded of an entry differs from it in the tempo at most. It is the entry, and has its
text, just if the tempo is read back, which all tempos of brief decimals are. -/
theorem parse_render_eq_iff (e : SongEntry) :
    (∀ e', parse e.render = .ok e' → e' = { e with bpmBase := e'.bpmBase }) ∧
      ((∃ e', parse e.render = .ok e' ∧ e' = e.numeric ∧ e'.render = e.render) ↔
        Json.Restored e.bpmBase) ∧
      ((∀ negative units representable, e.bpmBase = .finite negative units representable →
        Json.Brief (Shortest.ofUnits units)) → Json.Restored e.bpmBase) := by
  have hparse := e.parse_render
  refine ⟨?_, ?_, Json.restored_of_brief⟩
  · intro e' he
    rw [hparse] at he
    cases hread : Json.reread? e.bpmBase with
    | none => rw [hread] at he; cases he
    | some b =>
        rw [hread] at he
        obtain rfl := Except.ok.inj he
        rfl
  · rw [Json.Restored]
    constructor
    · rintro ⟨e', he, rfl, -⟩
      rw [hparse] at he
      cases hread : Json.reread? e.bpmBase with
      | none => rw [hread] at he; cases he
      | some b =>
          rw [hread] at he
          exact congrArg (fun e => some e.bpmBase) (Except.ok.inj he)
    · intro hread
      rw [hread] at hparse
      exact ⟨e.numeric, hparse, rfl, e.render_numeric⟩

/-- The song with nothing to it but its tempo. -/
def ofTempo (b : Binary64) : SongEntry where
  index := 0
  id := []
  title := []
  artist := []
  searchTitle := .same []
  searchArtist := .same []
  bpm := []
  bpmBase := b
  set := []
  purchase := []
  audioPreview := 0
  audioPreviewEnd := 0
  side := 0
  background := []
  backgroundInverse := []
  remoteDownload := true
  worldUnlock := false
  date := 0
  version := []
  difficulties := []

theorem parse_render_ofTempo {b b' : Binary64} (h : Json.reread? b = some b') :
    parse (ofTempo b).render = .ok (ofTempo b') := by
  have hread : Json.reread? (ofTempo b).bpmBase = some b' := h
  rw [parse_render, hread]
  rfl

/-- A tempo of 99.99999999999999 is read back as one of 100. -/
theorem parse_render_of_long_tempo :
    parse (ofTempo (.ofBits 0x4058FFFFFFFFFFFF)).render = .ok
      (ofTempo (.ofBits 0x4059000000000000)) ∧
      Binary64.ofBits 0x4058FFFFFFFFFFFF ≠ .ofBits 0x4059000000000000 :=
  ⟨parse_render_ofTempo (by decide +kernel), by decide +kernel⟩

end SongEntry
end ChartPackage
