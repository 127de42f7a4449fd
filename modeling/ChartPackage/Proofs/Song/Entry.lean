import Mathlib
import ChartPackage.Proofs.Number.Numerals
import ChartPackage.Proofs.Song.Descriptor
import ChartPackage.Proofs.Work
import ChartPackage.Song.Entry

/-!
Entries from descriptor texts. The first of the required keys that no line has a value for is the
fault. With a value for each, the difficulties of the entry differ in their class only, and their
level is the number that the digits of the difficulty spell, never a remainder of it.
-/

namespace ChartPackage

namespace Rating

/-- Zeros in front count for nothing; a number of more than 64 bits is no level. -/
theorem level_parse_eq_some_iff {t : Text} {n : UInt64} :
    (parse t).level = some n ↔
      ∃ zeros, t.filter Char.isDigit = List.replicate zeros '0' ++ Numeral.ofNat n.toNat := by
  rw [parse, Option.ite_none_right_eq_some, Option.some.injEq]
  constructor
  · rintro ⟨⟨hne, hlow⟩, rfl⟩
    have hdigits : ∀ c ∈ t.filter Char.isDigit, c.isDigit = true := fun c hc =>
      (List.mem_filter.mp hc).2
    have hpadded :=
      Numeral.padLeft_ofNat_value hdigits (List.length_pos_of_ne_nil hne) le_rfl (Or.inl rfl)
    rw [UInt64.toNat_ofNat_of_lt' hlow]
    exact ⟨_, hpadded.symm⟩
  · rintro ⟨zeros, hdigits⟩
    have hvalue : Numeral.value (t.filter Char.isDigit) = n.toNat := by
      rw [hdigits, Numeral.value_append, Numeral.value_zeros, Numeral.value_ofNat,
        Nat.zero_mul, Nat.zero_add]
    have hne : t.filter Char.isDigit ≠ [] := by
      rw [hdigits]
      exact List.append_ne_nil_of_right_ne_nil _ (Numeral.ofNat_ne_nil _)
    rw [hvalue]
    exact ⟨⟨hne, n.toNat_lt⟩, UInt64.ofNat_toNat⟩

end Rating

namespace Descriptor

variable {d : Descriptor} {t key value : Text} {keys : List Text} {α : Type} {x : Except Fault α}
    {fault : Fault}

/-- A line has a value for the key. -/
def Given (t key : Text) : Prop := ∃ line ∈ Text.lines t, ∃ value, Tells line key value

theorem contains_parse_iff : (parse t).contains key = true ↔ Given t key := by
  rw [contains, Option.isSome_iff_ne_none, Ne, get?_parse_eq_none_iff]
  simp only [Given, not_forall, not_not, exists_prop]

theorem require_eq_ok_iff : d.require key = .ok value ↔ d.get? key = some value := by
  rw [require]
  cases d.get? key with
  | none => simp
  | some v => simp

/-! ### Keys in order -/

/-- Asks for the values of these keys, one after the other, and succeeds if they are there. -/
inductive Asks (d : Descriptor) {α : Type} : List Text → Except Fault α → Prop where
  | done (a : α) : Asks d [] (.ok a)
  | ask {key : Text} {keys : List Text} {f : Text → Except Fault α} :
      (∀ value, Asks d keys (f value)) → Asks d (key :: keys) (d.require key >>= f)

theorem Asks.eq_error_iff (h : d.Asks keys x) :
    x = .error fault ↔ ∃ key, keys.find? (fun key => !d.contains key) = some key ∧
      fault = .missingKey key := by
  induction h with
  | done a => simp
  | @ask key keys f _ ih =>
      rw [require, List.find?_cons, contains]
      cases d.get? key with
      | none =>
          constructor
          · intro h
            exact ⟨key, rfl, (Except.error.inj h).symm⟩
          · rintro ⟨_, hkey, rfl⟩
            rw [← Option.some.inj hkey]
            rfl
      | some value => exact ih value

/-- The fault is the first key without a value. -/
theorem Asks.eq_error_iff_split (h : d.Asks keys x) :
    x = .error fault ↔ ∃ before key after, keys = before ++ key :: after ∧
      (∀ k ∈ before, d.contains k = true) ∧
      ¬ d.contains key = true ∧ fault = .missingKey key := by
  rw [h.eq_error_iff]
  simp only [List.find?_eq_some_iff_append, Bool.not_eq_true', Bool.not_not, Bool.not_eq_true]
  constructor
  · rintro ⟨key, ⟨hkey, before, after, rfl, hbefore⟩, hfault⟩
    exact ⟨before, key, after, rfl, hbefore, hkey, hfault⟩
  · rintro ⟨before, key, after, rfl, hbefore, hkey, hfault⟩
    exact ⟨key, ⟨hkey, before, after, rfl, hbefore⟩, hfault⟩

theorem Asks.fails_iff (h : d.Asks keys x) :
    (∃ fault, x = .error fault) ↔ ∃ key ∈ keys, ¬ d.contains key = true := by
  simp only [h.eq_error_iff]
  rw [exists_comm]
  simp [← Option.isSome_iff_exists]

end Descriptor

/-- Three difficulties that differ in their class only, with the level and the mark of a difficulty
text. -/
structure Tiers (charter illustrator difficulty : Text) (tiers : List Difficulty) : Prop where
  classes : tiers.map (·.ratingClass.index) = [0, 1, 2]
  agree : ∀ a ∈ tiers, ∀ b ∈ tiers, a = { b with ratingClass := a.ratingClass }
  chartDesigner : ∀ a ∈ tiers, a.chartDesigner = charter
  jacketDesigner : ∀ a ∈ tiers, a.jacketDesigner = illustrator
  rating : ∀ a ∈ tiers, ∀ n, a.rating = some n ↔
    ∃ zeros, difficulty.filter Char.isDigit = List.replicate zeros '0' ++ Numeral.ofNat n.toNat
  ratingPlus : ∀ a ∈ tiers, a.ratingPlus = if '+' ∈ difficulty then some true else none

namespace SongEntry

open Descriptor (Given LastTold)

variable {d : Descriptor} {folder : Text} {date : Int64} {e : SongEntry}

theorem asks_ofDescriptor (d : Descriptor) (folder : Text) (date : Int64) :
    d.Asks requiredKeys (ofDescriptor d folder date) :=
  .ask fun _ => .ask fun _ => .ask fun _ => .ask fun _ => .ask fun _ => .ask fun _ =>
    .ask fun _ => .done _

/-- One difficulty for each class. -/
def difficultiesOf (charter illustrator difficulty : Text) : List Difficulty :=
  RatingClass.all.map fun c => {
    ratingClass := c
    chartDesigner := charter
    jacketDesigner := illustrator
    rating := (Rating.parse difficulty).level
    ratingPlus := if (Rating.parse difficulty).plus then some true else none }

theorem tiers_difficultiesOf (charter illustrator difficulty : Text) :
    Tiers charter illustrator difficulty (difficultiesOf charter illustrator difficulty) where
  classes := rfl
  agree := by simp [difficultiesOf]
  chartDesigner := by simp [difficultiesOf]
  jacketDesigner := by simp [difficultiesOf]
  rating := by simp [difficultiesOf, Rating.level_parse_eq_some_iff]
  ratingPlus := by simp [difficultiesOf, Rating.parse]

/-- What an entry takes from the descriptor, the folder and the time. -/
structure Made (d : Descriptor) (folder : Text) (date : Int64) (e : SongEntry) : Prop where
  id : e.id = songId folder
  purchase : e.purchase = folder
  date : e.date = date
  title : d.get? "title" = some e.title
  artist : d.get? "composer" = some e.artist
  bpm : d.get? "bpmText" = some e.bpm
  bpmBase : ∃ base, d.get? "baseBpm" = some base ∧ e.bpmBase = (Leading.read? base).getD .nan
  difficulties : ∃ charter illustrator difficulty, d.get? "charter" = some charter ∧
    d.get? "illustrator" = some illustrator ∧ d.get? "difficulty" = some difficulty ∧
    e.difficulties = difficultiesOf charter illustrator difficulty

theorem made_of_ofDescriptor (h : ofDescriptor d folder date = .ok e) : Made d folder date e := by
  obtain ⟨title, htitle, h⟩ := Except.bind_eq_ok_iff.mp h
  obtain ⟨composer, hcomposer, h⟩ := Except.bind_eq_ok_iff.mp h
  obtain ⟨difficulty, hdifficulty, h⟩ := Except.bind_eq_ok_iff.mp h
  obtain ⟨charter, hcharter, h⟩ := Except.bind_eq_ok_iff.mp h
  obtain ⟨illustrator, hillustrator, h⟩ := Except.bind_eq_ok_iff.mp h
  obtain ⟨bpmText, hbpm, h⟩ := Except.bind_eq_ok_iff.mp h
  obtain ⟨base, hbase, h⟩ := Except.bind_eq_ok_iff.mp h
  obtain rfl := Except.ok.inj h
  rw [Descriptor.require_eq_ok_iff] at htitle hcomposer hdifficulty hcharter hillustrator hbpm hbase
  exact {
    id := rfl
    purchase := rfl
    date := rfl
    title := htitle
    artist := hcomposer
    bpm := hbpm
    bpmBase := ⟨base, hbase, rfl⟩
    difficulties := ⟨charter, illustrator, difficulty, hcharter, hillustrator, hdifficulty, rfl⟩ }

/-- The first required key that no line has a value for is the fault; with none missing, the last
lines count. -/
theorem ofDescriptor_parse (t folder : Text) (date : Int64) :
    ((∃ fault, ofDescriptor (.parse t) folder date = .error fault) ↔ ∃ key ∈ requiredKeys,
      ¬ Given t key) ∧
      (∀ fault, ofDescriptor (.parse t) folder date = .error fault ↔
        ∃ before key after, requiredKeys = before ++ key :: after ∧ (∀ k ∈ before, Given t k) ∧
          ¬ Given t key ∧
          fault = .missingKey key) ∧
      ∀ e, ofDescriptor (.parse t) folder date = .ok e →
        (∃ charter illustrator difficulty, LastTold t "charter" charter ∧
          LastTold t "illustrator" illustrator ∧
          LastTold t "difficulty" difficulty ∧
            Tiers charter illustrator difficulty e.difficulties) ∧
        ∃ base, LastTold t "baseBpm" base ∧ e.bpmBase = (Leading.read? base).getD .nan := by
  have hasks := asks_ofDescriptor (.parse t) folder date
  refine ⟨?_, fun fault => ?_, fun e he => ?_⟩
  · rw [hasks.fails_iff]
    simp only [Descriptor.contains_parse_iff]
  · rw [hasks.eq_error_iff_split]
    simp only [Descriptor.contains_parse_iff]
  · have hmade := made_of_ofDescriptor he
    obtain ⟨base, hbase, hbpm⟩ := hmade.bpmBase
    obtain ⟨charter, illustrator, difficulty, hcharter, hillustrator, hdifficulty, htiers⟩ :=
      hmade.difficulties
    rw [Descriptor.get?_parse_eq_some_iff] at hbase hcharter hillustrator hdifficulty
    exact ⟨⟨charter, illustrator, difficulty, hcharter, hillustrator, hdifficulty,
      htiers ▸ tiers_difficultiesOf ..⟩,
      base, hbase, hbpm⟩

/-- A level with a zero in front, in words, and a tempo that is no number; a second designer
overrides the first. -/
def upperNine : Text :=
  Text.unlines ["title: Nine", "composer: A", "difficulty: Future 09+", "charter: B",
    "illustrator: C", "bpmText: 180",
    "baseBpm: fast", "charter: D"]

theorem ofDescriptor_parse_upperNine :
    ofDescriptor (.parse "title: Nine\ndifficulty: 9") "Nine" 0 = .error (.missingKey "composer") ∧
      ∃ e, ofDescriptor (.parse upperNine) "Nine" 0 = .ok e ∧
        Tiers "D" "C" "Future 09+" e.difficulties ∧
        e.bpmBase = .nan := by
  obtain ⟨e, he⟩ : ∃ e, ofDescriptor (.parse upperNine) "Nine" 0 = .ok e := ⟨_, rfl⟩
  obtain ⟨⟨charter, illustrator, difficulty, hcharter, hillustrator, hdifficulty, htiers⟩, base,
      hbase, hbpm⟩ :=
    (ofDescriptor_parse upperNine "Nine" 0).2.2 e he
  have hlast : ∀ {key value other : Text}, LastTold upperNine key other →
      (Descriptor.parse upperNine).get? key = some value → other = value := fun htold hget =>
    Option.some.inj ((Descriptor.get?_parse_eq_some_iff.mpr htold).symm.trans hget)
  rw [hlast hcharter rfl, hlast hillustrator rfl, hlast hdifficulty rfl] at htiers
  rw [hlast hbase rfl] at hbpm
  exact ⟨rfl, e, he, htiers, hbpm⟩

end SongEntry

end ChartPackage
