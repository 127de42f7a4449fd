import Mathlib
import ChartPackage.Proofs.Number.Characters
import ChartPackage.Proofs.Text.Cutting
import ChartPackage.Song.Descriptor

/-!
Descriptors as maps. A key has the value of the last line that has one for it, so a text overrides
the text in front of it; keys and values are trimmed and stay on their line, and lines written from
a map of such pairs are read as that map.
-/

namespace ChartPackage

theorem lookup_eq_some_iff_mem {ps : List (Text × Text)} (h : (ps.map Prod.fst).Nodup)
    {key value : Text} :
    ps.lookup key = some value ↔ (key, value) ∈ ps := by
  induction ps with
  | nil => simp
  | cons p ps ih =>
      obtain ⟨k, v⟩ := p
      rw [List.map_cons, List.nodup_cons] at h
      rw [List.lookup_cons, List.mem_cons, Prod.mk.injEq]
      by_cases hkey : key = k
      · subst hkey
        have hlater : (key, value) ∉ ps := fun hmem => h.1 (List.mem_map.mpr ⟨_, hmem, rfl⟩)
        simp [hlater, eq_comm]
      · simp [beq_eq_false_iff_ne.mpr hkey, hkey, ih h.2]

theorem lookup_of_perm {ps qs : List (Text × Text)} (h : ps.Perm qs)
    (hnodup : (qs.map Prod.fst).Nodup) (key : Text) :
    ps.lookup key = qs.lookup key := by
  ext value
  rw [lookup_eq_some_iff_mem ((h.map Prod.fst).nodup_iff.mpr hnodup),
    lookup_eq_some_iff_mem hnodup, h.mem_iff]

namespace Descriptor

variable {d : Descriptor} {line key value : Text}

/-! ### Lines -/

/-- The line has this value for this key. -/
def Tells (line key value : Text) : Prop :=
  ∃ before after, line = before ++ ':' :: after ∧ ':' ∉ before ∧
    Text.trim isBlank before = key ∧ Text.trim isBlank after = value ∧ key ≠ [] ∧ value ≠ []

theorem cut?_colon {before after : Text} :
    Text.cut? ":" line = some (before, after) ↔ line = before ++ ':' :: after ∧ ':' ∉ before :=
  Text.cut?_char

theorem pair?_of_no_colon (h : ':' ∉ line) : pair? line = none := by
  cases hcut : Text.cut? ":" line with
  | none => simp only [pair?, hcut, Option.bind_eq_bind, Option.bind_none]
  | some p =>
      obtain ⟨rfl, -⟩ := cut?_colon.mp hcut
      exact absurd (by simp) h

theorem pair?_of_colon {before : Text} (h : ':' ∉ before) (after : Text) :
    pair? (before ++ ':' :: after) =
      if Text.trim isBlank before = [] ∨ Text.trim isBlank after = [] then none
      else some (Text.trim isBlank before, Text.trim isBlank after) := by
  simp only [pair?, cut?_colon.mpr ⟨rfl, h⟩, Option.bind_eq_bind, Option.bind_some]

theorem pair?_eq_some_iff : pair? line = some (key, value) ↔ Tells line key value := by
  constructor
  · intro hpair
    by_cases hcolon : ':' ∈ line
    · obtain ⟨before, after, rfl, hbefore⟩ := List.eq_append_cons_of_mem hcolon
      rw [pair?_of_colon hbefore, Option.ite_none_left_eq_some, not_or, Option.some.injEq,
        Prod.mk.injEq] at hpair
      obtain ⟨⟨hkey, hvalue⟩, rfl, rfl⟩ := hpair
      exact ⟨before, after, rfl, hbefore, rfl, rfl, hkey, hvalue⟩
    · rw [pair?_of_no_colon hcolon] at hpair
      cases hpair
  · rintro ⟨before, after, rfl, hbefore, rfl, rfl, hkey, hvalue⟩
    rw [pair?_of_colon hbefore, if_neg (not_or.mpr ⟨hkey, hvalue⟩)]

/-- The value that a line has for a key. -/
def valueOn? (key line : Text) : Option Text :=
  (pair? line).bind fun p => if key == p.1 then some p.2 else none

theorem valueOn?_eq_some_iff : valueOn? key line = some value ↔ Tells line key value := by
  rw [← pair?_eq_some_iff, valueOn?]
  cases hpair : pair? line with
  | none => simp
  | some p =>
      obtain ⟨k, v⟩ := p
      rw [Option.bind_some, Option.ite_none_right_eq_some, beq_iff_eq, Option.some.injEq,
        Option.some.injEq,
        Prod.mk.injEq, eq_comm (a := key)]

/-! ### The values of a text -/

/-- The last line with a value for the key has this one. -/
def LastTold (t key value : Text) : Prop :=
  ∃ front line back, Text.lines t = front ++ line :: back ∧ Tells line key value ∧
    ∀ l ∈ back, ∀ v, ¬ Tells l key v

theorem get?_foldl_set (pairs : List (Text × Text)) (d : Descriptor) (key : Text) :
    (pairs.foldl (fun d (k, v) => d.set k v) d).get? key = (pairs.reverse.lookup key).or
    (d.get? key) := by
  induction pairs generalizing d with
  | nil => rfl
  | cons p pairs ih =>
      obtain ⟨k, v⟩ := p
      rw [List.foldl_cons, ih, get?_set, List.reverse_cons, List.lookup_append, Option.or_assoc]
      by_cases hk : key = k
      · simp [hk]
      · simp [hk, List.lookup_cons, beq_eq_false_iff_ne.mpr hk]

theorem get?_parse (t key : Text) :
    (parse t).get? key = ((Text.lines t).filterMap pair?).reverse.lookup key := by
  rw [parse, get?_foldl_set]
  exact Option.or_none ..

theorem get?_parse_eq_findSome? (t key : Text) :
    (parse t).get? key = (Text.lines t).reverse.findSome? (valueOn? key) := by
  rw [get?_parse, List.lookup_eq_findSome?, ← List.filterMap_reverse, ← List.head?_filterMap,
    List.filterMap_filterMap, List.head?_filterMap]
  rfl

theorem get?_parse_eq_some_iff {t : Text} :
    (parse t).get? key = some value ↔ LastTold t key value := by
  rw [get?_parse_eq_findSome?, List.findSome?_eq_some_iff]
  constructor
  · rintro ⟨back, line, front, hlines, htells, hlater⟩
    refine ⟨front.reverse, line, back.reverse, ?_, valueOn?_eq_some_iff.mp htells,
      fun l hl v hv => ?_⟩
    · simpa using congrArg List.reverse hlines
    · rw [← valueOn?_eq_some_iff, hlater l (List.mem_reverse.mp hl)] at hv
      cases hv
  · rintro ⟨front, line, back, hlines, htells, hlater⟩
    refine ⟨back.reverse, line, front.reverse, by simp [hlines], valueOn?_eq_some_iff.mpr htells,
      fun l hl => ?_⟩
    exact Option.eq_none_iff_forall_ne_some.mpr fun v hv =>
      hlater l (List.mem_reverse.mp hl) v (valueOn?_eq_some_iff.mp hv)

theorem get?_parse_eq_none_iff {t : Text} :
    (parse t).get? key = none ↔ ∀ line ∈ Text.lines t, ∀ value, ¬ Tells line key value := by
  rw [get?_parse_eq_findSome?, List.findSome?_eq_none_iff]
  simp only [List.mem_reverse, Option.eq_none_iff_forall_ne_some, Ne, valueOn?_eq_some_iff]

/-- A text overrides the text in front of it. -/
theorem get?_parse_append (a b key : Text) :
    (parse (a ++ '\n' :: b)).get? key = ((parse b).get? key).or ((parse a).get? key) := by
  rw [get?_parse_eq_findSome?, Text.lines_append_break, List.reverse_append, List.findSome?_append,
    ← get?_parse_eq_findSome?, ← get?_parse_eq_findSome?]

/-! ### Keys -/

def keys (d : Descriptor) : List Text := d.pairs.map Prod.fst

theorem length_keys (d : Descriptor) : d.keys.length = d.size := List.length_map ..

theorem mem_keys : key ∈ d.keys ↔ d.contains key = true := by
  rw [contains, get?, List.lookup_isSome_iff, keys, List.mem_map]
  simp only [beq_iff_eq, eq_comm (a := key)]

theorem nodup_keys_set (h : d.keys.Nodup) (key value : Text) : (d.set key value).keys.Nodup := by
  rw [keys, set, List.map_cons, List.nodup_cons]
  refine ⟨?_, (List.filter_sublist.map _).nodup h⟩
  rintro hmem
  obtain ⟨p, hp, hkey⟩ := List.mem_map.mp hmem
  simpa [hkey] using (List.mem_filter.mp hp).2

theorem nodup_keys_parse (t : Text) : (parse t).keys.Nodup := by
  have hfold : ∀ (pairs : List (Text × Text)) (d : Descriptor), d.keys.Nodup →
      (pairs.foldl (fun d (k, v) => d.set k v) d).keys.Nodup := by
    intro pairs
    induction pairs with
    | nil => exact fun _ h => h
    | cons p pairs ih => exact fun d h => ih _ (nodup_keys_set h p.1 p.2)
  exact hfold _ _ List.nodup_nil

theorem size_eq_card (h : d.keys.Nodup) : d.size = d.keys.toFinset.card := by
  rw [List.toFinset_card_of_nodup h, length_keys]

/-- What can be the key and the value of a pair. -/
structure Storable (key value : Text) : Prop where
  key_ne_nil : key ≠ []
  value_ne_nil : value ≠ []
  key_trimmed : Text.Trimmed isBlank key
  value_trimmed : Text.Trimmed isBlank value
  key_on_line : '\n' ∉ key
  value_on_line : '\n' ∉ value
  no_colon : ':' ∉ key

theorem storable_of_tells (hline : '\n' ∉ line) (h : Tells line key value) :
    Storable key value := by
  obtain ⟨before, after, rfl, hcolon, rfl, rfl, hkey, hvalue⟩ := h
  simp only [List.mem_append, List.mem_cons, not_or] at hline
  obtain ⟨hbefore, -, hafter⟩ := hline
  exact ⟨hkey, hvalue, Text.trimmed_trim _ _, Text.trimmed_trim _ _,
    mt Text.mem_of_mem_trim hbefore,
    mt Text.mem_of_mem_trim hafter, mt Text.mem_of_mem_trim hcolon⟩

theorem storable_of_get? {t : Text} (h : (parse t).get? key = some value) : Storable key value := by
  obtain ⟨front, line, back, hlines, htells, -⟩ := get?_parse_eq_some_iff.mp h
  have hline : line ∈ Text.lines t := by simp [hlines]
  exact storable_of_tells (Text.not_mem_of_mem_splitOn hline) htells

/-! ### Written lines -/

/-- Blanks that stay on their line. -/
def Padding (t : Text) : Prop := ∀ c ∈ t, isBlank c = true ∧ c ≠ '\n'

instance (t : Text) : Decidable (Padding t) :=
  decidable_of_iff (t.all fun c => isBlank c && c != '\n') (by simp [Padding])

/-- A line without a colon, or with nothing but blanks on one side of the first. -/
def Idle (line : Text) : Prop :=
  ':' ∉ line ∨ ∃ before after, line = before ++ ':' :: after ∧ ':' ∉ before ∧
    (Text.trim isBlank before = [] ∨ Text.trim isBlank after = [])

/-- The lines hold these pairs one by one, and idle lines in between. -/
inductive Writes : List Text → List (Text × Text) → Prop where
  | nil : Writes [] []
  | pair {key value a b c d : Text} {ls : List Text} {pairs : List (Text × Text)} :
      Padding a → Padding b → Padding c → Padding d → Writes ls pairs →
      Writes ((a ++ key ++ b ++ ':' :: (c ++ value ++ d)) :: ls) ((key, value) :: pairs)
  | idle {line : Text} {ls : List Text} {pairs : List (Text × Text)} :
      '\n' ∉ line → Idle line → Writes ls pairs → Writes (line :: ls) pairs

theorem pair?_of_idle (h : Idle line) : pair? line = none := by
  rcases h with hcolon | ⟨before, after, rfl, hbefore, hblank⟩
  · exact pair?_of_no_colon hcolon
  · rw [pair?_of_colon hbefore, if_pos hblank]

theorem pair?_written {a b c d : Text} (h : Storable key value) (ha : Padding a) (hb : Padding b)
    (hc : Padding c)
    (hd : Padding d) : pair? (a ++ key ++ b ++ ':' :: (c ++ value ++ d)) = some (key, value) := by
  have hcolon : ∀ {p : Text}, Padding p → ':' ∉ p := fun hp hmem => absurd (hp _ hmem).1 (by decide)
  refine pair?_eq_some_iff.mpr ⟨_, _, rfl, ?_, ?_, ?_, h.key_ne_nil, h.value_ne_nil⟩
  · simp [hcolon ha, hcolon hb, h.no_colon]
  · exact h.key_trimmed.trim_padded h.key_ne_nil (fun e he => (ha e he).1) fun e he => (hb e he).1
  · exact h.value_trimmed.trim_padded h.value_ne_nil (fun e he => (hc e he).1) fun e he =>
      (hd e he).1

theorem Writes.filterMap_pair? {ls : List Text} {pairs : List (Text × Text)} (h : Writes ls pairs)
    (hpairs : ∀ pair ∈ pairs, Storable pair.1 pair.2) :
    (∀ l ∈ ls, '\n' ∉ l) ∧ ls.filterMap pair? = pairs := by
  induction h with
  | nil => exact ⟨by simp, rfl⟩
  | @pair key value a b c d ls pairs ha hb hc hd _ ih =>
      obtain ⟨hpair, hpairs⟩ := List.forall_mem_cons.mp hpairs
      obtain ⟨hlines, hrest⟩ := ih hpairs
      have hbreak : ∀ {p : Text}, Padding p → '\n' ∉ p := fun hp hmem => (hp _ hmem).2 rfl
      refine ⟨List.forall_mem_cons.mpr ⟨?_, hlines⟩, ?_⟩
      · simp [hbreak ha, hbreak hb, hbreak hc, hbreak hd, hpair.key_on_line, hpair.value_on_line]
      · rw [List.filterMap_cons_some (pair?_written hpair ha hb hc hd), hrest]
  | @idle line ls pairs hline hidle _ ih =>
      obtain ⟨hlines, hrest⟩ := ih hpairs
      exact ⟨List.forall_mem_cons.mpr ⟨hline, hlines⟩, by
        rw [List.filterMap_cons_none (pair?_of_idle hidle), hrest]⟩

theorem filterMap_lines_unlines {ls : List Text} (h : ∀ l ∈ ls, '\n' ∉ l) :
    (Text.lines (Text.unlines ls)).filterMap pair? = ls.filterMap pair? := by
  by_cases hne : ls = []
  · rw [hne]
    rfl
  · rw [Text.lines, Text.unlines, List.splitOn_intercalate _ h hne]

/-- Two descriptors of the same pairs, each key once, have the same size. -/
theorem size_eq_of_get?_eq {d e : Descriptor} (hd : d.keys.Nodup) (he : e.keys.Nodup)
    (h : ∀ key, d.get? key = e.get? key) : d.size = e.size := by
  rw [size_eq_card hd, size_eq_card he]
  congr 1
  ext key
  rw [List.mem_toFinset, List.mem_toFinset, mem_keys, mem_keys, contains, contains, h key]

/-- A text with another behind it is read as both are, the second first; what is stored can be a
pair; and lines that hold the pairs of a descriptor in some order, with idle lines in between, are
read as that descriptor. -/
theorem parse_overrides (a b : Text) :
    (∀ key, (parse (a ++ '\n' :: b)).get? key = ((parse b).get? key).or ((parse a).get? key)) ∧
      (∃ keys : Finset Text,
        (∀ key, key ∈ keys ↔ (parse a).contains key = true ∨ (parse b).contains key = true) ∧
        (parse (a ++ '\n' :: b)).size = keys.card) ∧
      (∀ key value, (parse a).get? key = some value → Storable key value) ∧
      ∀ (d : Descriptor) (written : List (Text × Text)) (ls : List Text),
        d.keys.Nodup → (∀ pair ∈ d.pairs, Storable pair.1 pair.2) → written.Perm d.pairs →
          Writes ls written →
          (∀ key, (parse (Text.unlines ls)).get? key = d.get? key) ∧
          (parse (Text.unlines ls)).size = d.size := by
  refine ⟨get?_parse_append a b, ⟨(parse (a ++ '\n' :: b)).keys.toFinset, fun key => ?_, ?_⟩,
    fun _ _ => storable_of_get?, fun d written ls hnodup hpairs hperm hwrites => ?_⟩
  · rw [List.mem_toFinset, mem_keys, contains, get?_parse_append, Option.isSome_or,
      Bool.or_eq_true, or_comm]
    rfl
  · exact size_eq_card (nodup_keys_parse _)
  · obtain ⟨hlines, hfilter⟩ := hwrites.filterMap_pair? fun pair hpair =>
      hpairs pair (hperm.mem_iff.mp hpair)
    have hget : ∀ key, (parse (Text.unlines ls)).get? key = d.get? key := by
      intro key
      rw [get?_parse, filterMap_lines_unlines hlines, hfilter]
      exact lookup_of_perm ((List.reverse_perm written).trans hperm) hnodup key
    exact ⟨hget, size_eq_of_get?_eq (nodup_keys_parse _) hnodup hget⟩

/-- A title with a colon, and a tempo. -/
def tempoDescriptor : Descriptor := ⟨[("title", "Re:Start"), ("baseBpm", "180")]⟩

/-- Its lines the other way round, one of them with a carriage return at its end. -/
def tempoLines : List Text := ["title:", "\u0085baseBpm :\t180", "no pair", " title: Re:Start\r"]

theorem parse_overrides_tempo :
    (parse "title: First").get? "title" = some "First" ∧ Storable "title" "First" ∧
      tempoDescriptor.keys.Nodup ∧ (∀ pair ∈ tempoDescriptor.pairs, Storable pair.1 pair.2) ∧
      tempoDescriptor.pairs.reverse.Perm tempoDescriptor.pairs ∧
      Writes tempoLines tempoDescriptor.pairs.reverse ∧
      (∀ key, (parse (Text.unlines tempoLines)).get? key = tempoDescriptor.get? key) ∧
      (parse (Text.unlines tempoLines)).size = tempoDescriptor.size := by
  obtain ⟨-, -, hstored, hread⟩ := parse_overrides "title: First" []
  have hfirst : (parse "title: First").get? "title" = some "First" := by decide
  have hnodup : tempoDescriptor.keys.Nodup := by decide
  have htitle : Storable "title" "Re:Start" := by constructor <;> decide
  have htempo : Storable "baseBpm" "180" := by constructor <;> decide
  have hpairs : ∀ pair ∈ tempoDescriptor.pairs, Storable pair.1 pair.2 :=
    List.forall_mem_cons.mpr ⟨htitle, List.forall_mem_cons.mpr ⟨htempo, by simp⟩⟩
  have hwrites : Writes tempoLines tempoDescriptor.pairs.reverse := by
    have hempty : Idle "title:" := Or.inr ⟨"title", [], rfl, by decide, Or.inr rfl⟩
    have hplain : Idle "no pair" := Or.inl (by decide)
    exact .idle (by decide) hempty <|
      @Writes.pair "baseBpm" "180" "\u0085" " " "\t" [] _ _ (by decide) (by decide) (by decide)
        (by decide) <|
      .idle (by decide) hplain <|
      @Writes.pair "title" "Re:Start" " " [] " " "\r" _ _ (by decide) (by decide) (by decide)
        (by decide) .nil
  have hperm := List.reverse_perm tempoDescriptor.pairs
  exact ⟨hfirst, hstored _ _ hfirst, hnodup, hpairs, hperm, hwrites,
    hread _ _ _ hnodup hpairs hperm hwrites⟩

end Descriptor

end ChartPackage
