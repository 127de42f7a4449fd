import Mathlib
import ChartPackage.Json.Decode
import ChartPackage.Proofs.Json.Rereading

/-!
Values of known types are read back from the JSON values that they are written as: whole numbers
within their bounds, and records as objects with their fields by name.
-/

namespace ChartPackage.Json

/-! ### Whole numbers -/

theorem readable_int (n : Int) : Readable (.int n) := by
  refine .number ⟨⟨Numeral.ofNat_ne_nil _, fun c => Numeral.isDigit_of_mem_ofNat⟩, ?_, ?_, ?_⟩
  · intro hzero
    dsimp only at hzero ⊢
    rw [Numeral.eq_zero_of_head hzero]
    rfl
  · intro digits h
    cases h
  · intro sign digits h
    cases h

theorem int?_int (n : Int) : int? (.int n) = some n := by
  rw [Json.int, int?, Numeral.value_ofNat]
  by_cases hn : n < 0
  · rw [decide_eq_true hn, if_pos rfl, if_neg (by omega)]
    exact congrArg some (by omega)
  · rw [decide_eq_false hn, if_neg Bool.false_ne_true]
    exact congrArg some (by omega)

theorem natBelow?_nat {limit n : Nat} (h : n < limit) : natBelow? limit (.nat n) = some n := by
  rw [natBelow?, nat, int?_int, Option.bind_eq_bind, Option.bind_some, Int.toNat_natCast,
    if_pos ⟨Int.natCast_nonneg n, h⟩]

theorem uint32?_nat (n : UInt32) : uint32? (.nat n.toNat) = some n := by
  rw [uint32?, natBelow?_nat n.toNat_lt, Option.map_some, UInt32.ofNat_toNat]

theorem uint64?_nat (n : UInt64) : uint64? (.nat n.toNat) = some n := by
  rw [uint64?, natBelow?_nat n.toNat_lt, Option.map_some, UInt64.ofNat_toNat]

theorem int64?_int (n : Int64) : int64? (.int n.toInt) = some n := by
  rw [int64?, int?_int, Option.bind_eq_bind, Option.bind_some, if_pos ⟨n.le_toInt, n.toInt_lt⟩,
    Int64.ofInt_toInt]

/-! ### Fields and lists -/

section

variable {α β : Type} {read : Json → Option α}

theorem required?_some (j : Json) : required? read (some j) = read j := rfl

theorem text?_text (t : Text) : text? (.text t) = some t := rfl

theorem bool?_bool (b : Bool) : bool? (.bool b) = some b := rfl

theorem mapM_some {f : α → Option β} {g : α → β} {xs : List α} (h : ∀ x ∈ xs, f x = some (g x)) :
    xs.mapM f = some (xs.map g) := by
  induction xs with
  | nil => rfl
  | cons x xs ih =>
      rw [List.forall_mem_cons] at h
      rw [List.mapM_cons, h.1, ih h.2]
      rfl

theorem mapM_congr {f g : α → Option β} {xs : List α} (h : ∀ x ∈ xs, f x = g x) :
    xs.mapM f = xs.mapM g := by
  induction xs with
  | nil => rfl
  | cons x xs ih =>
      rw [List.forall_mem_cons] at h
      rw [List.mapM_cons, List.mapM_cons, h.1, ih h.2]

/-- A list is read back if its items are. -/
theorem list?_map {write : α → Json} (h : ∀ x, read (write x) = some x) (xs : List α) :
    list? read (.array (xs.map write)) = some xs := by
  have hread : xs.mapM (read ∘ write) = some (xs.map id) := mapM_some fun x _ => h x
  rw [list?, List.mapM_map, hread, List.map_id]

end

/-! ### Records -/

/-- An object with these values by these names. -/
def record (names : List Text) (values : List Json) : Json :=
  .object (List.zipWith member names values)

theorem readable_record (names : List Text) {values : List Json}
    (h : ∀ value ∈ values, Readable value) :
    Readable (record names values) := by
  have hmem : ∀ m ∈ List.zipWith member names values, ∃ name, ∃ value ∈ values,
      m = member name value := by
    intro m hm
    rw [← List.map_uncurry_zip_eq_zipWith] at hm
    obtain ⟨p, hp, rfl⟩ := List.mem_map.mp hm
    exact ⟨p.1, p.2, (List.of_mem_zip hp).2, rfl⟩
  refine .object ?_ ?_
  · intro m hm
    obtain ⟨name, value, -, rfl⟩ := hmem m hm
    exact ⟨name, rfl⟩
  · intro m hm
    obtain ⟨name, value, hvalue, rfl⟩ := hmem m hm
    exact h value hvalue

theorem member?_cons_of_ne {name key : Text} (h : name ≠ key) (value : Json)
    (members : List (Option Text × Json)) :
    member? (member name value :: members) key = member? members key := by
  rw [member?, member?, List.filter_cons_of_neg]
  simpa [member] using h

theorem filter_key_eq_nil {key : Text} {names : List Text} (h : key ∉ names) (values : List Json) :
    (List.zipWith member names values).filter (·.1 = some key) = [] := by
  rw [List.filter_eq_nil_iff]
  intro m hm
  rw [← List.map_uncurry_zip_eq_zipWith] at hm
  obtain ⟨p, hp, rfl⟩ := List.mem_map.mp hm
  have hname := (List.of_mem_zip hp).1
  simpa [Function.uncurry, member] using fun heq : p.1 = key => h (heq ▸ hname)

theorem member?_of_not_mem {key : Text} {names : List Text} (h : key ∉ names) (values : List Json) :
    member? (List.zipWith member names values) key = some none := by
  rw [member?, filter_key_eq_nil h]

theorem member?_cons_self {key : Text} {names : List Text} (h : key ∉ names) (value : Json)
    (values : List Json) :
    member? (member key value :: List.zipWith member names values) key = some (some value) := by
  rw [member?, List.filter_cons_of_pos (by simp [member]), filter_key_eq_nil h]
  rfl

/-- The fields of a record are found by their names, and those that it lacks are not. -/
theorem fields?_record {names missing : List Text} {values : List Json}
    (hlength : names.length = values.length)
    (hnodup : (names ++ missing).Nodup) (omissible : Nat) :
    fields? (names ++ missing) omissible (record names values) =
      some (values.map some ++ missing.map fun _ => none) := by
  have hkeys : (List.zipWith member names values).all (·.1.isSome) = true := by
    rw [List.all_eq_true]
    intro m hm
    rw [← List.map_uncurry_zip_eq_zipWith] at hm
    obtain ⟨p, -, rfl⟩ := List.mem_map.mp hm
    rfl
  rw [record, fields?, if_pos hkeys]
  clear hkeys
  induction names generalizing values with
  | nil =>
      obtain rfl : values = [] := List.length_eq_zero_iff.mp hlength.symm
      exact mapM_some fun key _ => member?_of_not_mem List.not_mem_nil []
  | cons name names ih =>
      cases values with
      | nil => cases hlength
      | cons value values =>
          rw [List.cons_append, List.nodup_cons] at hnodup
          have hname : name ∉ names := fun h => hnodup.1 (List.mem_append_left _ h)
          have hlater : (names ++ missing).mapM
              (member? (member name value :: List.zipWith member names values)) =
              (names ++ missing).mapM (member? (List.zipWith member names values)) := by
            refine mapM_congr fun key hkey => member?_cons_of_ne ?_ value _
            intro heq
            exact hnodup.1 (heq ▸ hkey)
          rw [List.cons_append, List.mapM_cons, List.zipWith_cons_cons,
            member?_cons_self hname, hlater,
            ih (Nat.succ.inj hlength) hnodup.2]
          rfl

/-- All fields of a record are found by their names. -/
theorem fields?_whole {names : List Text} {values : List Json}
    (hlength : names.length = values.length)
    (hnodup : names.Nodup) (omissible : Nat) :
      fields? names omissible (record names values) = some (values.map some) := by
  have h : fields? (names ++ []) omissible (record names values) = some (values.map some ++ []) :=
    fields?_record hlength (by rwa [List.append_nil]) omissible
  rwa [List.append_nil, List.append_nil] at h

end ChartPackage.Json
