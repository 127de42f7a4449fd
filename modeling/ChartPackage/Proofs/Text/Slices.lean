import Mathlib
import ChartPackage.Text.Basic

/-!
Places in a text counted in bytes. A place is good for cutting if it lies between two characters;
inside a character nothing can be cut.
-/

namespace ChartPackage.Text

/-- How many bytes the characters of a text take up. -/
def size (t : Text) : Nat := (t.map Char.utf8Size).sum

/-- A text in two, the first part of so many bytes. None if that is inside of a character or behind
the end. -/
def splitBytes? : Nat → Text → Option (Text × Text)
  | 0, t => some ([], t)
  | _ + 1, [] => none
  | n + 1, c :: t =>
      if c.utf8Size ≤ n + 1 then
        (splitBytes? (n + 1 - c.utf8Size) t).map fun (front, rest) => (c :: front, rest)
      else none

/-- The part of a text between two places. -/
def slice? (t : Text) (start stop : Nat) : Option Text := do
  let (front, _) ← t.splitBytes? stop
  let (_, part) ← front.splitBytes? start
  return part

@[simp] theorem size_nil : size [] = 0 := rfl

theorem size_cons (c : Char) (t : Text) : size (c :: t) = c.utf8Size + size t := by simp [size]

theorem size_append (s t : Text) : size (s ++ t) = size s + size t := by simp [size]

theorem size_pos {t : Text} (h : t ≠ []) : 0 < size t := by
  obtain ⟨c, t, rfl⟩ := List.exists_cons_of_ne_nil h
  rw [size_cons]
  exact Nat.add_pos_left c.utf8Size_pos _

theorem splitBytes?_size (front rest : Text) :
    splitBytes? front.size (front ++ rest) = some (front, rest) := by
  induction front with
  | nil => simp [splitBytes?]
  | cons c front ih =>
      obtain ⟨n, hn⟩ : ∃ n, size (c :: front) = n + 1 :=
        Nat.exists_eq_add_one.mpr (size_pos (List.cons_ne_nil c front))
      have hrest : n + 1 - c.utf8Size = size front := by
        rw [← hn, size_cons, Nat.add_sub_cancel_left]
      rw [hn, List.cons_append, splitBytes?, if_pos (by rw [← hn, size_cons]; omega), hrest, ih]
      rfl

theorem splitBytes?_eq_some_iff {n : Nat} {t front rest : Text} :
    splitBytes? n t = some (front, rest) ↔ t = front ++ rest ∧ front.size = n := by
  constructor
  · intro h
    induction t generalizing n front with
    | nil =>
        cases n with
        | zero =>
            cases h
            exact ⟨rfl, rfl⟩
        | succ n => cases h
    | cons c t ih =>
        cases n with
        | zero =>
            cases h
            exact ⟨rfl, rfl⟩
        | succ n =>
            rw [splitBytes?] at h
            split at h
            · next hle =>
                obtain ⟨⟨front, rest⟩, hsplit, heq⟩ := Option.map_eq_some_iff.mp h
                cases heq
                obtain ⟨rfl, hsize⟩ := ih hsplit
                refine ⟨rfl, ?_⟩
                rw [size_cons, hsize]
                omega
            · cases h
  · rintro ⟨rfl, rfl⟩
    exact splitBytes?_size front rest

/-- Cutting behind a front is cutting what follows it. -/
theorem splitBytes?_append (front rest : Text) (n : Nat) :
    splitBytes? (front.size + n) (front ++ rest) =
      (splitBytes? n rest).map fun (a, b) => (front ++ a, b) := by
  cases hsplit : splitBytes? n rest with
  | some p =>
      obtain ⟨a, b⟩ := p
      obtain ⟨rfl, rfl⟩ := splitBytes?_eq_some_iff.mp hsplit
      exact splitBytes?_eq_some_iff.mpr ⟨(List.append_assoc front a b).symm, size_append front a⟩
  | none =>
      cases h : splitBytes? (front.size + n) (front ++ rest) with
      | none => rfl
      | some p =>
          obtain ⟨a, b⟩ := p
          obtain ⟨hjoin, hsize⟩ := splitBytes?_eq_some_iff.mp h
          rcases List.append_eq_append_iff.mp hjoin with ⟨c, rfl, rfl⟩ | ⟨c, rfl, rfl⟩
          · rw [size_append, Nat.add_left_cancel_iff] at hsize
            rw [splitBytes?_eq_some_iff.mpr ⟨rfl, hsize⟩] at hsplit
            cases hsplit
          · have hzero : c = [] := by
              by_contra hne
              have := size_pos hne
              rw [size_append] at hsize
              omega
            subst hzero
            obtain rfl : n = 0 := by simpa using hsize
            rw [splitBytes?] at hsplit
            cases hsplit

theorem slice?_append (a b c : Text) : slice? (a ++ b ++ c) a.size (a ++ b).size = some b := by
  simp only [slice?, splitBytes?_size, Option.bind_eq_bind, Option.bind_some, Option.pure_def]

theorem slice?_end (a b : Text) : slice? (a ++ b) a.size (a ++ b).size = some b := by
  simpa using slice?_append a b []

theorem slice?_behind (a b c : Text) :
    slice? (a ++ (b ++ c)) (a.size + b.size) (a ++ (b ++ c)).size = some c := by
  simpa [size_append, Nat.add_assoc] using slice?_end (a ++ b) c

/-- Nothing is cut one byte behind the start of a character of more bytes. -/
theorem slice?_inside (front rest : Text) {c : Char} (hc : c.utf8Size ≠ 1) :
    slice? (front ++ c :: rest) (front.size + 1) (front ++ c :: rest).size = none := by
  have hpos := c.utf8Size_pos
  have hinside : splitBytes? 1 (c :: rest) = none := by rw [splitBytes?, if_neg (by omega)]
  have hall := splitBytes?_size (front ++ c :: rest) []
  rw [List.append_nil] at hall
  simp only [slice?, hall, Option.bind_eq_bind, Option.bind_some, splitBytes?_append, hinside,
    Option.map_none, Option.bind_none]

/-- A part that ends inside of a character cannot be cut out. -/
theorem slice?_torn (front rest : Text) {n : Nat} (hn : splitBytes? n rest = none) :
    slice? (front ++ rest) front.size (front.size + n) = none := by
  simp only [slice?, splitBytes?_append, hn, Option.map_none, Option.bind_eq_bind, Option.bind_none]

end ChartPackage.Text
