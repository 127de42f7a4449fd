import Mathlib
import ChartPackage.Json.Decode
import ChartPackage.Proofs.Json.Rereading
import ChartPackage.Proofs.Number.Shortest

/-!
Doubles in JSON. The number that is written for a double can be read back, and what it is read back
as is the double again where all steps of the fast reading are exact.
-/

namespace ChartPackage

/-! ### What is written -/

theorem Shortest.digits_ofUnits (units : Nat) : Json.Digits (ofUnits units).digits := by
  refine ⟨?_, fun c hc => isDigit_of_mem_digits hc⟩
  by_cases h : units = 0
  · rw [ofUnits, if_pos h]
    exact List.cons_ne_nil _ _
  · exact (head_digits_ofUnits h).1

namespace Json

theorem isDigit_of_mem_zeros {n : Nat} {c : Char} (h : c ∈ List.replicate n '0') :
    c.isDigit = true := by
  rw [List.eq_of_mem_replicate h]
  rfl

theorem digits_zero : Digits ['0'] := ⟨List.cons_ne_nil _ _, fun _ => isDigit_of_mem_zeros (n := 1)⟩

theorem isDigit_of_mem_append {a b : Text} (ha : ∀ c ∈ a, c.isDigit = true)
    (hb : ∀ c ∈ b, c.isDigit = true) {c : Char}
    (hc : c ∈ a ++ b) : c.isDigit = true := by
  cases List.mem_append.mp hc with
  | inl hc => exact ha c hc
  | inr hc => exact hb c hc

/-- The number written for a double has no empty part, and no superfluous zero in front. -/
theorem proper_ofShortest (negative : Bool) (units : Nat) :
    (Literal.ofShortest negative (Shortest.ofUnits units)).Proper := by
  have hdigits := Shortest.digits_ofUnits units
  have hlead : (Shortest.ofUnits units).digits.head? = some '0' →
      Shortest.ofUnits units = ⟨['0'], 1⟩ := by
    intro hhead
    by_cases h : units = 0
    · rw [Shortest.ofUnits, if_pos h]
    · exact absurd hhead (Shortest.head_digits_ofUnits h).2
  generalize Shortest.ofUnits units = s at *
  obtain ⟨digits, point⟩ := s
  obtain ⟨hne, hall⟩ := hdigits
  obtain ⟨d, digits, rfl⟩ := List.exists_cons_of_ne_nil hne
  have htake : ∀ k, ∀ c ∈ (d :: digits).take k, c.isDigit = true := fun k c hc =>
    hall c (List.mem_of_mem_take hc)
  have hdrop : ∀ k, (d :: digits).drop k ≠ [] → Digits ((d :: digits).drop k) := fun k hk =>
    ⟨hk, fun c hc => hall c (List.mem_of_mem_drop hc)⟩
  have hnone : ∀ sign exponent, (none : Option (ExponentSign × Text)) = some (sign, exponent) →
      Digits exponent := by
    intro sign exponent h
    cases h
  rw [Literal.ofShortest]
  dsimp only at hall hlead ⊢
  split
  · split
    · refine ⟨digits_zero, fun _ => rfl, ?_, hnone⟩
      intro fraction h
      obtain rfl := Option.some.inj h
      exact ⟨List.append_ne_nil_of_right_ne_nil _ hne, fun c =>
        isDigit_of_mem_append (fun _ => isDigit_of_mem_zeros) hall⟩
    · next hpoint =>
        obtain ⟨k, hk⟩ : ∃ k, point.toNat = k + 1 := ⟨point.toNat - 1, by omega⟩
        refine ⟨⟨?_, fun c => isDigit_of_mem_append (htake _) fun _ => isDigit_of_mem_zeros⟩,
          ?_, ?_, hnone⟩
        · rw [hk]
          exact List.cons_ne_nil _ _
        · intro hhead
          rw [hk] at hhead
          cases hlead hhead
          rfl
        · intro fraction h
          obtain rfl := Option.some.inj h
          split
          · exact digits_zero
          · next hrest => exact hdrop _ hrest
  · refine ⟨⟨List.cons_ne_nil _ _, htake 1⟩, ?_, ?_, ?_⟩
    · intro hhead
      exact congrArg (· :: []) (Option.some.inj hhead)
    · intro fraction h
      split at h
      · cases h
      · next hrest =>
          obtain rfl := Option.some.inj h
          exact hdrop 1 hrest
    · intro sign exponent h
      obtain ⟨-, rfl⟩ := Prod.mk.inj (Option.some.inj h)
      exact ⟨Numeral.ofNat_ne_nil _, fun c => Numeral.isDigit_of_mem_ofNat⟩

theorem readable_double (b : Binary64) : Readable (double b) := by
  cases b with
  | nan => exact .null
  | infinite negative => exact .null
  | finite negative units h => exact .number (proper_ofShortest negative units)

/-! ### What a number is read as -/

/-- What a double is read back as. One that is no number is written as `null`. -/
def reread? (b : Binary64) : Option Binary64 := (nullable? double? (double b)).map (·.getD .nan)

namespace FastDouble
open Binary64

/-- Digits that fit 64 bits are all taken. -/
theorem gather_of_fits {significand : Nat} {digits : Text}
    (h : significand * 10 ^ digits.length + Numeral.value digits < 2 ^ 64) :
    gather significand digits = (significand * 10 ^ digits.length + Numeral.value digits,
      digits.length, 0) := by
  induction digits generalizing significand with
  | nil =>
      rw [gather, List.length_nil, Nat.pow_zero, Nat.mul_one]
      rfl
  | cons d digits ih =>
      have hnext : significand * 10 ^ (d :: digits).length + Numeral.value (d :: digits) =
          (10 * significand + Numeral.digitValue d) * 10 ^ digits.length +
            Numeral.value digits := by
        rw [Numeral.value_cons, List.length_cons, Nat.pow_succ]
        ring
      rw [hnext] at h ⊢
      have hfits : 10 * significand + Numeral.digitValue d < 2 ^ 64 := by
        refine Nat.lt_of_le_of_lt ?_ h
        refine Nat.le_trans ?_ (Nat.le_add_right _ _)
        exact Nat.le_mul_of_pos_right _ (Nat.pow_pos (by decide))
      rw [gather]
      dsimp only
      rw [if_pos hfits, ih h, List.length_cons]

end FastDouble

/-- All digits of a number. -/
def Literal.digits (l : Literal) : Text := l.whole ++ l.fraction.getD []

/-- The power of ten that the exponent of a number stands for. -/
def Literal.shift (l : Literal) : Int :=
  match l.exponent with
  | none => 0
  | some (sign, size) => if sign = .minus then -Numeral.value size else Numeral.value size

/-- The place of the last digit of a number. -/
def Literal.place (l : Literal) : Int := l.shift - (l.fraction.getD []).length

namespace FastDouble

/-- A number with few digits is read whole. -/
theorem units?_of_fits {l : Literal} (hdigits : Numeral.value l.digits < 2 ^ 64)
    (hshift : l.shift.natAbs < 2 ^ 31)
    (hplace : l.place.natAbs < 2 ^ 31) : units? l = scale? (Numeral.value l.digits) l.place := by
  rw [Literal.digits, Numeral.value_append] at hdigits ⊢
  rw [Literal.place] at hplace ⊢
  generalize hfraction : l.fraction.getD [] = fraction at *
  have hwhole : Numeral.value l.whole < 2 ^ 64 := by
    refine Nat.lt_of_le_of_lt ?_ hdigits
    exact Nat.le_trans (Nat.le_mul_of_pos_right _ (Nat.pow_pos (by decide))) (Nat.le_add_right _ _)
  have hfirst : gather 0 l.whole = _ := gather_of_fits (by rwa [Nat.zero_mul, Nat.zero_add])
  rw [Nat.zero_mul, Nat.zero_add] at hfirst
  rw [units?, hfirst]
  dsimp only
  rw [hfraction, gather_of_fits hdigits]
  dsimp only
  rw [Literal.shift] at hshift hplace ⊢
  cases hexponent : l.exponent with
  | none =>
      dsimp only
      congr 1
  | some exponent =>
      obtain ⟨sign, size⟩ := exponent
      rw [hexponent] at hshift hplace
      dsimp only at hshift hplace ⊢
      have hsize : ¬ 2 ^ 31 ≤ Numeral.value size := by
        split at hshift
        all_goals omega
      rw [if_neg hsize, clampExponent]
      congr 1
      split at hplace
      · next hminus =>
          rw [if_pos hminus, if_pos hminus]
          omega
      · next hminus =>
          rw [if_neg hminus, if_neg hminus]
          omega

end FastDouble

/-- Zeros that are written behind a decimal up to its point, and the one behind the point. -/
def padding (s : Shortest) : Nat :=
  if s.point ≤ 16 then (s.point + 1 - s.digits.length).toNat else 0

/-- A number is a decimal with its padding. -/
structure Literal.Spells (l : Literal) (s : Shortest) : Prop where
  digits : Numeral.value l.digits = Numeral.value s.digits * 10 ^ padding s
  place : l.place = s.point - s.digits.length - padding s
  shift : l.shift = 0 ∨ l.shift = s.point - 1

section

variable {digits : Text} {point : Int} (negative : Bool)

theorem spells_below_one (hne : digits ≠ []) (hpoint : point ≤ 0) :
    Literal.Spells ⟨negative, ['0'], some (List.replicate (-point).toNat '0' ++ digits), none⟩
      ⟨digits, point⟩ := by
  have hlength : 0 < digits.length := List.length_pos_of_ne_nil hne
  have hnone : padding ⟨digits, point⟩ = 0 := by
    rw [padding]
    dsimp only
    split
    all_goals omega
  refine ⟨?_, ?_, Or.inl rfl⟩
  · rw [Literal.digits, hnone, Option.getD_some, Numeral.value_append, Numeral.value_append,
      Numeral.value_zeros]
    have hzero : Numeral.value ['0'] = 0 := rfl
    rw [hzero, Nat.zero_mul, Nat.zero_mul, Nat.zero_add, Nat.zero_add, Nat.pow_zero, Nat.mul_one]
  · rw [Literal.place, hnone, Option.getD_some, List.length_append, List.length_replicate,
      Literal.shift]
    dsimp only
    omega

theorem spells_fraction (hpoint : 0 < point) (hhigh : point ≤ 16)
    (hlong : point.toNat < digits.length) :
    Literal.Spells ⟨negative, digits.take point.toNat, some (digits.drop point.toNat), none⟩
      ⟨digits, point⟩ := by
  have hnone : padding ⟨digits, point⟩ = 0 := by
    rw [padding, if_pos hhigh]
    dsimp only
    omega
  refine ⟨?_, ?_, Or.inl rfl⟩
  · rw [Literal.digits, hnone, Option.getD_some, List.take_append_drop, Nat.pow_zero, Nat.mul_one]
  · rw [Literal.place, hnone, Option.getD_some, List.length_drop, Literal.shift]
    dsimp only
    omega

theorem spells_whole (hhigh : point ≤ 16) (hshort : (digits.length : Int) ≤ point) :
    Literal.Spells ⟨negative, digits ++ List.replicate (point - digits.length).toNat '0',
      some ['0'], none⟩
      ⟨digits, point⟩ := by
  have hzeros : padding ⟨digits, point⟩ = (point - digits.length).toNat + 1 := by
    rw [padding, if_pos hhigh]
    dsimp only
    omega
  refine ⟨?_, ?_, Or.inl rfl⟩
  · rw [Literal.digits, hzeros, Option.getD_some, List.append_assoc, ← List.replicate_succ',
      Numeral.value_append,
      Numeral.value_zeros, List.length_replicate, Nat.add_zero]
  · rw [Literal.place, hzeros, Option.getD_some, List.length_singleton, Literal.shift]
    dsimp only
    omega

theorem spells_exponent {d : Char} {rest : Text} (hpoint : positional point = false) :
    Literal.Spells ⟨negative, [d], if rest = [] then none else some rest,
      some (if point - 1 < 0 then .minus else .plus, Numeral.ofNat (point - 1).natAbs)⟩
        ⟨d :: rest, point⟩ := by
  have hrest : (if rest = [] then none else some rest).getD [] = rest := by
    split
    · next h => exact h.symm
    · rfl
  have hnone : padding ⟨d :: rest, point⟩ = 0 := by
    simp only [positional, Bool.and_eq_false_iff, decide_eq_false_iff_not] at hpoint
    rw [padding, List.length_cons]
    dsimp only
    split
    all_goals omega
  have hshift : Literal.shift ⟨negative, [d], if rest = [] then none else some rest,
      some (if point - 1 < 0 then .minus else .plus, Numeral.ofNat (point - 1).natAbs)⟩ =
        point - 1 := by
    rw [Literal.shift]
    dsimp only
    rw [Numeral.value_ofNat]
    by_cases hminus : point - 1 < 0
    · rw [if_pos hminus, if_pos rfl]
      omega
    · rw [if_neg hminus, if_neg ExponentSign.noConfusion]
      omega
  refine ⟨?_, ?_, Or.inr hshift⟩
  · rw [Literal.digits, hnone, hrest, List.singleton_append, Nat.pow_zero, Nat.mul_one]
  · rw [Literal.place, hshift, hnone, hrest, List.length_cons]
    dsimp only
    omega

end

/-- What is written for a decimal spells it. -/
theorem spells_ofShortest (negative : Bool) {s : Shortest} (hne : s.digits ≠ []) :
    (Literal.ofShortest negative s).Spells s := by
  obtain ⟨digits, point⟩ := s
  rw [Literal.ofShortest]
  dsimp only at hne ⊢
  by_cases hpositional : positional point = true
  · rw [if_pos hpositional]
    have hhigh : point ≤ 16 := of_decide_eq_true (Bool.and_eq_true_iff.mp hpositional).2
    split
    · next hpoint => exact spells_below_one negative hne hpoint
    · next hpoint =>
        by_cases hlong : point.toNat < digits.length
        · have hrest : digits.drop point.toNat ≠ [] := by
            rw [ne_eq, List.drop_eq_nil_iff]
            omega
          have hzeros : (point - digits.length).toNat = 0 := by omega
          rw [if_neg hrest, hzeros, List.replicate_zero, List.append_nil]
          exact spells_fraction negative (Int.not_le.mp hpoint) hhigh hlong
        · have hrest : digits.drop point.toNat = [] := by
            rw [List.drop_eq_nil_iff]
            omega
          rw [if_pos hrest, List.take_of_length_le (Nat.not_lt.mp hlong)]
          exact spells_whole negative hhigh (by omega)
  · rw [if_neg hpositional]
    obtain ⟨d, rest, rfl⟩ := List.exists_cons_of_ne_nil hne
    exact spells_exponent negative (eq_false_of_ne_true hpositional)

theorem negative_ofShortest (negative : Bool) (s : Shortest) :
    (Literal.ofShortest negative s).negative = negative := by
  rw [Literal.ofShortest]
  repeat' split
  all_goals rfl

/-! ### Exact steps -/

namespace FastDouble
open Binary64 Shortest

/-- Whole numbers that are doubles. -/
def Exact (n : Nat) : Prop := Representable (n * unitsPerOne)

theorem exact_mul_pow {m k : Nat} (hm : m < 2 ^ 53) (hk : k ≤ 900) : Exact (m * 2 ^ k) := by
  have hunits : m * 2 ^ k * unitsPerOne = m * 2 ^ (k + 1074) := by
    rw [Nat.mul_assoc, Nat.pow_add]
    rfl
  rw [Exact, hunits]
  exact representable_mul_pow hm (by omega)

/-- Up to fifteen digits are exact, and so are sixteen with a zero at the end. -/
theorem exact_of_digits {n count zeros : Nat} (hn : n < 10 ^ count) (hcount : count ≤ 15)
    (hzeros : count + zeros ≤ 16) :
    Exact (n * 10 ^ zeros) := by
  cases zeros with
  | zero =>
      have hsmall : (10 : Nat) ^ count ≤ 10 ^ 15 := Nat.pow_le_pow_right (Nat.succ_pos 9) hcount
      exact exact_mul_pow (k := 0) (by omega) (Nat.zero_le _)
  | succ zeros =>
      have hsmall : (10 : Nat) ^ (count + zeros) ≤ 10 ^ 15 :=
        Nat.pow_le_pow_right (Nat.succ_pos 9) (by omega)
      have hbelow : n * 10 ^ zeros < 10 ^ (count + zeros) := by
        rw [Nat.pow_add]
        exact Nat.mul_lt_mul_of_pos_right hn (Nat.pow_pos (Nat.succ_pos 9))
      have hhalf : n * 10 ^ (zeros + 1) = n * 10 ^ zeros * 5 * 2 ^ 1 := by
        rw [Nat.pow_succ]
        ring
      rw [hhalf]
      exact exact_mul_pow (by omega) (by omega)

theorem ofNat_eq {n : Nat} (h : Exact n) : ofNat n = n * unitsPerOne := by
  have hround := nearestUnits_of_exact h Nat.one_pos
  rwa [Nat.mul_one] at hround

theorem powerOfTen_eq {k : Nat} (hk : k ≤ 22) : powerOfTen k = 10 ^ k * unitsPerOne := by
  have hfive : (5 : Nat) ^ k < 2 ^ 53 :=
    Nat.lt_of_le_of_lt (Nat.pow_le_pow_right (Nat.succ_pos 4) hk) (by decide)
  have hten : (10 : Nat) ^ k = 5 ^ k * 2 ^ k := Nat.mul_pow 5 2 k
  refine ofNat_eq ?_
  rw [hten]
  exact exact_mul_pow hfive (by omega)

/-- A division of a double by a power of ten that is one rounds once. -/
theorem scale?_of_exact {n k : Nat} (hn : Exact n) (hpos : 0 < k) (hk : k ≤ 22) :
    scale? n (-k) = some (nearestUnits (n * unitsPerOne) (10 ^ k)) := by
  have hnegative : -(k : Int) < 0 := by omega
  rw [scale?]
  dsimp only
  rw [if_pos hnegative, Int.neg_neg, Int.toNat_natCast, scaleDown, if_pos (by omega),
    dividedBy, ofNat_eq hn,
    powerOfTen_eq hk, Nat.mul_comm (n * unitsPerOne), Nat.mul_comm (10 ^ k),
      nearestUnits_mul unitsPerOne_pos]

end FastDouble

/-- The decimals of few digits that are neither very large nor very fine. -/
structure Brief (s : Shortest) : Prop where
  few : s.digits.length ≤ 15
  small : s.point ≤ 15
  coarse : s.digits.length ≤ s.point + 22

open Binary64 FastDouble in
/-- A double with a brief decimal is read back. -/
theorem toBinary64?_of_brief (negative : Bool) {units : Nat} (h : Representable units)
    (hbrief : Brief (Shortest.ofUnits units)) :
    (Literal.ofShortest negative (Shortest.ofUnits units)).toBinary64? = some
    (.finite negative units h) := by
  have hdigits := Shortest.digits_ofUnits units
  have hspells := spells_ofShortest negative hdigits.1
  have hround : ∀ num den : Nat, 0 < den →
      (num : ℚ) / den = (Shortest.ofUnits units).value * unitsPerOne →
      nearestUnits num den = units := fun _ _ => Shortest.nearestUnits_of_value h
  have hnegative := negative_ofShortest negative (Shortest.ofUnits units)
  rw [Shortest.value] at hround
  generalize Shortest.ofUnits units = s at *
  generalize Literal.ofShortest negative s = l at *
  obtain ⟨hfew, hsmall, hcoarse⟩ := hbrief
  obtain ⟨hvalue, hplace, hshift⟩ := hspells
  have hlength : 0 < s.digits.length := List.length_pos_of_ne_nil hdigits.1
  have hbelow := Numeral.value_lt hdigits.2
  have hpadding : padding s = (s.point + 1 - s.digits.length).toNat := by
    rw [padding, if_pos (by omega)]
  have hexact : Exact (Numeral.value s.digits * 10 ^ padding s) := by
    refine exact_of_digits hbelow hfew ?_
    omega
  have hfits : Numeral.value s.digits * 10 ^ padding s < 2 ^ 64 := by
    refine Nat.lt_of_lt_of_le (Nat.mul_lt_mul_of_pos_right hbelow (Nat.pow_pos (Nat.succ_pos 9))) ?_
    rw [← Nat.pow_add]
    exact Nat.le_trans (Nat.pow_le_pow_right (Nat.succ_pos 9) (by omega : _ ≤ 16)) (by decide)
  obtain ⟨k, hk, hk'⟩ : ∃ k : Nat, l.place = -k ∧ 0 < k ∧ k ≤ 22 := ⟨(-l.place).toNat, by omega⟩
  rw [Literal.toBinary64?, units?_of_fits (by rwa [hvalue]) (by omega) (by omega), hvalue, hk,
    scale?_of_exact hexact hk'.1 hk'.2, hround _ _ (Nat.pow_pos (by decide)) ?_, hnegative]
  · rw [Option.map_some, ofUnits, dif_pos h]
  · rw [hplace] at hk
    have hscale : s.point - s.digits.length = padding s - k := by omega
    rw [hscale, zpow_sub₀ (by norm_num), zpow_natCast, zpow_natCast]
    push_cast
    ring

end Json

/-- A double as JSON tells it: those that are no number are all one. -/
def Binary64.numeric : Binary64 → Binary64
  | .finite negative units h => .finite negative units h
  | .infinite _ | .nan => .nan

namespace Json

theorem double_numeric (b : Binary64) : double b.numeric = double b := by
  cases b with
  | nan => rfl
  | infinite negative => rfl
  | finite negative units h => rfl

/-- A double that is read back as itself, or as no number if it is none. -/
def Restored (b : Binary64) : Prop := reread? b = some b.numeric

instance (b : Binary64) : Decidable (Restored b) := inferInstanceAs (Decidable (_ = _))

theorem restored_of_brief {b : Binary64}
    (h : ∀ negative units representable, b = .finite negative units representable →
      Brief (Shortest.ofUnits units)) :
    Restored b := by
  cases b with
  | nan => rfl
  | infinite negative => rfl
  | finite negative units representable =>
      have hread := toBinary64?_of_brief negative representable (h _ _ _ rfl)
      change ((Literal.toBinary64? _).map some).map _ = _
      rw [hread]
      rfl

end Json
end ChartPackage
