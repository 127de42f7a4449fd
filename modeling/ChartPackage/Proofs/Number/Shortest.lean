import Mathlib
import ChartPackage.Number.Shortest
import ChartPackage.Proofs.Number.Nearest
import ChartPackage.Proofs.Number.Numerals

/-!
The shortest decimal of a double names it: of all doubles it is the one that the decimal is rounded
to.
-/

namespace ChartPackage

theorem Rounding.halfEven_cases (num den : Nat) :
    halfEven num den = num / den ∨ halfEven num den = num / den + 1 := by
  rw [halfEven]
  split
  · exact Or.inl rfl
  · split
    · exact Or.inr rfl
    · cases Nat.mod_two_eq_zero_or_one (num / den) with
      | inl h => exact Or.inl (by rw [h, Nat.add_zero])
      | inr h => exact Or.inr (by rw [h])

namespace Shortest
open Binary64 Rounding

theorem upscale_pos (place : Int) : 0 < upscale place := Nat.pow_pos (by decide)

theorem unitsPerOne_pos : 0 < unitsPerOne := by
  unfold unitsPerOne
  positivity

section

variable {units n : Nat} {place : Int}

/-- A gap within the bound, which counts as within for an even significand only. -/
theorem within_iff {gap step significand : Nat} :
    decide (if significand % 2 = 0 then gap ≤ step else gap < step) = true ↔
      gap ≤ step ∧ (gap = step → significand % 2 = 0) := by
  rw [decide_eq_true_eq]
  split
  · next heven => exact ⟨fun h => ⟨h, fun _ => heven⟩, And.left⟩
  · next hodd =>
      constructor
      · intro h
        exact ⟨h.le, fun heq => absurd heq h.ne⟩
      · intro h
        exact lt_of_le_of_ne h.1 fun heq => hodd (h.2 heq)

/-- A decimal that reads back is rounded to the double that it reads back as. -/
theorem nearestUnits_of_readsBack (h : Representable units)
    (hback : readsBack units place n = true) :
    nearestUnits (n * spacing place) (upscale place) = units := by
  have hup := upscale_pos place
  rw [readsBack] at hback
  generalize n * spacing place = num at *
  generalize upscale place = den at *
  dsimp only at hback
  by_cases habove : units * den ≤ num
  · rw [if_pos habove, within_iff, Nat.mul_comm (2 ^ lostBits units)] at hback
    exact nearestUnits_of_above h hup (Nat.add_sub_of_le habove).symm hback.1 hback.2
  · have hbelow := Nat.not_le.mp habove
    rw [if_neg habove] at hback
    by_cases hpower : units = 2 ^ units.log2 ∧ 0 < lostBits units
    · rw [if_pos hpower, within_iff] at hback
      obtain ⟨hunits, hlost⟩ := hpower
      obtain ⟨k, hk⟩ : ∃ k, lostBits units = k + 1 := ⟨lostBits units - 1, by omega⟩
      have hlog : units.log2 = 53 + k := by
        rw [lostBits] at hk
        omega
      rw [hlog] at hunits
      rw [hk, Nat.pow_succ] at hback
      rw [hunits] at hbelow hback ⊢
      refine nearestUnits_below_power (Nat.sub_pos_of_lt hbelow) (Nat.add_sub_of_le hbelow.le) ?_
      have hstep : 2 ^ k * 2 * den = 2 * (den * 2 ^ k) := by ring
      omega
    · rw [if_neg hpower, within_iff, Nat.mul_comm (2 ^ lostBits units)] at hback
      refine nearestUnits_of_below h (Nat.sub_pos_of_lt hbelow)
        (Nat.add_sub_of_le hbelow.le) hback.1 hback.2 ?_
      by_cases hlost : lostBits units = 0
      · exact Or.inr hlost
      · left
        intro heq
        refine hpower ⟨?_, by omega⟩
        have hlog : 52 + lostBits units = units.log2 := by
          rw [lostBits] at hlost ⊢
          omega
        rw [← hlog]
        exact heq

/-- Nothing above zero is rounded to zero by its shortest decimal. -/
theorem ne_zero_of_readsBack (hunits : units ≠ 0) (hback : readsBack units place n = true) :
    n ≠ 0 := by
  rintro rfl
  have hup := upscale_pos place
  have hstep : 2 ^ lostBits units ≤ units := by
    refine Nat.le_trans (Nat.pow_le_pow_right (by decide) ?_) (Nat.log2_self_le hunits)
    rw [lostBits]
    omega
  rw [readsBack] at hback
  generalize upscale place = den at *
  dsimp only at hback
  rw [Nat.zero_mul, Nat.sub_zero] at hback
  have hexact := Nat.mul_pos (Nat.pos_of_ne_zero hunits) hup
  have hlarge := Nat.mul_le_mul_right den hstep
  rw [if_neg (by omega)] at hback
  split at hback
  all_goals
    rw [within_iff] at hback
    omega

theorem readsBack_of_onGrid? (h : onGrid? units place = some n) :
    readsBack units place n = true := by
  rw [onGrid?] at h
  split at h
  · next hbelow habove =>
      obtain rfl := Option.some.inj h
      cases halfEven_cases (units * upscale place) (spacing place) with
      | inl heq => exact (congrArg (readsBack units place) heq).trans hbelow
      | inr heq => exact (congrArg (readsBack units place) heq).trans habove
  · next hbelow _ =>
      obtain rfl := Option.some.inj h
      exact hbelow
  · next _ habove =>
      obtain rfl := Option.some.inj h
      exact habove
  · cases h

theorem readsBack_of_exact (h : n * spacing place = units * upscale place) :
    readsBack units place n = true := by
  have hpow := Nat.two_pow_pos (lostBits units)
  have hstep := Nat.mul_pos hpow (upscale_pos place)
  rw [readsBack, h]
  dsimp only
  rw [if_pos (Nat.le_refl _), within_iff]
  omega

/-- The exact expansion, of as many places as halvings make one unit. -/
theorem expansion_eq (units places : Nat) :
    units * 5 ^ places * (2 ^ places * 10 ^ (-(places : Int)).toNat) =
      units * 10 ^ (- -(places : Int)).toNat := by
  have hnone : (-(places : Int)).toNat = 0 := by omega
  rw [hnone, Int.neg_neg, Int.toNat_natCast, Nat.pow_zero, Nat.mul_one, Nat.mul_assoc,
    ← Nat.mul_pow]

theorem readsBack_nearest (units : Nat) :
    readsBack units (nearest units).2 (nearest units).1 = true := by
  rw [nearest]
  cases hhit : (List.range' 1 17).findSome? fun (count : Nat) =>
      (onGrid? units (leadingPlace units - count)).map fun n => (n, leadingPlace units - count) with
  | some hit =>
      obtain ⟨count, -, hgrid⟩ := List.exists_of_findSome?_eq_some hhit
      obtain ⟨n, hn, rfl⟩ := Option.map_eq_some_iff.mp hgrid
      rw [Option.getD_some]
      exact readsBack_of_onGrid? hn
  | none =>
      obtain ⟨places, hplaces, hone⟩ := exists_unitsPerOne_eq
      have hplace : (-1074 : Int) = -places := by omega
      rw [Option.getD_none, ← hplaces, hplace]
      refine readsBack_of_exact ?_
      rw [spacing, upscale, hone]
      exact expansion_eq units places

end

/-- The number that a decimal denotes. -/
def value (s : Shortest) : ℚ := Numeral.value s.digits * 10 ^ (s.point - s.digits.length)

theorem spacing_div_upscale (place : Int) :
    (spacing place : ℚ) / upscale place = (10 : ℚ) ^ place * unitsPerOne := by
  rw [spacing, upscale]
  push_cast
  obtain ⟨k, rfl | rfl⟩ := Int.eq_nat_or_neg place
  · have hnone : (-(k : Int)).toNat = 0 := by omega
    rw [hnone, Int.toNat_natCast, zpow_natCast, pow_zero, div_one, mul_comm]
  · have hnone : (-(k : Int)).toNat = 0 := by omega
    rw [hnone, neg_neg, Int.toNat_natCast, zpow_neg, zpow_natCast, pow_zero, mul_one]
    ring

/-- Nothing but zeros is cut off. -/
theorem eq_trimRight_append (digits : Text) :
    ∃ zeros, digits = Text.trimRight (· == '0') digits ++ List.replicate zeros '0' := by
  obtain ⟨zeros, hzeros⟩ : ∃ zeros, digits.reverse.takeWhile (· == '0') =
      List.replicate zeros '0' :=
    ⟨_, List.eq_replicate_of_mem fun c hc =>
      of_decide_eq_true (List.all_eq_true.mp (List.all_takeWhile) c hc)⟩
  refine ⟨zeros, ?_⟩
  have hsplit := List.takeWhile_append_dropWhile (p := (· == '0')) (l := digits.reverse)
  rw [hzeros] at hsplit
  rw [Text.trimRight, ← List.reverse_replicate, ← List.reverse_append, hsplit, List.reverse_reverse]

/-- Zeros at the end are made up for by the place of the last digit. -/
theorem value_trimRight (digits : Text) (place : Int) :
    value ⟨Text.trimRight (· == '0') digits, digits.length + place⟩ = Numeral.value digits *
      (10 : ℚ) ^ place := by
  obtain ⟨zeros, hdigits⟩ := eq_trimRight_append digits
  rw [value]
  generalize Text.trimRight (· == '0') digits = kept at *
  subst hdigits
  have hplace : ((kept ++ List.replicate zeros '0').length : Int) + place - kept.length =
      zeros + place := by
    rw [List.length_append, List.length_replicate]
    omega
  rw [hplace, zpow_add₀ (by norm_num), zpow_natCast, Numeral.value_append, Numeral.value_zeros,
    List.length_replicate]
  push_cast
  ring

theorem value_ofUnits {units : Nat} (h : units ≠ 0) :
    (ofUnits units).value = (nearest units).1 * (10 : ℚ) ^ (nearest units).2 := by
  rw [ofUnits, if_neg h]
  dsimp only
  rw [value_trimRight, Numeral.value_ofNat]

/-- The decimal of a number above zero does not start with a zero. -/
theorem head_digits_ofUnits {units : Nat} (h : units ≠ 0) :
    (ofUnits units).digits ≠ [] ∧ (ofUnits units).digits.head? ≠ some '0' := by
  have hnonzero := ne_zero_of_readsBack h (readsBack_nearest units)
  rw [ofUnits, if_neg h]
  dsimp only
  generalize (nearest units).1 = n at *
  obtain ⟨zeros, hdigits⟩ := eq_trimRight_append (Numeral.ofNat n)
  have hkept : Text.trimRight (· == '0') (Numeral.ofNat n) ≠ [] := by
    intro hnone
    rw [hnone, List.nil_append] at hdigits
    have hvalue := Numeral.value_zeros zeros
    rw [← hdigits, Numeral.value_ofNat] at hvalue
    exact hnonzero hvalue
  refine ⟨hkept, fun hhead => hnonzero (Numeral.eq_zero_of_head ?_)⟩
  rwa [hdigits, List.head?_append_of_ne_nil _ hkept]

/-- The shortest decimal of a double names it: whatever is that number is rounded to the double. -/
theorem nearestUnits_of_value {units num den : Nat} (h : Representable units) (hden : 0 < den)
    (hvalue : (num : ℚ) / den = (ofUnits units).value * unitsPerOne) :
      nearestUnits num den = units := by
  have hden' : (den : ℚ) ≠ 0 := by exact_mod_cast hden.ne'
  by_cases hunits : units = 0
  · subst hunits
    have hnum : num = 0 := by
      have hzero : (ofUnits 0).value = 0 := by
        rw [value]
        exact mul_eq_zero_of_left Nat.cast_zero _
      rw [hzero, zero_mul, div_eq_zero_iff, or_iff_left hden'] at hvalue
      exact_mod_cast hvalue
    rw [hnum]
    simpa using nearestUnits_of_exact h hden
  · rw [value_ofUnits hunits] at hvalue
    have hback := readsBack_nearest units
    generalize nearest units = decimal at *
    obtain ⟨n, place⟩ := decimal
    have hup := upscale_pos place
    have hup' : (upscale place : ℚ) ≠ 0 := by exact_mod_cast hup.ne'
    rw [← nearestUnits_of_readsBack h hback]
    refine nearestUnits_congr hden hup ?_
    rw [mul_assoc, ← spacing_div_upscale, ← mul_div_assoc, div_eq_div_iff hden' hup'] at hvalue
    exact_mod_cast hvalue

end Shortest
end ChartPackage
