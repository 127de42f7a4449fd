import Mathlib
import ChartPackage.Proofs.Number.Numerals
import ChartPackage.Proofs.Number.Shortest

/-!
Numbers with a fixed count of decimal places. The digits of the exact expansion are cut off and
corrected by the first digit that is left out; what they denote is the multiple of the last place
that is nearest to the number, a tie away from zero.
-/

namespace ChartPackage

namespace Rounding

theorem halfUp_mul_right {k : Nat} (hk : 0 < k) (num den : Nat) :
    halfUp (num * k) (den * k) = halfUp num den := by
  have hnum : 2 * (num * k) + den * k = (2 * num + den) * k := by ring
  have hden : 2 * (den * k) = 2 * den * k := by ring
  rw [halfUp, halfUp, hnum, hden, Nat.mul_div_mul_right _ _ hk]

/-- What is left over counts from half on. -/
theorem halfUp_mul_add {n gap den : Nat} (h : gap < den) :
    halfUp (n * den + gap) den = n + if den ≤ 2 * gap then 1 else 0 := by
  have hden : 0 < 2 * den := by omega
  have hnum : 2 * (n * den + gap) + den = 2 * den * n + (2 * gap + den) := by ring
  rw [halfUp, hnum, Nat.mul_add_div hden]
  congr 1
  split
  · next hhalf =>
      rw [Nat.div_eq_of_lt_le] <;> omega
  · next hhalf => exact Nat.div_eq_of_lt (by omega)

end Rounding

namespace Numeral

theorem value_padLeft (width : Nat) (digits : Text) :
    value (padLeft width digits) = value digits := by
  rw [padLeft, value_append, value_zeros, Nat.zero_mul, Nat.zero_add]

theorem value_append_zeros (digits : Text) (n : Nat) :
    value (digits ++ List.replicate n '0') = value digits * 10 ^ n := by
  rw [value_append, value_zeros, List.length_replicate, Nat.add_zero]

/-- A run of digits is at least half of its next unit if its first digit is five or more. -/
theorem half_le_iff {digits : Text} (h : ∀ c ∈ digits, c.isDigit = true) :
    digits.head?.any ('5' ≤ ·) = true ↔ 10 ^ digits.length ≤ 2 * value digits := by
  cases digits with
  | nil => decide
  | cons c rest =>
      obtain ⟨hc, hrest⟩ := List.forall_mem_cons.mp h
      have hlow := value_lt hrest
      obtain ⟨n, hn, rfl⟩ := exists_digitChar hc
      have hfive : ∀ n < 10, ('5' ≤ n.digitChar ↔ 5 ≤ digitValue n.digitChar) := by decide
      rw [List.head?_cons, Option.any_some, decide_eq_true_iff, hfive n hn, value_cons,
        List.length_cons, Nat.pow_succ]
      generalize digitValue n.digitChar = m
      generalize (10 : Nat) ^ rest.length = unit at *
      constructor
      · intro hm
        have hprod := Nat.mul_le_mul_right unit hm
        omega
      · intro hhalf
        by_contra hm
        have hprod := Nat.mul_le_mul_right unit (Nat.le_of_lt_succ (Nat.not_le.mp hm))
        omega

end Numeral

namespace Fixed
open Binary64 (unitsPerOne)
open Numeral (value)
open Shortest (unitsPerOne_pos)

theorem fraction_lt (units : Nat) :
    units % unitsPerOne * 10 ^ exactPlaces / unitsPerOne < 10 ^ exactPlaces := by
  rw [Nat.div_lt_iff_lt_mul unitsPerOne_pos, Nat.mul_comm]
  exact Nat.mul_lt_mul_of_pos_left (Nat.mod_lt _ unitsPerOne_pos) (Nat.pow_pos (by decide))

theorem length_fraction (units : Nat) : (fraction units).length = exactPlaces := by
  have hshort := (Numeral.length_ofNat_le_iff (by decide)).mpr (fraction_lt units)
  rw [fraction, Numeral.padLeft, List.length_append, List.length_replicate]
  omega

/-- The expansion is exact. -/
theorem value_fraction (units : Nat) :
    value (fraction units) * unitsPerOne = units % unitsPerOne * 10 ^ exactPlaces := by
  have hdvd : unitsPerOne ∣ 10 ^ exactPlaces := by
    obtain ⟨places, hplaces, hone⟩ := Binary64.exists_unitsPerOne_eq
    rw [hone, exactPlaces, ← hplaces]
    exact pow_dvd_pow_of_dvd (by decide) places
  rw [fraction, Numeral.value_padLeft, Numeral.value_ofNat, Nat.div_mul_cancel (hdvd.mul_left _)]

theorem value_expansion (units : Nat) :
    value (whole units ++ fraction units) * unitsPerOne = units * 10 ^ exactPlaces := by
  have hsplit := Nat.div_add_mod' units unitsPerOne
  calc value (whole units ++ fraction units) * unitsPerOne
      = units / unitsPerOne * unitsPerOne * 10 ^ exactPlaces + value (fraction units) *
        unitsPerOne := by
        rw [Numeral.value_append, length_fraction, whole, Numeral.value_ofNat]
        ring
    _ = (units / unitsPerOne * unitsPerOne + units % unitsPerOne) * 10 ^ exactPlaces := by
        rw [value_fraction, Nat.add_mul]
    _ = units * 10 ^ exactPlaces := by rw [hsplit]

theorem truncated_of_le {places : Nat} (h : places ≤ exactPlaces) (units : Nat) :
    truncated units places = whole units ++ (fraction units).take places := by
  rw [truncated, length_fraction, Nat.min_eq_left h, Nat.sub_self, List.replicate_zero,
    List.append_nil]

theorem truncated_of_ge {places : Nat} (h : exactPlaces ≤ places) (units : Nat) :
    truncated units places = whole units ++ fraction units ++ List.replicate
      (places - exactPlaces) '0' := by
  rw [truncated, length_fraction, Nat.min_eq_right h,
    List.take_of_length_le (length_fraction units).le]

theorem length_truncated (units places : Nat) :
    (truncated units places).length = (whole units).length + places := by
  simp only [truncated, length_fraction, List.length_append, List.length_take,
    List.length_replicate]
  omega

/-- What is cut off decides whether one is added. -/
theorem halfUp_of_le {places : Nat} (h : places ≤ exactPlaces) (units : Nat) :
    Rounding.halfUp (units * 10 ^ places) unitsPerOne =
      value (truncated units places) + if (fraction units)[places]?.any
        ('5' ≤ ·) then 1 else 0 := by
  have hdigits : ∀ c ∈ (fraction units).drop places, c.isDigit = true :=
    fun c hc => isDigit_of_mem_fraction (List.mem_of_mem_drop hc)
  have hlength : ((fraction units).drop places).length = exactPlaces - places := by
    rw [List.length_drop, length_fraction]
  have hlow := Numeral.value_lt hdigits
  have hhalf := Numeral.half_le_iff hdigits
  rw [hlength] at hlow hhalf
  have hscaled : units * 10 ^ places * 10 ^ (exactPlaces - places) =
      (value (truncated units places) * 10 ^ (exactPlaces - places) +
        value ((fraction units).drop places)) *
        unitsPerOne := by
    have happend := Numeral.value_append (truncated units places) ((fraction units).drop places)
    rw [hlength, truncated_of_le h, List.append_assoc, List.take_append_drop] at happend
    rw [truncated_of_le h, ← happend, value_expansion, Nat.mul_assoc, ← Nat.pow_add,
      Nat.add_sub_cancel' h]
  have hscale : (0 : Nat) < 10 ^ (exactPlaces - places) := Nat.pow_pos (by decide)
  rw [← Rounding.halfUp_mul_right hscale, hscaled, Nat.mul_comm unitsPerOne,
    Rounding.halfUp_mul_right unitsPerOne_pos, Rounding.halfUp_mul_add hlow]
  rw [List.head?_drop] at hhalf
  simp only [hhalf]

theorem halfUp_of_ge {places : Nat} (h : exactPlaces ≤ places) (units : Nat) :
    Rounding.halfUp (units * 10 ^ places) unitsPerOne = value (truncated units places) := by
  have hscaled : units * 10 ^ places = value (truncated units places) * unitsPerOne + 0 := by
    rw [truncated_of_ge h, Numeral.value_append_zeros, Nat.mul_right_comm, value_expansion,
      Nat.mul_assoc,
      ← Nat.pow_add, Nat.add_sub_cancel' h, Nat.add_zero]
  have hone : ¬ unitsPerOne ≤ 2 * 0 := Nat.not_le.mpr unitsPerOne_pos
  rw [hscaled, Rounding.halfUp_mul_add unitsPerOne_pos, if_neg hone, Nat.add_zero]

/-- Cutting off and correcting the digits is rounding. -/
theorem value_rounded (units places : Nat) :
    value (rounded units places) = Rounding.halfUp (units * 10 ^ places) unitsPerOne := by
  rw [rounded]
  rcases Nat.le_total places exactPlaces with h | h
  · rw [length_fraction, Nat.min_eq_left h, halfUp_of_le h]
    split
    · exact Numeral.value_addOne fun _ => isDigit_of_mem_truncated
    · rfl
  · have hnone : (fraction units)[exactPlaces]? = none :=
      List.getElem?_eq_none (length_fraction units).le
    rw [length_fraction, Nat.min_eq_right h, hnone, if_neg (by simp), halfUp_of_ge h]

theorem length_rounded_le (units places : Nat) :
    (whole units).length + places ≤ (rounded units places).length := by
  rw [← length_truncated, rounded]
  split
  · rcases Numeral.length_addOne fun _ => isDigit_of_mem_truncated with hsame | hmore
    · exact hsame.ge
    · rw [hmore.1]
      exact Nat.le_succ _
  · exact le_rfl

/-- There is no superfluous zero in front of the rounded digits. -/
theorem rounded_low (units places : Nat) : (rounded units places).length = places + 1 ∨
    10 ^ ((rounded units places).length - 1) ≤ value (rounded units places) := by
  have hlow : (truncated units places).length = places + 1 ∨
      10 ^ ((truncated units places).length - 1) ≤ value (truncated units places) := by
    rw [length_truncated]
    have hpos : 0 < (whole units).length := List.length_pos_of_ne_nil (Numeral.ofNat_ne_nil _)
    by_cases hone : (whole units).length = 1
    · exact Or.inl (by omega)
    · refine Or.inr ?_
      have hlarge : 10 ^ ((whole units).length - 1) ≤ units / unitsPerOne := by
        by_contra hless
        have hshort := (Numeral.length_ofNat_le_iff (by omega)).mpr (Nat.not_le.mp hless)
        rw [whole] at hshort hpos
        omega
      obtain ⟨tail, htail⟩ : ∃ tail, truncated units places = whole units ++ tail :=
        ⟨_, List.append_assoc _ _ _⟩
      have hlength : tail.length = places := by
        have hall := length_truncated units places
        rw [htail, List.length_append] at hall
        omega
      calc 10 ^ ((whole units).length + places - 1)
          = 10 ^ ((whole units).length - 1) * 10 ^ places := by
            rw [← Nat.pow_add]
            congr 1
            omega
        _ ≤ units / unitsPerOne * 10 ^ places := Nat.mul_le_mul_right _ hlarge
        _ ≤ value (truncated units places) := by
            rw [htail, Numeral.value_append, hlength, whole, Numeral.value_ofNat]
            exact Nat.le_add_right _ _
  rw [rounded]
  split
  · exact Numeral.addOne_low (fun _ => isDigit_of_mem_truncated) hlow
  · exact hlow

/-- The rounded digits fall into those before the point, without a superfluous zero, and those after
it. -/
theorem rounded_split (units places : Nat) : ∃ before after : Text,
    positional units places = before ++ (if 0 < places then '.' :: after else []) ∧
      before ≠ [] ∧ (∀ c ∈ before, c.isDigit = true) ∧ (before.head? = some '0' → before = ['0']) ∧
      after.length = places ∧ (∀ c ∈ after, c.isDigit = true) ∧
      value before * 10 ^ places + value after =
        Rounding.halfUp (units * 10 ^ places) unitsPerOne := by
  have hpos : 0 < (whole units).length := List.length_pos_of_ne_nil (Numeral.ofNat_ne_nil _)
  have hlong := length_rounded_le units places
  have hdigits : ∀ c ∈ rounded units places, c.isDigit = true := fun _ => isDigit_of_mem_rounded
  have hlow := rounded_low units places
  have hvalue := value_rounded units places
  obtain ⟨before, after, hjoin, hlength⟩ : ∃ before after,
      rounded units places = before ++ after ∧ after.length = places :=
    ⟨_, _, (List.take_append_drop ((rounded units places).length - places) _).symm, by
      rw [List.length_drop]; omega⟩
  rw [hjoin] at hdigits hlow hvalue hlong
  rw [List.length_append, hlength] at hlow hlong
  obtain ⟨hbefore, hafter⟩ := List.forall_mem_append.mp hdigits
  refine ⟨before, after, ?_, ?_, hbefore, fun hzero => ?_, hlength, hafter, ?_⟩
  · have hsplit : (before ++ after).length - places = before.length := by
      rw [List.length_append, hlength, Nat.add_sub_cancel]
    simp only [positional, hjoin, hsplit, List.take_left, List.drop_left]
    cases places <;> rfl
  · exact List.ne_nil_of_length_pos (by omega)
  · obtain ⟨rest, rfl⟩ : ∃ rest, before = '0' :: rest := by
      cases before with
      | nil => cases hzero
      | cons c rest =>
          obtain rfl : c = '0' := Option.some.inj hzero
          exact ⟨rest, rfl⟩
    rcases hlow with hone | hlow
    · obtain rfl : rest = [] := List.length_eq_zero_iff.mp (by rw [List.length_cons] at hone; omega)
      rfl
    · have hsmall : value (rest ++ after) < 10 ^ (rest.length + places) := by
        rw [← hlength, ← List.length_append]
        exact Numeral.value_lt (List.forall_mem_cons.mp hdigits).2
      have hdigit : Numeral.digitValue '0' = 0 := rfl
      rw [List.cons_append, Numeral.value_cons, hdigit, Nat.zero_mul, Nat.zero_add,
        List.length_cons,
        Nat.add_right_comm, Nat.add_sub_cancel] at hlow
      exact absurd hlow (Nat.not_le.mpr hsmall)
  · rw [← hvalue, Numeral.value_append, hlength]

/-! ### The nearest multiple -/

end Fixed

/-- The multiple of a step that is nearest to a number, of a tie the one that is farther from
zero. -/
structure Rounding.IsNearest (step q r : ℚ) : Prop where
  multiple : ∃ n : ℤ, r = n * step
  nearest : ∀ m : ℤ, |q - r| ≤ |q - m * step|
  away : ∀ m : ℤ, |q - m * step| = |q - r| → |m * step| ≤ |r|

namespace Rounding.IsNearest

theorem neg {step q r : ℚ} (h : IsNearest step q r) : IsNearest step (-q) (-r) := by
  have hmirror : ∀ m : ℤ, |-q - m * step| = |q - (-m : ℤ) * step| := by
    intro m
    rw [← abs_neg]
    push_cast
    ring_nf
  have hsame : |-q - -r| = |q - r| := by rw [← abs_neg]; ring_nf
  refine ⟨?_, fun m => ?_, fun m heq => ?_⟩
  · obtain ⟨n, rfl⟩ := h.multiple
    exact ⟨-n, by push_cast; ring⟩
  · rw [hsame, hmirror]
    exact h.nearest _
  · rw [hsame, hmirror] at heq
    have haway := h.away _ heq
    push_cast at haway
    rwa [neg_mul, abs_neg, ← abs_neg r] at haway

/-- A multiple is nearest to a number that lies less than half a step above it, or at most half a
step below. -/
theorem of_bounds {step q : ℚ} {n : ℕ} (hstep : 0 < step) (hq : 0 ≤ q)
    (hlow : (2 * n - 1) * step ≤ 2 * q)
    (hhigh : 2 * q < (2 * n + 1) * step) : IsNearest step q (n * step) := by
  have hsides : ∀ m : ℤ, m = n ∨ m * step ≤ n * step - step ∨ n * step + step ≤ m * step := by
    intro m
    rcases lt_trichotomy m n with hless | hsame | hmore
    · have hle : (m : ℚ) ≤ n - 1 := by exact_mod_cast Int.le_sub_one_of_lt hless
      have hscaled := mul_le_mul_of_nonneg_right hle hstep.le
      exact Or.inr (Or.inl (by linarith))
    · exact Or.inl hsame
    · have hle : (n : ℚ) + 1 ≤ m := by exact_mod_cast hmore
      have hscaled := mul_le_mul_of_nonneg_right hle hstep.le
      exact Or.inr (Or.inr (by linarith))
  have hn : 0 ≤ (n : ℚ) * step := by positivity
  have hhalf : |q - n * step| ≤ step / 2 := abs_le.mpr ⟨by linarith, by linarith⟩
  have habove : q - n * step < step / 2 := by linarith
  refine ⟨⟨n, by push_cast; rfl⟩, fun m => ?_, fun m heq => ?_⟩
  · rcases hsides m with rfl | hless | hmore
    · rw [Int.cast_natCast]
    · exact hhalf.trans ((by linarith : step / 2 ≤ q - m * step).trans (le_abs_self _))
    · exact hhalf.trans ((by linarith : step / 2 ≤ -(q - m * step)).trans (neg_le_abs _))
  · rcases hsides m with rfl | hless | hmore
    · rw [Int.cast_natCast]
    · -- The two lie on either side of the number, and that is not negative.
      have hsum : |q - n * step| ≤ q + n * step := abs_le.mpr ⟨by linarith, by linarith⟩
      rw [abs_of_nonneg hn]
      rw [abs_of_nonneg (by linarith : 0 ≤ q - m * step)] at heq
      exact abs_le.mpr ⟨by linarith, by linarith⟩
    · have hfar : step / 2 < |q - m * step| := (by linarith : step / 2 < -(q - m * step)).trans_le
        (neg_le_abs _)
      exact absurd (heq ▸ hfar) (not_lt.mpr hhalf)

/-- No two multiples are nearest. -/
theorem unique {step q r r' : ℚ} (h : IsNearest step q r) (h' : IsNearest step q r') : r = r' := by
  obtain ⟨n, hn⟩ := h.multiple
  obtain ⟨n', hn'⟩ := h'.multiple
  have hnear : |q - r| = |q - r'| := le_antisymm (hn' ▸ h.nearest n') (hn ▸ h'.nearest n)
  have haway : |r| = |r'| :=
    le_antisymm (hn ▸ h'.away n (hn ▸ hnear)) (hn' ▸ h.away n' (hn' ▸ hnear.symm))
  rcases abs_eq_abs.mp haway with hsame | hmirror
  · exact hsame
  · -- Two multiples on either side of zero are nearest to zero only, and it is a multiple itself.
    rcases abs_eq_abs.mp hnear with hsame | hopposite
    · linarith
    · have hq : q = 0 := by linarith
      have hzero := h.nearest 0
      rw [hq, zero_sub, abs_neg, Int.cast_zero, zero_mul, sub_zero, abs_zero] at hzero
      have hr : r = 0 := abs_eq_zero.mp (le_antisymm hzero (abs_nonneg r))
      linarith

end Rounding.IsNearest

/-- The number that a finite double is. -/
def Binary64.number? : Binary64 → Option ℚ
  | .finite negative units _ =>
    some (if negative then -(units / unitsPerOne) else units / unitsPerOne)
  | _ => none

namespace Fixed
open Binary64 (unitsPerOne)
open Numeral (value)
open Shortest (unitsPerOne_pos)

theorem isNearest_halfUp {den : ℕ} (hden : 0 < den) (num places : ℕ) :
    Rounding.IsNearest (1 / 10 ^ places) (num / den)
      (Rounding.halfUp (num * 10 ^ places) den * (1 / 10 ^ places)) := by
  have hone : (0 : ℚ) < den := by exact_mod_cast hden
  have hpow : (0 : ℚ) < 10 ^ places := by positivity
  have htwice : 0 < 2 * den := Nat.mul_pos (by decide) hden
  have hfloor : Rounding.halfUp (num * 10 ^ places) den * (2 * den) ≤
      2 * (num * 10 ^ places) + den :=
    Nat.div_mul_le_self _ _
  have hnext : 2 * (num * 10 ^ places) + den <
      (Rounding.halfUp (num * 10 ^ places) den + 1) * (2 * den) :=
    Nat.lt_mul_of_div_lt (Nat.lt_succ_self _) htwice
  have hfloor' : (Rounding.halfUp (num * 10 ^ places) den : ℚ) * (2 * den) ≤
      2 * (num * 10 ^ places) + den := by
    exact_mod_cast hfloor
  have hnext' : (2 * (num * 10 ^ places) + den : ℚ) <
      (Rounding.halfUp (num * 10 ^ places) den + 1) * (2 * den) := by
    exact_mod_cast hnext
  refine .of_bounds (by positivity) (by positivity) ?_ ?_
  · rw [mul_one_div, ← mul_div_assoc, div_le_div_iff₀ hpow hone]
    linarith
  · rw [mul_one_div, ← mul_div_assoc, div_lt_div_iff₀ hone hpow]
    linarith

theorem places_cast (before after places : ℕ) :
    ((before * 10 ^ places + after : ℕ) : ℚ) * (1 / 10 ^ places) =
      before + after / 10 ^ places := by
  push_cast
  field_simp

section
variable {negative : Bool} {m : ℚ} (hm : 0 ≤ m)
include hm

theorem abs_signed : |if negative then -m else m| = m := by
  cases negative <;> simp [abs_of_nonneg hm]

theorem signed_neg_iff : (if negative then -m else m) < 0 ↔ negative ∧ 0 < m := by
  cases negative <;> simp [hm]

theorem isNearest_signed {step r : ℚ} (h : Rounding.IsNearest step m r) :
    Rounding.IsNearest step (if negative then -m else m)
      ((if negative ∧ 0 < m then -1 else 1) * r) := by
  cases negative with
  | false => simpa using h
  | true =>
      by_cases hpos : 0 < m
      · simpa [hpos] using h.neg
      · obtain rfl : m = 0 := le_antisymm (not_lt.mp hpos) hm
        simpa using h

end

theorem lt_of_quotient_lt {num den bound : ℕ} (hden : 0 < den) (h : (num / den : ℚ) < bound) :
    num < bound * den := by
  rw [div_lt_iff₀ (by exact_mod_cast hden)] at h
  exact_mod_cast h

/-- A finite double below `10 ^ 21` is written with a minus sign if it is below zero, digits without
a superfluous zero, and `places` digits after a point, if any. They denote the nearest multiple of
the last place to the exact number, of a tie the one that is farther from zero. -/
theorem render_nearest {v : Binary64} {q : ℚ} (hv : v.number? = some q) (hq : |q| < 10 ^ 21)
    (places : ℕ) :
    ∃ before after : Text,
      render (some v) places =
        (if q < 0 then ['-'] else []) ++ before ++ (if 0 < places then '.' :: after else []) ∧
      before ≠ [] ∧ (∀ c ∈ before, c.isDigit = true) ∧ (before.head? = some '0' → before = ['0']) ∧
      after.length = places ∧ (∀ c ∈ after, c.isDigit = true) ∧
      Rounding.IsNearest (1 / 10 ^ places) q
        ((if q < 0 then -1 else 1) * (value before + value after / 10 ^ places)) := by
  cases v with
  | nan | infinite _ => cases hv
  | finite negative units hrepresentable =>
      have hone : (0 : ℚ) < unitsPerOne := by exact_mod_cast unitsPerOne_pos
      have hmagnitude : (0 : ℚ) ≤ units / unitsPerOne := div_nonneg (Nat.cast_nonneg _) hone.le
      obtain rfl := Option.some.inj hv
      rw [abs_signed hmagnitude] at hq
      have hsmall : ¬ exponentThreshold ≤ units :=
        Nat.not_le.mpr (lt_of_quotient_lt unitsPerOne_pos (by rwa [Nat.cast_pow]))
      have hpos : (0 : ℚ) < units / unitsPerOne ↔ 0 < units := by
        rw [div_pos_iff_of_pos_right hone, Nat.cast_pos]
      obtain ⟨before, after, hwritten, hne, hbefore, hzero, hlength, hafter, hsum⟩ :=
        rounded_split units places
      refine ⟨before, after, ?_, hne, hbefore, hzero, hlength, hafter, ?_⟩
      · simp only [render, signed_neg_iff hmagnitude, hpos, if_neg hsmall, hwritten,
          List.append_assoc]
      · have hnearest := isNearest_halfUp unitsPerOne_pos units places
        rw [← hsum, places_cast] at hnearest
        simp only [signed_neg_iff hmagnitude]
        exact isNearest_signed hmagnitude hnearest

/-- The tie `-99.5` is written as `-100`. -/
theorem render_nearest_tie :
    (Binary64.ofUnits true (199 * 2 ^ 1073)).number? = some (-199 / 2) ∧
      |(-199 / 2 : ℚ)| < 10 ^ 21 ∧
      render (some (Binary64.ofUnits true (199 * 2 ^ 1073))) 0 = "-100".toList ∧
      ∃ before after : Text,
        "-100".toList = (if (-199 / 2 : ℚ) < 0 then ['-'] else []) ++ before ++
          (if 0 < 0 then '.' :: after else []) ∧
        Rounding.IsNearest (1 / 10 ^ 0) (-199 / 2)
          ((if (-199 / 2 : ℚ) < 0 then -1 else 1) * (value before + value after / 10 ^ 0)) := by
  have hv : (Binary64.ofUnits true (199 * 2 ^ 1073)).number? = some (-199 / 2) := by decide +kernel
  have hq : |(-199 / 2 : ℚ)| < 10 ^ 21 := by norm_num [abs_of_neg]
  have hwritten : render (some (Binary64.ofUnits true (199 * 2 ^ 1073))) 0 = "-100".toList := by
    decide +kernel
  obtain ⟨before, after, hrender, -, -, -, -, -, hnearest⟩ := render_nearest hv hq 0
  exact ⟨hv, hq, hwritten, before, after, hwritten.symm.trans hrender, hnearest⟩

end Fixed
end ChartPackage
