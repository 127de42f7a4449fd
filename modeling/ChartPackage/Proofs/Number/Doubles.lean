import Mathlib
import ChartPackage.Number.Decimal
import ChartPackage.Proofs.Number.Shortest

/-!
The double nearest to a number. Of all whole numbers of units with 53 significant bits one is
nearest to a given magnitude, or of two in a tie one has the even significand; it is what quotients
and decimals are rounded to, and it never lies beyond such a number that the magnitude does not lie
beyond.
-/

namespace ChartPackage

namespace Rounding

variable {num den : ℕ}

/-- The rounded quotient is at most half off, and even if it is just that. -/
theorem halfEven_bounds (num : ℕ) (hden : 0 < den) :
    2 * (halfEven num den * den) ≤ 2 * num + den ∧ 2 * num ≤ 2 * (halfEven num den * den) + den ∧
      (2 * (halfEven num den * den) = 2 * num + den ∨ 2 * num = 2 * (halfEven num den * den) + den →
        halfEven num den % 2 = 0) := by
  have hsplit := Nat.div_add_mod' num den
  have hrest := Nat.mod_lt num hden
  have hnext : (num / den + 1) * den = num / den * den + den := by ring
  rw [halfEven]
  split
  · omega
  · split
    · rw [hnext]
      omega
    · rcases Nat.mod_two_eq_zero_or_one (num / den) with heven | hodd
      · rw [heven, Nat.add_zero]
        omega
      · rw [hodd, hnext]
        omega

/-- The rounded quotient is nearest to the quotient, and even if another whole number is as near. -/
theorem halfEven_nearest (num : ℕ) (hden : 0 < den) (n : ℕ) :
    |(num / den : ℚ) - halfEven num den| ≤ |(num / den : ℚ) - n| ∧
      (n ≠ halfEven num den → |(num / den : ℚ) - n| = |(num / den : ℚ) - halfEven num den| →
        halfEven num den % 2 = 0) := by
  obtain ⟨hlow, hhigh, heven⟩ := halfEven_bounds num hden
  generalize halfEven num den = h at *
  have hone : (0 : ℚ) < den := by exact_mod_cast hden
  generalize hq : (num / den : ℚ) = q
  have hnum : (num : ℚ) = q * den := by rw [← hq, div_mul_cancel₀ _ hone.ne']
  have hscaled : ∀ {a b : ℚ}, a * den ≤ b * den → a ≤ b := fun h => le_of_mul_le_mul_right h hone
  have hbelow : (h : ℚ) - 1 / 2 ≤ q := by
    have hcast : (2 * (h * den) : ℚ) ≤ 2 * num + den := by exact_mod_cast hlow
    rw [hnum] at hcast
    exact hscaled (by linarith)
  have habove : q ≤ h + 1 / 2 := by
    have hcast : (2 * num : ℚ) ≤ 2 * (h * den) + den := by exact_mod_cast hhigh
    rw [hnum] at hcast
    exact hscaled (by linarith)
  have htie : |q - h| = 1 / 2 → h % 2 = 0 := by
    intro htie
    refine heven ?_
    rcases eq_or_eq_neg_of_abs_eq htie with htie | htie
    · right
      have hcast : (2 * num : ℚ) = 2 * (h * den) + den := by
        rw [hnum]
        linear_combination 2 * den * htie
      exact_mod_cast hcast
    · left
      have hcast : (2 * (h * den) : ℚ) = 2 * num + den := by
        rw [hnum]
        linear_combination -2 * den * htie
      exact_mod_cast hcast
  have hhalf : |q - h| ≤ 1 / 2 := abs_le.mpr ⟨by linarith, by linarith⟩
  have hfar : n ≠ h → 1 / 2 ≤ |q - n| := by
    intro hne
    rcases Nat.lt_or_gt_of_ne hne with hless | hmore
    · have hle : (n : ℚ) + 1 ≤ h := by exact_mod_cast hless
      exact (by linarith : 1 / 2 ≤ q - n).trans (le_abs_self _)
    · have hle : (h : ℚ) + 1 ≤ n := by exact_mod_cast hmore
      exact (by linarith : 1 / 2 ≤ -(q - n)).trans (neg_le_abs _)
  refine ⟨?_, fun hne heq => htie (le_antisymm hhalf (heq ▸ hfar hne))⟩
  by_cases hne : n = h
  · rw [hne]
  · exact hhalf.trans (hfar hne)

end Rounding

namespace Binary64
open Rounding

/-! ### Numbers that fit -/

theorem lostBits_mono {a b : ℕ} (h : a ≤ b) : lostBits a ≤ lostBits b := by
  by_cases ha : a = 0
  · rw [ha]
    exact Nat.zero_le _
  · exact Nat.sub_le_sub_right ((Nat.le_log2 (by omega)).mpr ((Nat.log2_self_le ha).trans h)) 52

theorem fits_of_dvd {units k : ℕ} (hk : lostBits units ≤ k) (h : 2 ^ k ∣ units) : Fits units :=
  Nat.mod_eq_zero_of_dvd ((Nat.pow_dvd_pow 2 hk).trans h)

theorem Fits.dvd {units : ℕ} (h : Fits units) :
    2 ^ lostBits units ∣ units := Nat.dvd_of_mod_eq_zero h

section
variable {m k : ℕ}

theorem lostBits_mul_pow (hhigh : m < 2 ^ 53) (hlow : k = 0 ∨ 2 ^ 52 ≤ m) :
    lostBits (m * 2 ^ k) = k := by
  refine lostBits_eq ?_ (hlow.imp_right fun hlow => ?_)
  · rw [Nat.pow_add]
    exact Nat.mul_lt_mul_of_pos_right hhigh (Nat.two_pow_pos k)
  · rw [Nat.pow_add]
    exact Nat.mul_le_mul_right _ hlow

theorem pow_mul_pow : (2 : ℕ) ^ 53 * 2 ^ k = 2 ^ 52 * 2 ^ (k + 1) := by
  rw [Nat.pow_succ]
  ring

/-- Only one significand is short of a bit: that of the next power of two. -/
theorem lostBits_pow : lostBits (2 ^ 53 * 2 ^ k) = k + 1 := by
  rw [pow_mul_pow]
  exact lostBits_mul_pow (by decide) (Or.inr le_rfl)

theorem fits_mul_pow (hm : m ≤ 2 ^ 53) : Fits (m * 2 ^ k) := by
  rcases hm.lt_or_eq with hless | rfl
  · refine fits_of_dvd ?_ (Nat.dvd_mul_left _ _)
    calc lostBits (m * 2 ^ k) ≤ lostBits ((2 ^ 53 - 1) * 2 ^ k) :=
          lostBits_mono (Nat.mul_le_mul_right _ (Nat.le_sub_one_of_lt hless))
      _ = k := lostBits_mul_pow (by decide) (Or.inr (by decide))
  · refine fits_of_dvd lostBits_pow.le ?_
    rw [pow_mul_pow]
    exact Nat.dvd_mul_left _ _

theorem even_significand (hm : m ≤ 2 ^ 53) (hlow : k = 0 ∨ 2 ^ 52 ≤ m) (heven : m % 2 = 0) :
    m * 2 ^ k / 2 ^ lostBits (m * 2 ^ k) % 2 = 0 := by
  rcases hm.lt_or_eq with hless | rfl
  · rwa [lostBits_mul_pow hless hlow, Nat.mul_div_cancel _ (Nat.two_pow_pos k)]
  · rw [lostBits_pow, pow_mul_pow, Nat.mul_div_cancel _ (Nat.two_pow_pos _)]
    rfl

end

/-- The next number that fits is one step on. -/
theorem Fits.next {a b : ℕ} (ha : Fits a) (hb : Fits b) (h : a < b) : a + 2 ^ lostBits a ≤ b := by
  obtain ⟨n, hn⟩ := ha.dvd
  obtain ⟨m, hm⟩ := (Nat.pow_dvd_pow 2 (lostBits_mono h.le)).trans hb.dvd
  generalize (2 : ℕ) ^ lostBits a = step at *
  subst hn hm
  have hless : n < m := Nat.lt_of_mul_lt_mul_left h
  calc step * n + step = step * (n + 1) := by ring
    _ ≤ step * m := Nat.mul_le_mul_left _ hless

/-! ### The closest number that fits -/

/-- The number of units that is nearest to a magnitude of those that fit, of a tie the one with the
even significand. -/
structure Closest (q : ℚ) (units : ℕ) : Prop where
  fits : Fits units
  nearest : ∀ u, Fits u → |q - units| ≤ |q - u|
  even : ∀ u, Fits u → u ≠ units → |q - u| = |q - units| → units / 2 ^ lostBits units % 2 = 0

namespace Closest

variable {q : ℚ} {units : ℕ}

theorem le (h : Closest q units) {bound : ℕ} (hbound : Fits bound) (hq : q ≤ bound) :
    units ≤ bound := by
  by_contra hless
  have hbeyond : (bound : ℚ) < units := by exact_mod_cast not_le.mp hless
  have hnear := h.nearest bound hbound
  rw [abs_of_nonpos (by linarith), abs_of_nonpos (by linarith)] at hnear
  linarith

theorem ge (h : Closest q units) {bound : ℕ} (hbound : Fits bound) (hq : bound ≤ q) :
    bound ≤ units := by
  by_contra hless
  have hbeyond : (units : ℚ) < bound := by exact_mod_cast not_le.mp hless
  have hnear := h.nearest bound hbound
  rw [abs_of_nonneg (by linarith), abs_of_nonneg (by linarith)] at hnear
  linarith

/-- What lies between two in a tie is nearer than either. -/
theorem abs_sub_lt_of_between {a b x : ℚ} (htie : q - a = b - q) (hlow : a < x) (hhigh : x < b) :
    |q - x| < |q - a| := by
  rw [abs_of_nonneg (by linarith : 0 ≤ q - a)]
  exact abs_lt.mpr ⟨by linarith, by linarith⟩

/-- Of two in a tie the next one on is not even if the first is. -/
theorem not_lt {a b : ℕ} (ha : Closest q a) (hb : Closest q b) : ¬ a < b := by
  intro hless
  have hcast : (a : ℚ) < b := by exact_mod_cast hless
  have htie : |q - a| = |q - b| := le_antisymm (ha.nearest b hb.fits) (hb.nearest a ha.fits)
  have hmid : q - a = b - q := by
    rcases abs_eq_abs.mp htie with hsame | hopposite
    · linarith
    · linarith
  obtain ⟨hsplit, hhigh, hlow⟩ := ha.fits.significand
  have hnext := ha.fits.next hb.fits hless
  have heven := ha.even b hb.fits hless.ne' htie.symm
  have heven' := hb.even a ha.fits hless.ne htie
  generalize a / 2 ^ lostBits a = m at *
  generalize lostBits a = k at *
  obtain rfl : b = (m + 1) * 2 ^ k := by
    have hjoin : (m + 1) * 2 ^ k = a + 2 ^ k := by
      rw [hsplit]
      ring
    refine le_antisymm ?_ (hjoin ▸ hnext)
    by_contra hbetween
    -- The number one step on would lie between the two and nearer than either.
    have hnear := ha.nearest ((m + 1) * 2 ^ k) (fits_mul_pow (Nat.succ_le_of_lt hhigh))
    have hafter : (a : ℚ) < ((m + 1) * 2 ^ k : ℕ) := by
      rw [hjoin]
      exact_mod_cast Nat.lt_add_of_pos_right (Nat.two_pow_pos k)
    have hbefore : (((m + 1) * 2 ^ k : ℕ) : ℚ) < b := by exact_mod_cast Nat.not_le.mp hbetween
    exact absurd hnear (not_le.mpr (abs_sub_lt_of_between hmid hafter hbefore))
  have hm : m + 1 < 2 ^ 53 := by
    rcases Nat.lt_or_ge (m + 1) (2 ^ 53) with hless | hmore
    · exact hless
    · omega
  rw [lostBits_mul_pow hm (hlow.imp_right fun hlow => hlow.trans (Nat.le_succ m)),
    Nat.mul_div_cancel _ (Nat.two_pow_pos k)] at heven'
  omega

/-- There is one closest number at most. -/
theorem unique {a b : ℕ} (ha : Closest q a) (hb : Closest q b) : a = b :=
  le_antisymm (Nat.not_lt.mp (hb.not_lt ha)) (Nat.not_lt.mp (ha.not_lt hb))

theorem of_fits (h : Fits units) : Closest units units := by
  refine ⟨h, fun u _ => ?_, fun u _ hne htie => ?_⟩
  · rw [sub_self, abs_zero]
    exact abs_nonneg _
  · rw [sub_self, abs_zero, abs_eq_zero, sub_eq_zero] at htie
    exact absurd (Nat.cast_injective htie).symm hne

theorem zero (hq : 0 ≤ q) (hsmall : 2 * q < 1) : Closest q 0 := by
  have hfar : ∀ u : ℕ, u ≠ 0 → |q - (0 : ℕ)| < |q - u| := by
    intro u hu
    have hone : (1 : ℚ) ≤ u := by exact_mod_cast Nat.pos_of_ne_zero hu
    rw [Nat.cast_zero, sub_zero, abs_of_nonneg hq, abs_of_nonpos (by linarith)]
    linarith
  refine ⟨rfl, fun u _ => ?_, fun u _ hne htie => absurd htie (hfar u hne).ne'⟩
  by_cases hu : u = 0
  · rw [hu]
  · exact (hfar u hu).le

end Closest

/-- Among the multiples of a step the rounded one is nearest. -/
theorem nearest_multiple {den step : ℕ} (hden : 0 < den) (hstep : 0 < step) (num m : ℕ) :
    |(num / den : ℚ) - (halfEven num (den * step) * step : ℕ)| ≤ |(num / den : ℚ) -
      (m * step : ℕ)| ∧
      (m ≠ halfEven num (den * step) →
        |(num / den : ℚ) - (m * step : ℕ)| = |(num / den : ℚ) -
          (halfEven num (den * step) * step : ℕ)| →
        halfEven num (den * step) % 2 = 0) := by
  have hone : (den : ℚ) ≠ 0 := by exact_mod_cast hden.ne'
  have hstep' : (0 : ℚ) < step := by exact_mod_cast hstep
  have hscaled : ∀ n : ℕ, |(num / den : ℚ) - (n * step : ℕ)| = |(num / (den * step : ℕ) : ℚ) -
      n| * step := by
    intro n
    have hsplit : (num / den : ℚ) - (n * step : ℕ) = (num / (den * step : ℕ) - n) * step := by
      push_cast
      field_simp
    rw [hsplit, abs_mul, abs_of_pos hstep']
  obtain ⟨hnear, heven⟩ := halfEven_nearest num (Nat.mul_pos hden hstep) m
  rw [hscaled, hscaled]
  exact ⟨mul_le_mul_of_nonneg_right hnear hstep'.le, fun hne htie =>
    heven hne (mul_right_cancel₀ hstep'.ne' htie)⟩

/-- A number that fits is a multiple of a step, or lies below all numbers that lose as many bits. -/
theorem Fits.multiple_or_lt {u : ℕ} (hu : Fits u) (k : ℕ) :
    (∃ m, u = m * 2 ^ k) ∨ 0 < k ∧ u < 2 ^ (52 + k) := by
  by_cases hlost : k ≤ lostBits u
  · obtain ⟨m, hm⟩ := (Nat.pow_dvd_pow 2 hlost).trans hu.dvd
    exact Or.inl ⟨m, by rw [hm, Nat.mul_comm]⟩
  · exact Or.inr
      ⟨by omega, (lt_pow_lostBits u).trans_le (Nat.pow_le_pow_right (by decide) (by omega))⟩

/-- What quotients are rounded to. -/
theorem closest_nearestUnits {den : ℕ} (hden : 0 < den) (num : ℕ) :
    Closest (num / den) (nearestUnits num den) := by
  have hfloor : ((num / den : ℕ) : ℚ) ≤ num / den := Nat.cast_div_le
  have hlow := pow_lostBits_le (num / den)
  obtain ⟨hpart, hpart'⟩ := significand_bounds (num / den)
  rw [nearestUnits]
  generalize lostBits (num / den) = k at *
  rw [Nat.div_div_eq_div_mul] at hpart hpart'
  have hmultiple := nearest_multiple hden (Nat.two_pow_pos k) num
  have hcases := halfEven_cases num (den * 2 ^ k)
  generalize halfEven num (den * 2 ^ k) = n at *
  have hn : n ≤ 2 ^ 53 := by omega
  have hn' : k = 0 ∨ 2 ^ 52 ≤ n := hpart'.imp_right fun hpart' => by omega
  -- The first number with the step of the result is nearer than any below it.
  have hbelow : ∀ u : ℕ, 0 < k → u < 2 ^ (52 + k) → |(num / den : ℚ) - (n * 2 ^ k : ℕ)| <
      |(num / den : ℚ) - u| := by
    intro u hk hless
    refine (hmultiple (2 ^ 52)).1.trans_lt ?_
    rw [← Nat.pow_add]
    have hless' : (u : ℚ) < (2 ^ (52 + k) : ℕ) := by exact_mod_cast hless
    have hstart : ((2 ^ (52 + k) : ℕ) : ℚ) ≤ num / den :=
      le_trans (by exact_mod_cast hlow.resolve_left hk.ne') hfloor
    rw [abs_of_nonneg (by linarith), abs_of_nonneg (by linarith)]
    linarith
  refine ⟨fits_mul_pow hn, fun u hu => ?_, fun u hu hne htie => ?_⟩
  · rcases hu.multiple_or_lt k with ⟨m, rfl⟩ | ⟨hk, hless⟩
    · exact (hmultiple m).1
    · exact (hbelow u hk hless).le
  · rcases hu.multiple_or_lt k with ⟨m, rfl⟩ | ⟨hk, hless⟩
    · exact even_significand hn hn' ((hmultiple m).2 (fun heq => hne (by rw [heq])) htie)
    · exact absurd htie (hbelow u hk hless).ne'

/-! ### The double that a number is rounded to -/

/-- The double that a number is rounded to: the closest magnitude, or infinity from the limit on. -/
def IsRounded (negative : Bool) (q : ℚ) (v : Binary64) : Prop :=
  ∃ units, Closest (q * unitsPerOne) units ∧ v = ofUnits negative units

theorem IsRounded.unique {negative : Bool} {q : ℚ} {v w : Binary64} (hv : IsRounded negative q v)
    (hw : IsRounded negative q w) : v = w := by
  obtain ⟨a, ha, rfl⟩ := hv
  obtain ⟨b, hb, rfl⟩ := hw
  rw [ha.unique hb]

theorem isRounded_ofQuotient {den : ℕ} (hden : 0 < den) (negative : Bool) (num : ℕ) :
    IsRounded negative (num / den) (ofQuotient negative num den) := by
  refine ⟨_, ?_, rfl⟩
  have hscaled : (num / den : ℚ) * unitsPerOne = (num * unitsPerOne : ℕ) / den := by
    push_cast
    rw [div_mul_eq_mul_div]
  rw [hscaled]
  exact closest_nearestUnits hden _

end Binary64

/-! ### Decimals -/

namespace Decimal
open Binary64

/-- The exact number without its sign. -/
def magnitude (d : Decimal) : ℚ := d.coefficient * 10 ^ d.exponent

theorem magnitude_of_nonneg {d : Decimal} (h : 0 ≤ d.exponent) :
    d.magnitude = (d.coefficient * 10 ^ d.exponent.toNat : ℕ) / (1 : ℕ) := by
  rw [magnitude]
  conv_lhs => rw [← Int.toNat_of_nonneg h, zpow_natCast]
  push_cast
  rw [div_one]

theorem magnitude_of_neg {d : Decimal} (h : d.exponent < 0) :
    d.magnitude = d.coefficient / (10 ^ (-d.exponent).toNat : ℕ) := by
  have hsize : d.exponent = -((-d.exponent).toNat : Int) := by omega
  rw [magnitude]
  conv_lhs => rw [hsize, zpow_neg, zpow_natCast]
  push_cast
  rw [div_eq_mul_inv]

theorem two_pow_le_ten_pow (k : ℕ) : 2 ^ (93 * k + 1) ≤ 10 ^ (28 * k + 1) := by
  rw [Nat.pow_succ, Nat.pow_succ, Nat.pow_mul, Nat.pow_mul]
  exact Nat.mul_le_mul (Nat.pow_le_pow_left (by decide) k) (by decide)

/-- From ten to this power on there are no finite doubles. -/
theorem ofQuotient_of_large {negative : Bool} {c e : ℕ} (hc : c ≠ 0) (he : 310 < e) :
    ofQuotient negative (c * 10 ^ e) 1 = .infinite negative := by
  have hclosest := closest_nearestUnits Nat.one_pos (c * 10 ^ e * unitsPerOne)
  have hlimit : unitsLimit ≤ c * 10 ^ e * unitsPerOne := by
    obtain ⟨k, hk⟩ : ∃ k : ℕ, k = 11 := ⟨_, rfl⟩
    obtain ⟨one, hbits, hone⟩ := exists_unitsPerOne_eq
    obtain ⟨bits, hlimitBits, hlimit⟩ := exists_unitsLimit_eq
    have hsum : bits = 93 * k + 1 + one := by omega
    rw [hlimit, hone, hsum, Nat.pow_add]
    refine Nat.mul_le_mul_right _ ?_
    calc 2 ^ (93 * k + 1) ≤ 10 ^ (28 * k + 1) := two_pow_le_ten_pow k
      _ ≤ 10 ^ e := Nat.pow_le_pow_right (by decide) (by omega)
      _ ≤ c * 10 ^ e := Nat.le_mul_of_pos_left _ (Nat.pos_of_ne_zero hc)
  have hfits : Fits unitsLimit := by
    obtain ⟨bits, -, hlimit⟩ := exists_unitsLimit_eq
    rw [hlimit, ← Nat.one_mul (2 ^ bits)]
    exact fits_mul_pow (by decide)
  have hbeyond : unitsLimit ≤ nearestUnits (c * 10 ^ e * unitsPerOne) 1 := by
    refine hclosest.ge hfits ?_
    rw [Nat.cast_one, div_one]
    exact_mod_cast hlimit
  rw [ofQuotient, ofUnits, dif_neg fun h => Nat.not_lt.mpr hbeyond h.2]

/-- Up to ten to this power there is nothing but zero. -/
theorem magnitude_small {d : Decimal} (h : d.exponent + d.coefficient.log2 + 1 < -330) :
    2 * (d.magnitude * unitsPerOne) < 1 := by
  have hcoefficient : (d.coefficient : ℚ) ≤ 10 ^ ((d.coefficient.log2 + 1 : ℕ) : ℤ) := by
    rw [zpow_natCast]
    exact_mod_cast Nat.lt_log2_self.le.trans (Nat.pow_le_pow_left (by decide) _)
  have hmagnitude : d.magnitude ≤ 10 ^ (-331 : ℤ) := by
    calc d.magnitude ≤ 10 ^ ((d.coefficient.log2 + 1 : ℕ) : ℤ) * 10 ^ d.exponent :=
          mul_le_mul_of_nonneg_right hcoefficient (by positivity)
      _ = 10 ^ (((d.coefficient.log2 + 1 : ℕ) : ℤ) + d.exponent) :=
        (zpow_add₀ (by norm_num) _ _).symm
      _ ≤ 10 ^ (-331 : ℤ) := zpow_le_zpow_right₀ (by norm_num) (by push_cast; omega)
  have hpower : (2 * unitsPerOne : ℚ) < 10 ^ (331 : ℤ) := by
    have hnat : 2 * unitsPerOne < 10 ^ 331 := by decide +kernel
    have hcast := Nat.cast_lt (α := ℚ).mpr hnat
    rwa [Nat.cast_mul, Nat.cast_pow, Nat.cast_ofNat, Nat.cast_ofNat] at hcast
  have hnonneg : (0 : ℚ) ≤ 2 * unitsPerOne := mul_nonneg zero_le_two (Nat.cast_nonneg _)
  calc 2 * (d.magnitude * unitsPerOne) = d.magnitude * (2 * unitsPerOne) := by ring
    _ ≤ 10 ^ (-331 : ℤ) * (2 * unitsPerOne) := mul_le_mul_of_nonneg_right hmagnitude hnonneg
    _ < 10 ^ (-331 : ℤ) * 10 ^ (331 : ℤ) := mul_lt_mul_of_pos_left hpower (by positivity)
    _ = 1 := zpow_neg_mul_zpow_self _ (by norm_num)

/-- Reading a decimal rounds it, also where its size alone decides. -/
theorem isRounded_toBinary64 (d : Decimal) : IsRounded d.negative d.magnitude d.toBinary64 := by
  rw [toBinary64]
  split
  · next hzero =>
      refine ⟨0, ?_, rfl⟩
      rw [magnitude, hzero, Nat.cast_zero, zero_mul, zero_mul]
      exact Closest.of_fits rfl
  split
  · next hne hlarge =>
      rw [← ofQuotient_of_large hne (by omega : 310 < d.exponent.toNat),
        magnitude_of_nonneg (by omega)]
      exact isRounded_ofQuotient Nat.one_pos _ _
  split
  · next hsmall =>
      have hsign : 0 ≤ d.magnitude := mul_nonneg (Nat.cast_nonneg _) (by positivity)
      exact ⟨0, Closest.zero (mul_nonneg hsign (Nat.cast_nonneg _)) (magnitude_small hsmall), rfl⟩
  split
  · next hnonneg =>
      rw [magnitude_of_nonneg hnonneg]
      exact isRounded_ofQuotient Nat.one_pos _ _
  · next hneg =>
      rw [magnitude_of_neg (not_le.mp hneg)]
      exact isRounded_ofQuotient (Nat.pow_pos (by decide)) _ _

end Decimal
end ChartPackage
