import Mathlib
import ChartPackage.Proofs.Number.Grammar
import ChartPackage.Proofs.Number.Rounded

/-!
Numbers with a fixed count of decimal places that are read and written again. What is written is
seldom a double; the double next to it that is read instead is no farther from it than the one that
was written, so that rounding to the same places goes back to the same digits. A number that is
written with an exponent is read as it was.
-/

namespace ChartPackage

namespace Rounding

/-- A quotient is rounded up from half on. -/
theorem halfUp_eq_iff {num den n : ℕ} (hden : 0 < den) :
    halfUp num den = n ↔ 2 * n * den ≤ 2 * num + den ∧ 2 * num < (2 * n + 1) * den := by
  have hlow : n * (2 * den) = 2 * n * den := by ring
  have hhigh : (2 * n + 1) * den = 2 * n * den + den := by ring
  rw [halfUp, Nat.div_eq_iff (by omega), hlow, hhigh]
  omega

/-- Rounding to decimal places, by half of the last place to either side. -/
theorem halfUp_places_iff {a n den places : ℕ} (hden : 0 < den) : halfUp (a * 10 ^ places) den = n ↔
    (n / 10 ^ places * den : ℚ) - den / (2 * 10 ^ places) ≤ a ∧
      (a : ℚ) < n / 10 ^ places * den + den / (2 * 10 ^ places) := by
  have hpos : (0 : ℚ) < 2 * 10 ^ places := by positivity
  have hlow : (n / 10 ^ places * den : ℚ) - den / (2 * 10 ^ places) =
      (2 * n * den - den) / (2 * 10 ^ places) := by
    field_simp
  have hhigh : (n / 10 ^ places * den : ℚ) + den / (2 * 10 ^ places) = (2 * n + 1) *
      den / (2 * 10 ^ places) := by
    field_simp
  have hscaled : (a * (2 * 10 ^ places) : ℚ) = (2 * (a * 10 ^ places) : ℕ) := by
    push_cast
    ring
  rw [halfUp_eq_iff hden, hlow, hhigh, div_le_iff₀ hpos, lt_div_iff₀ hpos,
    sub_le_iff_le_add, hscaled]
  norm_cast

end Rounding

namespace Fixed
open Binary64 Rounding
open Numeral (value)
open Shortest (unitsPerOne_pos)

/-! ### Below the threshold -/

/-- Rounded digits are known by the rounded number. -/
theorem rounded_eq (units places : ℕ) :
    rounded units places =
      Numeral.padLeft (places + 1) (Numeral.ofNat (halfUp (units * 10 ^ places) unitsPerOne)) := by
  have hpos : 0 < (whole units).length := List.length_pos_of_ne_nil (Numeral.ofNat_ne_nil _)
  have hlong := length_rounded_le units places
  rw [← value_rounded]
  exact (Numeral.padLeft_ofNat_value (fun _ => isDigit_of_mem_rounded)
    (Nat.succ_pos places) (by omega)
    (rounded_low units places)).symm

theorem positional_congr {a b places : ℕ}
    (h : halfUp (a * 10 ^ places) unitsPerOne = halfUp (b * 10 ^ places) unitsPerOne) :
    positional a places = positional b places := by
  rw [positional, positional, rounded_eq a, rounded_eq b, h]

theorem fits_unitsPerOne : Fits unitsPerOne := by
  obtain ⟨bits, -, hone⟩ := exists_unitsPerOne_eq
  rw [hone, ← Nat.one_mul (2 ^ bits)]
  exact fits_mul_pow (by decide)

theorem unitsPerOne_lt_threshold : unitsPerOne < exponentThreshold := by decide +kernel

theorem threshold_le_iff {units : ℕ} :
    exponentThreshold ≤ units ↔ 10 ^ 21 ≤ (units / unitsPerOne : ℚ) := by
  have hone : (0 : ℚ) < unitsPerOne := by exact_mod_cast unitsPerOne_pos
  rw [le_div_iff₀ hone, exponentThreshold, ← Nat.cast_le (α := ℚ), Nat.cast_mul, Nat.cast_pow,
    Nat.cast_ofNat]

theorem exponentThreshold_eq : exponentThreshold = 5 ^ 21 * (2 ^ 21 * unitsPerOne) := by
  have hten : (10 : ℕ) = 5 * 2 := rfl
  rw [exponentThreshold, hten, Nat.mul_pow, Nat.mul_assoc]

theorem fits_exponentThreshold : Fits exponentThreshold := by
  obtain ⟨bits, -, hone⟩ := exists_unitsPerOne_eq
  rw [exponentThreshold_eq, hone, ← Nat.pow_add]
  exact fits_mul_pow (by decide)

/-- Doubles below the threshold leave more than a one up to it. -/
theorem add_one_lt_threshold {units : ℕ} (h : Fits units) (hless : units < exponentThreshold) :
    units + unitsPerOne < exponentThreshold := by
  obtain ⟨bits, -, hone⟩ := exists_unitsPerOne_eq
  have hpos := unitsPerOne_pos
  have hthreshold := exponentThreshold_eq
  have hstep : 2 ^ (17 + bits) = 2 ^ 17 * unitsPerOne := by rw [hone, Nat.pow_add]
  rcases Nat.lt_or_ge units (2 ^ 52 * 2 ^ (17 + bits)) with hsmall | hlarge
  · omega
  · have hlost : 17 + bits ≤ lostBits units :=
      (lostBits_mul_pow (by decide) (Or.inr le_rfl)).ge.trans (lostBits_mono hlarge)
    have hnext := h.next fits_exponentThreshold hless
    have hmore : 2 ^ (17 + bits) ≤ 2 ^ lostBits units := Nat.pow_le_pow_right (by decide) hlost
    omega

section
variable {a b places : ℕ}

theorem eq_zero_of_dvd_unitsPerOne (h : 10 ^ places ∣ unitsPerOne) : places = 0 := by
  by_contra hne
  have hten : (5 : ℕ) ∣ 10 ^ places := dvd_pow (by decide) hne
  obtain ⟨bits, -, hone⟩ := exists_unitsPerOne_eq
  have hfive : (5 : ℕ) ∣ 2 := Nat.prime_five.dvd_of_dvd_pow (hten.trans (hone ▸ h))
  exact absurd hfive (by decide)

/-- Where halves are doubles, so are ones. -/
theorem fits_of_half {n : ℕ} (hb : Fits b) (h : 2 * b = (2 * n + 1) * unitsPerOne) :
    Fits (n * unitsPerOne) := by
  obtain ⟨bits, hbits, hpower⟩ := exists_unitsPerOne_eq
  obtain ⟨k, rfl⟩ : ∃ k, bits = k + 1 := ⟨1073, hbits⟩
  obtain ⟨half, hhalf⟩ : ∃ half, 2 ^ k = half := ⟨_, rfl⟩
  have hone : unitsPerOne = 2 * half := by rw [hpower, ← hhalf, ← Nat.pow_succ']
  have hodd : b = (2 * n + 1) * half := by
    have hswap : (2 * n + 1) * (2 * half) = 2 * ((2 * n + 1) * half) := by ring
    rw [hone, hswap] at h
    omega
  have hlost : lostBits b ≤ k + 1 := by
    by_contra hmore
    have hdvd : 2 * half ∣ (2 * n + 1) * half := by
      rw [← hodd, ← hhalf, ← Nat.pow_succ']
      exact (Nat.pow_dvd_pow 2 (Nat.le_of_not_le hmore)).trans hb.dvd
    have htwo := Nat.dvd_of_mul_dvd_mul_right (hhalf ▸ Nat.two_pow_pos k) hdvd
    omega
  have hle : n * unitsPerOne ≤ b := by
    have hsplit : (2 * n + 1) * unitsPerOne = 2 * (n * unitsPerOne) + unitsPerOne := by ring
    omega
  exact fits_of_dvd ((lostBits_mono hle).trans hlost) (hpower ▸ Nat.dvd_mul_left _ _)

/-- The double next to what is written of another one is not half of the last place above it. -/
theorem ne_half_above {n : ℕ} (ha : Fits a) (hb : Closest (n / 10 ^ places * unitsPerOne) b)
    (hhigh : (a : ℚ) < n / 10 ^ places * unitsPerOne + unitsPerOne / (2 * 10 ^ places))
    (hlow : (n / 10 ^ places * unitsPerOne : ℚ) - unitsPerOne / (2 * 10 ^ places) ≤ a) :
    (b : ℚ) ≠ n / 10 ^ places * unitsPerOne + unitsPerOne / (2 * 10 ^ places) := by
  intro heq
  have hone : (0 : ℚ) < unitsPerOne := by exact_mod_cast unitsPerOne_pos
  have hhalf : (0 : ℚ) < unitsPerOne / (2 * 10 ^ places) := div_pos hone (by positivity)
  have htwice : (2 * (unitsPerOne / (2 * 10 ^ places)) : ℚ) * 10 ^ places =
      unitsPerOne := by field_simp
  have hbelow : (a : ℚ) = n / 10 ^ places * unitsPerOne - unitsPerOne / (2 * 10 ^ places) := by
    have hnear := hb.nearest a ha
    rw [heq, sub_add_cancel_left, abs_neg, abs_of_pos hhalf] at hnear
    rcases le_abs.mp hnear with hmore | hmore <;> linarith
  have hplaces : places = 0 := by
    have hgap : b * 10 ^ places = a * 10 ^ places + unitsPerOne := by
      have hcast : (b * 10 ^ places : ℚ) = a * 10 ^ places + unitsPerOne := by
        rw [heq, hbelow]
        linear_combination htwice
      exact_mod_cast hcast
    exact eq_zero_of_dvd_unitsPerOne
      ((Nat.dvd_add_right (Nat.dvd_mul_left _ a)).mp (hgap ▸ Nat.dvd_mul_left _ b))
  subst hplaces
  rw [pow_zero, div_one] at *
  have hfits : Fits (n * unitsPerOne) := by
    refine fits_of_half hb.fits ?_
    have hcast : (2 * b : ℚ) = (2 * n + 1) * unitsPerOne := by
      rw [heq]
      ring
    exact_mod_cast hcast
  have hnear := hb.nearest _ hfits
  rw [heq, sub_add_cancel_left, abs_neg, abs_of_pos hhalf, Nat.cast_mul, sub_self,
    abs_zero] at hnear
  exact absurd hnear (not_le.mpr hhalf)

/-- The double next to what is written of another one is rounded to the same. -/
theorem halfUp_closest (ha : Fits a)
    (hb : Closest (halfUp (a * 10 ^ places) unitsPerOne / 10 ^ places * unitsPerOne) b) :
    halfUp (b * 10 ^ places) unitsPerOne = halfUp (a * 10 ^ places) unitsPerOne ∧
      b ≤ a + unitsPerOne := by
  obtain ⟨hlow, hhigh⟩ :=
    (halfUp_places_iff unitsPerOne_pos).mp (rfl : halfUp (a * 10 ^ places) unitsPerOne = _)
  have hne := ne_half_above ha hb hhigh hlow
  have hnear := hb.nearest a ha
  have hhalf : (unitsPerOne / (2 * 10 ^ places) : ℚ) ≤ unitsPerOne / 2 :=
    div_le_div_of_nonneg_left (Nat.cast_nonneg _) zero_lt_two
      (le_mul_of_one_le_right zero_le_two (one_le_pow₀ (by norm_num)))
  rw [halfUp_places_iff unitsPerOne_pos]
  generalize (halfUp (a * 10 ^ places) unitsPerOne / 10 ^ places * unitsPerOne : ℚ) = x at *
  generalize (unitsPerOne / (2 * 10 ^ places) : ℚ) = h at *
  obtain ⟨hblow, hbhigh⟩ :=
    abs_le.mp (hnear.trans (abs_le.mpr ⟨by linarith, by linarith⟩ : |x - a| ≤ h))
  refine ⟨⟨by linarith, lt_of_le_of_ne (by linarith) hne⟩, ?_⟩
  have hgap : (b : ℚ) ≤ (a + unitsPerOne : ℕ) := by
    push_cast
    linarith
  exact_mod_cast hgap

theorem sign_minus (minus : Prop) [Decidable minus] :
    Leading.Sign (if minus then ['-'] else []) (decide minus) := by
  by_cases h : minus
  · rw [if_pos h, decide_eq_true h]
    exact .minus
  · rw [if_neg h, decide_eq_false h]
    exact .none

/-- What is written below the threshold stands for the double next to it. -/
theorem denotes_positional (minus : Prop) [Decidable minus]
    (hb : Closest (halfUp (a * 10 ^ places) unitsPerOne / 10 ^ places * unitsPerOne) b) :
    Leading.Denotes ((if minus then ['-'] else []) ++ positional a places)
      (ofUnits (decide minus) b) := by
  obtain ⟨before, after, hwritten, hne, hbefore, -, hlength, hafter, hsum⟩ := rounded_split a places
  obtain ⟨r, hfigures, hvalue⟩ : ∃ r, Leading.Figures (positional a places) before r ∧
      (value before + value r / 10 ^ r.length : ℚ) =
        halfUp (a * 10 ^ places) unitsPerOne / 10 ^ places := by
    rw [hwritten, ← hsum]
    cases places with
    | zero =>
        obtain rfl := List.length_eq_zero_iff.mp hlength
        refine ⟨[], ?_, ?_⟩
        · rw [if_neg (Nat.lt_irrefl 0), List.append_nil]
          exact .whole ⟨hbefore, hne⟩
        · simp
    | succ places =>
        refine ⟨after, ?_, ?_⟩
        · rw [if_pos (Nat.succ_pos places)]
          exact .point ⟨hbefore, hne⟩ hafter
        · rw [hlength, ← places_cast, mul_one_div]
  have hspelled := Leading.Spelled.decimal (sign_minus minus) hfigures .none
  rw [List.append_nil, zpow_zero, mul_one, hvalue] at hspelled
  exact .decimal hspelled ⟨b, hb, rfl⟩

/-- It has the same digits, and a minus sign if it did not become zero. -/
theorem render_reread_of_lt {negative : Bool} (h : Representable a)
    (hsmall : a < exponentThreshold) :
    render (Leading.read? (render (some (.finite negative a h)) places)) places =
        render (some (.finite negative a h)) places ↔
      ¬ (negative ∧ 0 < a ∧ halfUp (a * 10 ^ places) unitsPerOne = 0) := by
  obtain ⟨b, hb⟩ : ∃ b,
      Closest (halfUp (a * 10 ^ places) unitsPerOne / 10 ^ places * unitsPerOne) b := by
    have hclosest := closest_nearestUnits (Nat.pow_pos (by decide) : (0 : ℕ) < 10 ^ places)
      (halfUp (a * 10 ^ places) unitsPerOne * unitsPerOne)
    rw [Nat.cast_mul, Nat.cast_pow, Nat.cast_ofNat, ← div_mul_eq_mul_div] at hclosest
    exact ⟨_, hclosest⟩
  obtain ⟨hsame, hbound⟩ := halfUp_closest h.1 hb
  have hbsmall : b < exponentThreshold :=
    Nat.lt_of_le_of_lt hbound (add_one_lt_threshold h.1 hsmall)
  have hfinite : Representable b := ⟨hb.fits, hbsmall.trans (by decide +kernel)⟩
  have hzero : 0 < b ↔ halfUp (a * 10 ^ places) unitsPerOne ≠ 0 := by
    refine ⟨fun hpos hnone => ?_, fun hne => Nat.pos_of_ne_zero fun hnone => hne ?_⟩
    · rw [hnone, Nat.cast_zero, zero_div, zero_mul] at hb
      exact hpos.ne' (hb.unique (by exact_mod_cast Closest.of_fits (rfl : Fits 0)))
    · rw [← hsame, hnone, halfUp_eq_iff unitsPerOne_pos]
      have hone := unitsPerOne_pos
      omega
  have hwritten : render (some (.finite negative a h)) places =
      (if negative ∧ 0 < a then ['-'] else []) ++ positional a places := by
    rw [render, if_neg (Nat.not_le.mpr hsmall)]
  rw [hwritten, Leading.read?_of_denotes_self (denotes_positional _ hb), ofUnits,
    dif_pos hfinite, render,
    if_neg (Nat.not_le.mpr hbsmall), positional_congr hsame, List.append_left_inj, ← and_assoc]
  simp only [decide_eq_true_iff, hzero]
  generalize halfUp (a * 10 ^ places) unitsPerOne = n
  by_cases hminus : negative ∧ 0 < a
  · by_cases hn : n = 0 <;> simp [hminus, hn]
  · simp [hminus]

/-! ### From the threshold on -/

theorem closest_value {units : ℕ} (h : Representable units) :
    Closest ((Shortest.ofUnits units).value * unitsPerOne) units := by
  have hnonneg : 0 ≤ (Shortest.ofUnits units).value * unitsPerOne :=
    mul_nonneg (mul_nonneg (Nat.cast_nonneg _) (by positivity)) (Nat.cast_nonneg _)
  generalize hq : (Shortest.ofUnits units).value * unitsPerOne = q at *
  have hsplit : (q.num.toNat : ℚ) / q.den = q := by
    conv_rhs => rw [← Rat.num_div_den q, ← Int.toNat_of_nonneg (Rat.num_nonneg.mpr hnonneg)]
    rw [Int.cast_natCast]
  have hclosest := closest_nearestUnits q.den_pos q.num.toNat
  rwa [Shortest.nearestUnits_of_value h q.den_pos (hsplit.trans hq.symm), hsplit] at hclosest

/-- A number that is written with an exponent has digits before the point. -/
theorem point_pos {units : ℕ} (h : Representable units) (hlarge : exponentThreshold ≤ units) :
    0 < (Shortest.ofUnits units).point := by
  by_contra hpoint
  have hdigits : (value (Shortest.ofUnits units).digits : ℚ) ≤
      10 ^ ((Shortest.ofUnits units).digits.length : ℤ) := by
    rw [zpow_natCast]
    exact_mod_cast (Numeral.value_lt fun _ => Shortest.isDigit_of_mem_digits).le
  have hvalue : (Shortest.ofUnits units).value ≤ 1 := by
    calc (Shortest.ofUnits units).value
        ≤ 10 ^ ((Shortest.ofUnits units).digits.length : ℤ) *
            10 ^ ((Shortest.ofUnits units).point - (Shortest.ofUnits units).digits.length) :=
          mul_le_mul_of_nonneg_right hdigits (by positivity)
      _ = 10 ^ (Shortest.ofUnits units).point := by
          rw [← zpow_add₀ (by norm_num), add_sub_cancel]
      _ ≤ 1 := zpow_le_one_of_nonpos₀ (by norm_num) (not_lt.mp hpoint)
  have hone :=
    (closest_value h).le fits_unitsPerOne (mul_le_of_le_one_left (Nat.cast_nonneg _) hvalue)
  have hthreshold := unitsPerOne_lt_threshold
  omega

/-- It is read as it was. -/
theorem read?_render_of_ge {negative : Bool} (h : Representable a)
    (hlarge : exponentThreshold ≤ a) :
    Leading.read? (render (some (.finite negative a h)) places) = some (.finite negative a h) := by
  have hpos : 0 < a := (Nat.zero_lt_of_lt unitsPerOne_lt_threshold).trans_le hlarge
  have hpoint := point_pos h hlarge
  have hclosest := closest_value h
  have hdigits : ∀ c ∈ (Shortest.ofUnits a).digits, c.isDigit = true :=
    fun _ => Shortest.isDigit_of_mem_digits
  obtain ⟨c, rest, hsplit⟩ := List.exists_cons_of_ne_nil (Shortest.head_digits_ofUnits hpos.ne').1
  obtain ⟨k, hk⟩ : ∃ k : ℕ, (Shortest.ofUnits a).point - 1 = k :=
    ⟨_, (Int.toNat_of_nonneg (by omega)).symm⟩
  rw [hsplit] at hdigits
  obtain ⟨hc, hrest⟩ := List.forall_mem_cons.mp hdigits
  have hfirst : Leading.Run [c] := ⟨List.forall_mem_singleton.mpr hc, List.cons_ne_nil _ _⟩
  have hplace : Numeral.ofInt (k : Int) = Numeral.ofNat k := by
    rw [Numeral.ofInt, if_neg (by omega), Int.natAbs_natCast]
  have hfigures : Leading.Figures ([c] ++ if rest = [] then [] else '.' :: rest) [c] rest := by
    by_cases hnone : rest = []
    · rw [if_pos hnone, List.append_nil, hnone]
      exact .whole hfirst
    · rw [if_neg hnone]
      exact .point hfirst hrest
  have hscale : Leading.Scale ('e' :: (['+'] ++ Numeral.ofNat k)) k := by
    have hpower := Leading.Scale.power (Or.inl rfl) .plus
      ⟨fun _ => Numeral.isDigit_of_mem_ofNat (n := k), Numeral.ofNat_ne_nil k⟩
    rwa [if_neg Bool.false_ne_true, Numeral.value_ofNat] at hpower
  have hvalue : ((value [c] + value rest / 10 ^ rest.length) * 10 ^ (k : Int) : ℚ) =
      (Shortest.ofUnits a).value := by
    have hshift : (Shortest.ofUnits a).point - ((rest.length + 1 : ℕ) : Int) =
        k - (rest.length : ℕ) := by
      push_cast
      omega
    have hjoin : value (c :: rest) = value [c] * 10 ^ rest.length + value rest :=
      Numeral.value_append [c] rest
    rw [Shortest.value, hsplit, List.length_cons, hshift, zpow_sub₀ (by norm_num), hjoin,
      zpow_natCast, zpow_natCast]
    push_cast
    field_simp
  have hwritten : render (some (.finite negative a h)) places =
      (if negative ∧ 0 < a then ['-'] else []) ++
      (([c] ++ if rest = [] then [] else '.' :: rest) ++ 'e' :: (['+'] ++ Numeral.ofNat k)) := by
    rw [render, if_pos hlarge, scientific, hk, hplace, hsplit]
    rw [List.append_assoc (_ ++ _)]
    rfl
  have hspelled := Leading.Spelled.decimal (sign_minus (negative ∧ 0 < a)) hfigures hscale
  rw [hvalue, ← hwritten] at hspelled
  have hread := Leading.read?_of_denotes_self (.decimal hspelled ⟨a, hclosest, rfl⟩)
  rw [hread, ofUnits, dif_pos h]
  simp [hpos]

/-- A number that is written without a point, and could have one, is written again as it was. -/
theorem render_reread_of_no_point {v : Option Binary64} (hplaces : 0 < places)
    (hpoint : '.' ∉ render v places) :
    render (Leading.read? (render v places)) places = render v places := by
  match v with
  | none | some .nan => rfl
  | some (.infinite true) => rfl
  | some (.infinite false) => rfl
  | some (.finite negative units h) =>
      by_cases hlarge : exponentThreshold ≤ units
      · rw [read?_render_of_ge h hlarge]
      · rw [render, if_neg hlarge, List.mem_append, not_or] at hpoint
        exact absurd (by simp [positional, hplaces.ne']) hpoint.2

/-! ### All numbers -/

theorem rounds_to_zero_iff {negative : Bool} (h : Representable a) :
    (∃ q, (Binary64.finite negative a h).number? = some q ∧ q < 0 ∧
      IsNearest (1 / 10 ^ places) q 0) ↔
      negative ∧ 0 < a ∧ halfUp (a * 10 ^ places) unitsPerOne = 0 := by
  have hone : (0 : ℚ) < unitsPerOne := by exact_mod_cast unitsPerOne_pos
  have hmagnitude : (0 : ℚ) ≤ a / unitsPerOne := div_nonneg (Nat.cast_nonneg _) hone.le
  have hpos : (0 : ℚ) < a / unitsPerOne ↔ 0 < a := by
    rw [div_pos_iff_of_pos_right hone, Nat.cast_pos]
  have hnearest : IsNearest (1 / 10 ^ places)
      (if negative then -(a / unitsPerOne : ℚ) else a / unitsPerOne)
      ((if negative ∧ 0 < (a / unitsPerOne : ℚ) then -1 else 1) *
        (halfUp (a * 10 ^ places) unitsPerOne * (1 / 10 ^ places))) :=
    isNearest_signed hmagnitude (isNearest_halfUp unitsPerOne_pos a places)
  have hzero : IsNearest (1 / 10 ^ places)
      (if negative then -(a / unitsPerOne : ℚ) else a / unitsPerOne) 0 ↔
      halfUp (a * 10 ^ places) unitsPerOne = 0 := by
    refine ⟨fun h => ?_, fun hnone => ?_⟩
    · have hequal := h.unique hnearest
      have hstep : (1 / 10 ^ places : ℚ) ≠ 0 := by positivity
      have hsign : (if negative ∧ 0 < (a / unitsPerOne : ℚ) then -1 else 1 : ℚ) ≠ 0 := by
        split <;> norm_num
      exact_mod_cast
        (mul_eq_zero.mp ((mul_eq_zero.mp hequal.symm).resolve_left hsign)).resolve_right hstep
    · rwa [hnone, Nat.cast_zero, zero_mul, mul_zero] at hnearest
  constructor
  · rintro ⟨_, ⟨⟩, hbelow, hnear⟩
    obtain ⟨hminus, hmore⟩ := (signed_neg_iff hmagnitude).mp hbelow
    exact ⟨hminus, hpos.mp hmore, hzero.mp hnear⟩
  · rintro ⟨hminus, hmore, hnone⟩
    exact ⟨_, rfl, (signed_neg_iff hmagnitude).mpr ⟨hminus, hpos.mpr hmore⟩, hzero.mpr hnone⟩

/-- Writing a number survives reading it again, unless it is below zero and written as zero; and a
number that is written with an exponent is what is read again. -/
theorem render_reread (v : Binary64) (places : ℕ) :
    (render (Leading.read? (render (some v) places)) places = render (some v) places ↔
      ¬ ∃ q, v.number? = some q ∧ q < 0 ∧ IsNearest (1 / 10 ^ places) q 0) ∧
    ∀ q, v.number? = some q → 10 ^ 21 ≤ |q| → Leading.read? (render (some v) places) = some v := by
  cases v with
  | nan =>
      refine ⟨⟨fun _ => ?_, fun _ => rfl⟩, fun _ hv => nomatch hv⟩
      rintro ⟨_, ⟨⟩, _⟩
  | infinite negative =>
      refine ⟨⟨fun _ => ?_, fun _ => ?_⟩, fun _ hv => nomatch hv⟩
      · rintro ⟨_, ⟨⟩, _⟩
      · cases negative <;> rfl
  | finite negative units h =>
      rw [rounds_to_zero_iff]
      rcases Nat.lt_or_ge units exponentThreshold with hsmall | hlarge
      · refine ⟨render_reread_of_lt h hsmall, ?_⟩
        rintro _ ⟨⟩ hq
        rw [abs_signed (div_nonneg (Nat.cast_nonneg _) (Nat.cast_nonneg _))] at hq
        exact absurd (threshold_le_iff.mpr hq) (Nat.not_le.mpr hsmall)
      · have hread : Leading.read? (render (some (.finite negative units h)) places) =
            some (.finite negative units h) := read?_render_of_ge h hlarge
        refine ⟨⟨fun _ hzero => ?_, fun _ => by rw [hread]⟩, fun _ _ _ => hread⟩
        have hone := unitsPerOne_lt_threshold
        have hmore : units ≤ units * 10 ^ places :=
          Nat.le_mul_of_pos_right _ (Nat.pow_pos (by decide))
        have hsmall := ((halfUp_eq_iff unitsPerOne_pos).mp hzero.2.2).2
        omega

/-- With an exponent, and below zero. -/
theorem render_reread_exponent :
    (ofUnits true (15000000000000000000000 * unitsPerOne)).number? =
      some (-15000000000000000000000) ∧
      10 ^ 21 ≤ |(-15000000000000000000000 : ℚ)| ∧
      render (some (ofUnits true (15000000000000000000000 * unitsPerOne))) 2 = "-1.5e+22".toList ∧
      Leading.read? "-1.5e+22".toList =
        some (ofUnits true (15000000000000000000000 * unitsPerOne)) := by
  have hv : (ofUnits true (15000000000000000000000 * unitsPerOne)).number? =
      some (-15000000000000000000000) := by
    decide +kernel
  have hq : 10 ^ 21 ≤ |(-15000000000000000000000 : ℚ)| := by norm_num [abs_of_neg]
  have hwritten : render (some (ofUnits true (15000000000000000000000 * unitsPerOne))) 2 =
      "-1.5e+22".toList := by
    decide +kernel
  have hread := (render_reread _ 2).2 _ hv hq
  rw [hwritten] at hread
  exact ⟨hv, hq, hwritten, hread⟩

end

end Fixed
end ChartPackage
