import Mathlib
import ChartPackage.Number.Binary64

/-!
Rounding to the nearest double. A quotient that lies within half a step of a double, on the finer
side of a power of two within half of the finer step, is rounded to that double; of a tie the even
one is the result.
-/

namespace ChartPackage

namespace Rounding

theorem halfEven_of_above {m gap den : Nat} (hden : 0 < den) (hgap : 2 * gap ≤ den)
    (htie : 2 * gap = den → m % 2 = 0) : halfEven (m * den + gap) den = m := by
  have hsmall : gap < den := by omega
  have hfloor : (m * den + gap) / den = m := by
    rw [Nat.mul_comm, Nat.mul_add_div hden, Nat.div_eq_of_lt hsmall, Nat.add_zero]
  have hrest : (m * den + gap) % den = gap := by
    rw [Nat.mul_comm, Nat.mul_add_mod, Nat.mod_eq_of_lt hsmall]
  rw [halfEven, hfloor, hrest]
  split
  · rfl
  · rw [if_neg (by omega), htie (by omega), Nat.add_zero]

theorem halfEven_of_below {m gap num den : Nat} (hnum : num + gap = m * den) (hpos : 0 < gap)
    (hgap : 2 * gap ≤ den)
    (htie : 2 * gap = den → m % 2 = 0) : halfEven num den = m := by
  have hden : 0 < den := by omega
  obtain ⟨m, rfl⟩ : ∃ k, m = k + 1 := by
    refine ⟨m - 1, ?_⟩
    cases m with
    | zero =>
        rw [Nat.zero_mul] at hnum
        omega
    | succ m => rfl
  rw [Nat.add_mul, Nat.one_mul] at hnum
  obtain rfl : num = m * den + (den - gap) := by omega
  have hfloor : (m * den + (den - gap)) / den = m := by
    rw [Nat.mul_comm, Nat.mul_add_div hden, Nat.div_eq_of_lt (by omega), Nat.add_zero]
  have hrest : (m * den + (den - gap)) % den = den - gap := by
    rw [Nat.mul_comm, Nat.mul_add_mod, Nat.mod_eq_of_lt (by omega)]
  rw [halfEven, hfloor, hrest, if_neg (by omega)]
  split
  · rfl
  · have hodd : m % 2 = 1 := by
      have heven := htie (by omega)
      omega
    rw [hodd]

/-- Only the ratio counts. -/
theorem halfEven_mul {c : Nat} (hc : 0 < c) (num den : Nat) :
    halfEven (c * num) (c * den) = halfEven num den := by
  have hscale : ∀ a b, c * a < c * b ↔ a < b := fun a b => Nat.mul_lt_mul_left hc
  simp only [halfEven, Nat.mul_div_mul_left _ _ hc, Nat.mul_mod_mul_left,
    Nat.mul_left_comm 2 c, hscale]

end Rounding

namespace Binary64
open Rounding

theorem lostBits_eq {units k : Nat} (hhigh : units < 2 ^ (53 + k))
    (hlow : k = 0 ∨ 2 ^ (52 + k) ≤ units) :
    lostBits units = k := by
  rw [lostBits]
  by_cases hzero : units = 0
  · cases hlow with
    | inl hk => rw [hzero, hk]; rfl
    | inr hlow =>
        have hpow := Nat.two_pow_pos (52 + k)
        omega
  · have hlog := (Nat.log2_lt hzero).mpr hhigh
    cases hlow with
    | inl hk => omega
    | inr hlow =>
        have hlog' := (Nat.le_log2 hzero).mpr hlow
        omega

/-- The numbers of units that 53 significant bits have room for, however large. -/
def Fits (units : Nat) : Prop := units % 2 ^ lostBits units = 0

theorem lt_pow_lostBits (units : Nat) : units < 2 ^ (53 + lostBits units) := by
  refine Nat.lt_of_lt_of_le Nat.lt_log2_self (Nat.pow_le_pow_right (by decide) ?_)
  rw [lostBits]
  omega

theorem pow_lostBits_le (units : Nat) : lostBits units = 0 ∨ 2 ^ (52 + lostBits units) ≤ units := by
  by_cases hlost : lostBits units = 0
  · exact Or.inl hlost
  · right
    have hne : units ≠ 0 := by
      intro hzero
      rw [hzero] at hlost
      exact hlost rfl
    have hlog : 52 + lostBits units = units.log2 := by
      rw [lostBits] at hlost ⊢
      omega
    rw [hlog]
    exact Nat.log2_self_le hne

/-- The significand of a number has 53 bits, unless no bits are lost. -/
theorem significand_bounds (units : Nat) :
    units / 2 ^ lostBits units < 2 ^ 53 ∧
      (lostBits units = 0 ∨ 2 ^ 52 ≤ units / 2 ^ lostBits units) := by
  have hpow := Nat.two_pow_pos (lostBits units)
  rw [Nat.div_lt_iff_lt_mul hpow, Nat.le_div_iff_mul_le hpow, ← Nat.pow_add, ← Nat.pow_add]
  exact ⟨lt_pow_lostBits units, pow_lostBits_le units⟩

/-- A number that fits is its significand, moved up by the bits that are lost. -/
theorem Fits.significand {units : Nat} (h : Fits units) :
    units = units / 2 ^ lostBits units * 2 ^ lostBits units ∧ units / 2 ^ lostBits units < 2 ^ 53 ∧
      (lostBits units = 0 ∨ 2 ^ 52 ≤ units / 2 ^ lostBits units) :=
  ⟨(Nat.div_mul_cancel (Nat.dvd_of_mod_eq_zero h)).symm, significand_bounds units⟩

-- The exponents of these powers stay names: nothing is to work the powers out.

theorem exists_unitsPerOne_eq : ∃ bits, bits = 1074 ∧ unitsPerOne = 2 ^ bits := by
  obtain ⟨bits, hbits⟩ : ∃ bits, bits = 1074 := ⟨_, rfl⟩
  exact ⟨bits, hbits, by rw [unitsPerOne, ← hbits]⟩

theorem exists_unitsLimit_eq : ∃ bits, bits = 2098 ∧ unitsLimit = 2 ^ bits := by
  obtain ⟨bits, hbits⟩ : ∃ bits, bits = 2098 := ⟨_, rfl⟩
  exact ⟨bits, hbits, by rw [unitsLimit, ← hbits]⟩

theorem representable_mul_pow {m k : Nat} (hm : m < 2 ^ 53) (hk : k ≤ 2045) :
    Representable (m * 2 ^ k) := by
  have hpow := Nat.two_pow_pos k
  have hhigh : m * 2 ^ k < 2 ^ (53 + k) := by
    rw [Nat.pow_add]
    exact Nat.mul_lt_mul_of_pos_right hm hpow
  have hlost : lostBits (m * 2 ^ k) ≤ k := by
    by_cases hzero : m * 2 ^ k = 0
    · rw [hzero]
      exact Nat.zero_le k
    · have hlog := (Nat.log2_lt hzero).mpr hhigh
      rw [lostBits]
      omega
  have hlimit : 2 ^ (53 + k) ≤ unitsLimit := by
    obtain ⟨bits, hbits, hlimit⟩ := exists_unitsLimit_eq
    rw [hlimit]
    exact Nat.pow_le_pow_right (by decide) (by omega)
  exact ⟨Nat.mod_eq_zero_of_dvd (Nat.dvd_mul_left_of_dvd (Nat.pow_dvd_pow 2 hlost) m),
    Nat.lt_of_lt_of_le hhigh hlimit⟩

theorem nearestUnits_eq {num den m k : Nat} (hlost : lostBits (num / den) = k)
    (hround : halfEven num (den * 2 ^ k) = m) : nearestUnits num den = m * 2 ^ k := by
  rw [nearestUnits, hlost, hround]

section

variable {units num den gap : Nat}

/-- From above, half a step away or less. -/
theorem nearestUnits_of_above (h : Representable units) (hden : 0 < den)
    (hnum : num = units * den + gap)
    (hgap : 2 * gap ≤ den * 2 ^ lostBits units)
    (htie : 2 * gap = den * 2 ^ lostBits units → units / 2 ^ lostBits units % 2 = 0) :
    nearestUnits num den = units := by
  obtain ⟨hunits, hhigh, hlow⟩ := Fits.significand h.1
  generalize units / 2 ^ lostBits units = m at *
  generalize lostBits units = k at *
  have hpow := Nat.two_pow_pos k
  have hquotient : num / den = units + gap / den := by
    rw [hnum, Nat.mul_comm, Nat.mul_add_div hden]
  have hstep : gap / den < 2 ^ k := by
    rw [Nat.div_lt_iff_lt_mul hden, Nat.mul_comm]
    have hlarge := Nat.mul_pos hden hpow
    omega
  have hspan : (m + 1) * 2 ^ k ≤ 2 ^ (53 + k) := by
    rw [Nat.pow_add]
    exact Nat.mul_le_mul_right _ hhigh
  rw [Nat.add_mul, Nat.one_mul, ← hunits] at hspan
  have hlost : lostBits (num / den) = k := by
    rw [hquotient]
    generalize gap / den = part at hstep
    refine lostBits_eq (by omega) (hlow.imp_right fun hlow => ?_)
    have hleast : 2 ^ 52 * 2 ^ k ≤ m * 2 ^ k := Nat.mul_le_mul_right _ hlow
    rw [← Nat.pow_add, ← hunits] at hleast
    omega
  have hsplit : num = m * (den * 2 ^ k) + gap := by
    rw [hnum, hunits]
    ring
  rw [nearestUnits_eq hlost (hsplit ▸ halfEven_of_above (Nat.mul_pos hden hpow) hgap htie),
    ← hunits]

/-- From below, half a step away or less, unless steps get finer there. -/
theorem nearestUnits_of_below (h : Representable units) (hpos : 0 < gap)
    (hnum : num + gap = units * den)
    (hgap : 2 * gap ≤ den * 2 ^ lostBits units)
    (htie : 2 * gap = den * 2 ^ lostBits units → units / 2 ^ lostBits units % 2 = 0)
    (hsame : units ≠ 2 ^ (52 + lostBits units) ∨ lostBits units = 0) :
      nearestUnits num den = units := by
  obtain ⟨hunits, hhigh, hlow⟩ := Fits.significand h.1
  generalize units / 2 ^ lostBits units = m at *
  generalize lostBits units = k at *
  have hpow := Nat.two_pow_pos k
  have hden : 0 < den := by
    refine Nat.pos_of_ne_zero fun hzero => ?_
    rw [hzero, Nat.zero_mul] at hgap
    omega
  have hspan : (m + 1) * 2 ^ k ≤ 2 ^ (53 + k) := by
    rw [Nat.pow_add]
    exact Nat.mul_le_mul_right _ hhigh
  rw [Nat.add_mul, Nat.one_mul, ← hunits] at hspan
  have hlost : lostBits (num / den) = k := by
    refine lostBits_eq ?_ ?_
    · have hquotient : num / den < units := by
        rw [Nat.div_lt_iff_lt_mul hden]
        omega
      omega
    · by_cases hk : k = 0
      · exact Or.inl hk
      · right
        have hlarger : 2 ^ 52 < m := by
          refine Nat.lt_of_le_of_ne (hlow.resolve_left hk) fun heq => ?_
          refine hsame.resolve_right hk ?_
          rw [hunits, ← heq, Nat.pow_add]
        rw [Nat.le_div_iff_mul_le hden]
        have hbelow : (2 ^ 52 + 1) * (den * 2 ^ k) ≤ m * (den * 2 ^ k) :=
          Nat.mul_le_mul_right _ hlarger
        have hproduct : m * (den * 2 ^ k) = units * den := by
          rw [hunits]
          ring
        have hpower : 2 ^ (52 + k) * den = 2 ^ 52 * (den * 2 ^ k) := by
          rw [Nat.pow_add]
          ring
        omega
  have hsplit : num + gap = m * (den * 2 ^ k) := by
    rw [hnum, hunits]
    ring
  rw [nearestUnits_eq hlost (halfEven_of_below hsplit hpos hgap htie), ← hunits]

/-- From below a power of two, half of a finer step away or less. -/
theorem nearestUnits_below_power {k : Nat} (hpos : 0 < gap) (hnum : num + gap = 2 ^ (53 + k) * den)
    (hgap : 2 * gap ≤ den * 2 ^ k) : nearestUnits num den = 2 ^ (53 + k) := by
  have hden : 0 < den := by
    refine Nat.pos_of_ne_zero fun hzero => ?_
    rw [hzero, Nat.zero_mul] at hgap
    omega
  have hlost : lostBits (num / den) = k := by
    refine lostBits_eq ?_ (Or.inr ?_)
    · rw [Nat.div_lt_iff_lt_mul hden]
      omega
    · rw [Nat.le_div_iff_mul_le hden]
      have hhalf : 2 ^ (53 + k) * den = 2 * (2 ^ (52 + k) * den) := by
        rw [show 53 + k = 52 + k + 1 from by omega, Nat.pow_succ]
        ring
      have hfine : den * 2 ^ k ≤ 2 ^ (52 + k) * den := by
        rw [Nat.mul_comm]
        exact Nat.mul_le_mul_right _ (Nat.pow_le_pow_right (by decide) (by omega))
      omega
  have hsplit : num + gap = 2 ^ 53 * (den * 2 ^ k) := by
    rw [hnum, Nat.pow_add]
    ring
  rw [nearestUnits_eq hlost (halfEven_of_below hsplit hpos hgap fun _ => by decide), Nat.pow_add]

end

/-- Only the ratio counts. -/
theorem nearestUnits_mul {c : Nat} (hc : 0 < c) (num den : Nat) :
    nearestUnits (c * num) (c * den) = nearestUnits num den := by
  simp only [nearestUnits, Nat.mul_div_mul_left _ _ hc, Nat.mul_assoc, Rounding.halfEven_mul hc]

theorem nearestUnits_congr {a b c d : Nat} (hb : 0 < b) (hd : 0 < d) (h : a * d = c * b) :
    nearestUnits a b = nearestUnits c d := by
  rw [← nearestUnits_mul hd a b, ← nearestUnits_mul hb c d, Nat.mul_comm d a, h, Nat.mul_comm c b,
    Nat.mul_comm d b]

/-- A double is rounded to itself. -/
theorem nearestUnits_of_exact {units den : Nat} (h : Representable units) (hden : 0 < den) :
    nearestUnits (units * den) den = units := by
  have hstep := Nat.mul_pos hden (Nat.two_pow_pos (lostBits units))
  exact nearestUnits_of_above h hden (Nat.add_zero _).symm (by omega) (by omega)

end Binary64
end ChartPackage
