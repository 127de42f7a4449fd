import Mathlib
import ChartPackage.Number.Fixed
import ChartPackage.Proofs.Text.Cutting
import ChartPackage.Text.Blank

/-!
The characters of written numbers: digits, signs, a point and the letters of an exponent, of
infinity and of a missing number. So a written number never holds a bracket, a comma or a blank.
-/

namespace ChartPackage

namespace Text

theorem mem_of_mem_trimLeft {blank : Char → Bool} {t : Text} {c : Char} (h : c ∈ trimLeft blank t) :
    c ∈ t :=
  (List.dropWhile_sublist blank).subset h

theorem mem_of_mem_trimRight {blank : Char → Bool} {t : Text} {c : Char}
    (h : c ∈ trimRight blank t) : c ∈ t :=
  List.mem_reverse.mp ((List.dropWhile_sublist blank).subset (List.mem_reverse.mp h))

theorem mem_of_mem_trim {blank : Char → Bool} {t : Text} {c : Char} (h : c ∈ trim blank t) :
    c ∈ t :=
  mem_of_mem_trimLeft (mem_of_mem_trimRight h)

end Text

/-- The characters that numbers are written with. -/
def isNumberChar (c : Char) : Bool := c.isDigit || "-.+eNaInfity".toList.contains c

theorem not_blank_of_visible {c : Char} (hlow : 33 ≤ c.toNat) (hhigh : c.toNat ≤ 126) :
    isChartBlank c = false := by
  have hmark : c ≠ '\uFEFF' := by
    intro hc
    rw [hc] at hhigh
    exact absurd hhigh (by decide)
  have hblank : isBlank c = false := by
    simp [isBlank]
    omega
  simp [isChartBlank, hblank, hmark]

theorem not_blank_of_isAlphanum {c : Char} (h : c.isAlphanum = true) : isChartBlank c = false := by
  simp only [Char.isAlphanum, Char.isAlpha, Char.isUpper, Char.isLower, Char.isDigit,
    Bool.or_eq_true, Bool.and_eq_true, decide_eq_true_eq, UInt32.le_iff_toNat_le] at h
  have hrange : 33 ≤ c.val.toNat ∧ c.val.toNat ≤ 126 := by
    rcases h with (h | h) | h
    · exact ⟨Nat.le_trans (by decide) h.1, Nat.le_trans h.2 (by decide)⟩
    · exact ⟨Nat.le_trans (by decide) h.1, Nat.le_trans h.2 (by decide)⟩
    · exact ⟨Nat.le_trans (by decide) h.1, Nat.le_trans h.2 (by decide)⟩
  exact not_blank_of_visible hrange.1 hrange.2

theorem not_blank_of_isDigit {c : Char} (h : c.isDigit = true) : isChartBlank c = false :=
  not_blank_of_isAlphanum (by simp [Char.isAlphanum, h])

theorem not_blank_of_isNumberChar {c : Char} (h : isNumberChar c = true) :
    isChartBlank c = false := by
  rw [isNumberChar, Bool.or_eq_true] at h
  rcases h with h | h
  · exact not_blank_of_isDigit h
  · have hletters : "-.+eNaInfity".toList.all fun d => !isChartBlank d := by decide
    simpa using List.all_eq_true.mp hletters c (List.contains_iff_mem.mp h)

theorem isNumberChar_of_isDigit {c : Char} (h : c.isDigit = true) : isNumberChar c = true := by
  simp [isNumberChar, h]

namespace Numeral

theorem isDigit_of_mem_ofNat {n : Nat} {c : Char} (h : c ∈ ofNat n) : c.isDigit = true :=
  Nat.isDigit_of_mem_toDigits (by decide) (by decide) h

theorem isDigit_of_mem_padLeft {width : Nat} {digits : Text} {c : Char}
    (hdigits : ∀ d ∈ digits, d.isDigit = true) (h : c ∈ padLeft width digits) :
      c.isDigit = true := by
  rcases List.mem_append.mp h with h | h
  · rw [List.eq_of_mem_replicate h]
    decide
  · exact hdigits c h

/-- The digits are the characters of the numbers below ten. -/
theorem exists_digitChar {c : Char} (h : c.isDigit = true) : ∃ n < 10, c = n.digitChar := by
  simp only [Char.isDigit, Bool.and_eq_true, decide_eq_true_eq, UInt32.le_iff_toNat_le] at h
  have hlow : 48 ≤ c.toNat := h.1
  have hhigh : c.toNat ≤ 57 := h.2
  have hcode : ∀ n < 10, n.digitChar.toNat = n + 48 := by decide
  have hn : c.toNat - 48 < 10 := by omega
  refine ⟨c.toNat - 48, hn, Char.toNat_inj.mp ?_⟩
  rw [hcode _ hn]
  omega

theorem isDigit_of_mem_carryOne {digits : Text} (h : ∀ c ∈ digits, c.isDigit = true) :
    ∀ c ∈ (carryOne digits).2, c.isDigit = true := by
  have hnext : ∀ n < 10, n.digitChar ≠ '9' → (Char.ofNat (n.digitChar.toNat + 1)).isDigit =
      true := by decide
  induction digits with
  | nil => simp [carryOne]
  | cons c rest ih =>
      obtain ⟨hc, hrest⟩ := List.forall_mem_cons.mp h
      have hlater := ih hrest
      rw [carryOne]
      split
      · next out hout =>
          rw [hout] at hlater
          exact List.forall_mem_cons.mpr ⟨hc, hlater⟩
      · next out hout =>
          rw [hout] at hlater
          split
          · exact List.forall_mem_cons.mpr ⟨by decide, hlater⟩
          · next hnine =>
              obtain ⟨n, hn, rfl⟩ := exists_digitChar hc
              exact List.forall_mem_cons.mpr ⟨hnext n hn hnine, hlater⟩

theorem isDigit_of_mem_addOne {digits : Text} (h : ∀ c ∈ digits, c.isDigit = true) :
    ∀ c ∈ addOne digits, c.isDigit = true := by
  have hcarry := isDigit_of_mem_carryOne h
  rw [addOne]
  split
  · next out hout =>
      rw [hout] at hcarry
      exact List.forall_mem_cons.mpr ⟨by decide, hcarry⟩
  · next out hout =>
      rw [hout] at hcarry
      exact hcarry

theorem isDigit_of_mem_successor {digits : Text} (h : ∀ c ∈ digits, c.isDigit = true) :
    ∀ c ∈ successor digits, c.isDigit = true :=
  isDigit_of_mem_addOne fun c hc => h c ((List.dropWhile_sublist _).subset hc)

theorem length_carryOne (digits : Text) : (carryOne digits).2.length = digits.length := by
  induction digits with
  | nil => rfl
  | cons c rest ih =>
      rw [carryOne]
      split
      · next hout => simp [← ih, hout]
      · next hout => split <;> simp [← ih, hout]

theorem addOne_ne_nil (digits : Text) : addOne digits ≠ [] := by
  rw [addOne]
  split
  · exact List.cons_ne_nil _ _
  · next out hout =>
      rintro rfl
      have hlength := length_carryOne digits
      rw [hout, List.length_nil] at hlength
      rw [List.length_eq_zero_iff.mp hlength.symm] at hout
      cases hout

theorem isNumberChar_of_mem_ofInt {n : Int} {c : Char} (h : c ∈ ofInt n) :
    isNumberChar c = true := by
  rw [ofInt] at h
  split at h
  · rcases List.mem_cons.mp h with rfl | h
    · decide
    · exact isNumberChar_of_isDigit (isDigit_of_mem_ofNat h)
  · exact isNumberChar_of_isDigit (isDigit_of_mem_ofNat h)

end Numeral

theorem Shortest.isDigit_of_mem_digits {units : Nat} {c : Char} (h : c ∈ (ofUnits units).digits) :
    c.isDigit = true := by
  unfold ofUnits at h
  split at h
  · rw [List.mem_singleton.mp h]
    decide
  · exact Numeral.isDigit_of_mem_ofNat (Text.mem_of_mem_trimRight h)

namespace Fixed

theorem isDigit_of_mem_fraction {units : Nat} {c : Char} (h : c ∈ fraction units) :
    c.isDigit = true :=
  Numeral.isDigit_of_mem_padLeft (fun _ => Numeral.isDigit_of_mem_ofNat) h

theorem isDigit_of_mem_truncated {units places : Nat} {c : Char} (h : c ∈ truncated units places) :
    c.isDigit = true := by
  simp only [truncated, List.mem_append] at h
  rcases h with (h | h) | h
  · exact Numeral.isDigit_of_mem_ofNat h
  · exact isDigit_of_mem_fraction (List.mem_of_mem_take h)
  · rw [List.eq_of_mem_replicate h]
    decide

theorem isDigit_of_mem_rounded {units places : Nat} {c : Char} (h : c ∈ rounded units places) :
    c.isDigit = true := by
  rw [rounded] at h
  split at h
  · exact Numeral.isDigit_of_mem_addOne (fun _ => isDigit_of_mem_truncated) c h
  · exact isDigit_of_mem_truncated h

theorem isNumberChar_of_mem_positional {units places : Nat} {c : Char}
    (h : c ∈ positional units places) : isNumberChar c = true := by
  have hdigit : ∀ d ∈ rounded units places, isNumberChar d = true :=
    fun d hd => isNumberChar_of_isDigit (isDigit_of_mem_rounded hd)
  rcases List.mem_append.mp h with h | h
  · exact hdigit c (List.mem_of_mem_take h)
  · split at h
    · cases h
    · rcases List.mem_cons.mp h with rfl | h
      · decide
      · exact hdigit c (List.mem_of_mem_drop h)

theorem isNumberChar_of_mem_scientific {units : Nat} {c : Char} (h : c ∈ scientific units) :
    isNumberChar c = true := by
  have hdigit : ∀ d ∈ (Shortest.ofUnits units).digits, isNumberChar d = true :=
    fun d hd => isNumberChar_of_isDigit (Shortest.isDigit_of_mem_digits hd)
  have hmark : ∀ d ∈ "e+".toList, isNumberChar d = true :=
    List.all_eq_true.mp (by decide)
  rw [scientific] at h
  rcases List.mem_append.mp h with h | h
  · rcases List.mem_append.mp h with h | h
    · rcases List.mem_append.mp h with h | h
      · exact hdigit c (List.mem_of_mem_take h)
      · split at h
        · cases h
        · rcases List.mem_cons.mp h with rfl | h
          · decide
          · exact hdigit c (List.mem_of_mem_drop h)
    · exact hmark c h
  · exact Numeral.isNumberChar_of_mem_ofInt h

theorem isNumberChar_of_mem_render {value : Option Binary64} {places : Nat} {c : Char}
    (h : c ∈ render value places) : isNumberChar c = true := by
  have hnan : ∀ d ∈ "NaN".toList, isNumberChar d = true := List.all_eq_true.mp (by decide)
  have hinfinity : ∀ d ∈ "-Infinity".toList, isNumberChar d = true :=
    List.all_eq_true.mp (by decide)
  match value with
  | none | some .nan => exact hnan c h
  | some (.infinite true) => exact hinfinity c h
  | some (.infinite false) => exact hinfinity c (List.mem_cons_of_mem _ h)
  | some (.finite negative units _) =>
      rw [render] at h
      rcases List.mem_append.mp h with h | h
      · split at h
        · rw [List.mem_singleton.mp h]
          decide
        · cases h
      · split at h
        · exact isNumberChar_of_mem_scientific h
        · exact isNumberChar_of_mem_positional h

theorem not_mem_render {c : Char} (h : isNumberChar c = false) (value : Option Binary64)
    (places : Nat) : c ∉ render value places := fun hc => by
  simp [isNumberChar_of_mem_render hc] at h

end Fixed
end ChartPackage
