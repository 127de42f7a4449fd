import Mathlib
import ChartPackage.Proofs.Number.Characters

/-!
The values of numerals. The numeral of a number has its value and no superfluous zero in front;
zeros at the end of a run of digits multiply its value by ten each. A run of digits is known by its
length and its value, so that adding one place by place gives the numeral of the next number.
-/

namespace ChartPackage.Numeral

theorem value_ofNat (n : Nat) : value (ofNat n) = n := Nat.ofDigitChars_ten_toDigits

theorem value_append (a b : Text) : value (a ++ b) = value a * 10 ^ b.length + value b := by
  have happend : value (a ++ b) = Nat.ofDigitChars 10 b (value a) := Nat.ofDigitChars_append 0
  rw [happend, Nat.ofDigitChars_eq_ofDigitChars_zero, Nat.mul_comm]
  rfl

theorem value_zeros (n : Nat) : value (List.replicate n '0') = 0 := by
  induction n with
  | zero => rfl
  | succ n ih =>
      rw [List.replicate_succ', value_append, ih]
      rfl

theorem value_lt {digits : Text} (h : ∀ c ∈ digits, c.isDigit = true) :
    value digits < 10 ^ digits.length := by
  induction digits using List.reverseRecOn with
  | nil => decide
  | append_singleton digits c ih =>
      have hdigits : value digits < 10 ^ digits.length := ih fun d hd =>
        h d (List.mem_append_left _ hd)
      have hc : value [c] < 10 := by
        have hdigit := h c (List.mem_append_right _ (List.mem_singleton_self c))
        simp only [Char.isDigit, Bool.and_eq_true, decide_eq_true_eq,
          UInt32.le_iff_toNat_le] at hdigit
        have hhigh : c.toNat ≤ 57 := hdigit.2
        have hzero : '0'.toNat = 48 := rfl
        rw [value, List.foldl_cons, List.foldl_nil, digitValue]
        omega
      rw [value_append, List.length_append, List.length_singleton, pow_succ]
      omega

theorem ofNat_ne_nil (n : Nat) : ofNat n ≠ [] := Nat.toDigits_ne_nil

theorem length_ofNat_le_iff {n k : Nat} (hk : 0 < k) : (ofNat n).length ≤ k ↔ n < 10 ^ k :=
  Nat.length_toDigits_le_iff (by decide) hk

/-- The numeral of a number starts with a zero only if it is that of zero. -/
theorem eq_zero_of_head {n : Nat} (h : (ofNat n).head? = some '0') : n = 0 := by
  induction n using Nat.strongRecOn with
  | ind n ih =>
      by_cases hn : n < 10
      · have hdigit : ofNat n = [n.digitChar] := Nat.toDigits_of_lt_base hn
        have hvalue := value_ofNat n
        rw [hdigit, List.head?_cons] at h
        rw [hdigit, Option.some.inj h] at hvalue
        exact hvalue.symm
      · have hsplit : ofNat n = ofNat (n / 10) ++ [(n % 10).digitChar] :=
          Nat.toDigits_of_base_le (by decide) (Nat.not_lt.mp hn)
        rw [hsplit, List.head?_append_of_ne_nil _ (ofNat_ne_nil _)] at h
        have htenth := ih (n / 10) (by omega) h
        omega

theorem value_cons (c : Char) (rest : Text) :
    value (c :: rest) = digitValue c * 10 ^ rest.length + value rest := by
  have hfirst : value [c] = digitValue c := Nat.zero_add _
  rw [← List.singleton_append, value_append, hfirst]

theorem value_dropWhile_zeros (digits : Text) :
    value (digits.dropWhile (· = '0')) = value digits := by
  induction digits with
  | nil => rfl
  | cons c rest ih =>
      rw [List.dropWhile_cons]
      split
      · next hc =>
          have hzero : digitValue '0' = 0 := rfl
          rw [ih, value_cons, of_decide_eq_true hc, hzero, Nat.zero_mul, Nat.zero_add]
      · rfl

/-- A run of digits without a zero in front. -/
theorem le_value {c : Char} {rest : Text} (h : c.isDigit = true) (hc : c ≠ '0') :
    10 ^ rest.length ≤ value (c :: rest) := by
  obtain ⟨n, hn, rfl⟩ := exists_digitChar h
  have hpos : ∀ n < 10, n.digitChar ≠ '0' → 0 < digitValue n.digitChar := by decide
  rw [value_cons]
  exact (Nat.le_mul_of_pos_left _ (hpos n hn hc)).trans (Nat.le_add_right _ _)

/-- Runs of digits of one length and value are one. -/
theorem eq_of_value_eq {a b : Text} (ha : ∀ c ∈ a, c.isDigit = true)
    (hb : ∀ c ∈ b, c.isDigit = true)
    (hlength : a.length = b.length) (hvalue : value a = value b) : a = b := by
  induction a generalizing b with
  | nil => exact (List.length_eq_zero_iff.mp hlength.symm).symm
  | cons c a ih =>
      obtain ⟨d, b, rfl⟩ := List.exists_cons_of_length_eq_add_one hlength.symm
      obtain ⟨hc, harest⟩ := List.forall_mem_cons.mp ha
      obtain ⟨hd, hbrest⟩ := List.forall_mem_cons.mp hb
      have hrest : a.length = b.length := Nat.succ.inj hlength
      have halow := value_lt harest
      have hblow := value_lt hbrest
      rw [value_cons, value_cons, hrest] at hvalue
      rw [hrest] at halow
      have hpos : (0 : Nat) < 10 ^ b.length := Nat.pow_pos (by decide)
      have hfirst : digitValue c = digitValue d := by
        have hdivided := congrArg (fun n : Nat => n / 10 ^ b.length) hvalue
        simp only [Nat.mul_comm _ (10 ^ b.length), Nat.mul_add_div hpos, Nat.div_eq_of_lt halow,
          Nat.div_eq_of_lt hblow, Nat.add_zero] at hdivided
        exact hdivided
      rw [hfirst] at hvalue
      have hdigit : ∀ n < 10, ∀ m < 10, digitValue n.digitChar = digitValue m.digitChar →
          n = m := by decide
      obtain ⟨n, hn, rfl⟩ := exists_digitChar hc
      obtain ⟨m, hm, rfl⟩ := exists_digitChar hd
      rw [hdigit n hn m hm hfirst, ih harest hbrest hrest (Nat.add_left_cancel hvalue)]

/-- A run of digits that is as long as it has to be is the padded numeral of its value. -/
theorem padLeft_ofNat_value {digits : Text} {width : Nat} (h : ∀ c ∈ digits, c.isDigit = true)
    (hwidth : 0 < width)
    (hlong : width ≤ digits.length) (hlow : digits.length = width ∨
      10 ^ (digits.length - 1) ≤ value digits) :
    padLeft width (ofNat (value digits)) = digits := by
  have hlength : (padLeft width (ofNat (value digits))).length = digits.length := by
    have hshort : (ofNat (value digits)).length ≤ digits.length :=
      (length_ofNat_le_iff (by omega)).mpr (value_lt h)
    have hlower : digits.length = width ∨ digits.length ≤ (ofNat (value digits)).length := by
      rcases hlow with hexact | hlow
      · exact Or.inl hexact
      · refine Or.inr (Nat.not_lt.mp fun hless => ?_)
        have hpos : 0 < (ofNat (value digits)).length := List.length_pos_of_ne_nil (ofNat_ne_nil _)
        have hsmall := (length_ofNat_le_iff (n := value digits) (by omega)).mp
          (Nat.le_sub_one_of_lt hless)
        omega
    rw [padLeft, List.length_append, List.length_replicate]
    omega
  refine eq_of_value_eq
    (fun c hc => isDigit_of_mem_padLeft (fun _ => isDigit_of_mem_ofNat) hc) h hlength ?_
  rw [padLeft, value_append, value_zeros, value_ofNat, Nat.zero_mul, Nat.zero_add]

/-- The digits with one more in the last place, and the one that is carried out of the first. -/
theorem value_carryOne {digits : Text} (h : ∀ c ∈ digits, c.isDigit = true) :
    (carryOne digits).1.toNat * 10 ^ digits.length + value (carryOne digits).2 =
      value digits + 1 := by
  have hnext : ∀ n < 10, n.digitChar ≠ '9' →
      digitValue (Char.ofNat (n.digitChar.toNat + 1)) = digitValue n.digitChar + 1 := by decide
  induction digits with
  | nil => rfl
  | cons c rest ih =>
      obtain ⟨hc, hrest⟩ := List.forall_mem_cons.mp h
      have hlater := ih hrest
      have hlength := length_carryOne rest
      rw [carryOne]
      split
      · next out hout =>
          rw [hout] at hlater hlength
          simp only [Bool.toNat_false, Nat.zero_mul, Nat.zero_add] at hlater hlength ⊢
          rw [value_cons, value_cons, hlength, hlater, Nat.add_assoc]
      · next out hout =>
          rw [hout] at hlater hlength
          simp only [Bool.toNat_true, Nat.one_mul] at hlater hlength
          split
          · next hnine =>
              have hvalues : digitValue '9' = 9 ∧ digitValue '0' = 0 := ⟨rfl, rfl⟩
              simp only [Bool.toNat_true, Nat.one_mul]
              rw [value_cons, value_cons, hnine, hvalues.1, hvalues.2,
                List.length_cons, Nat.pow_succ]
              omega
          · next hnine =>
              obtain ⟨n, hn, rfl⟩ := exists_digitChar hc
              simp only [Bool.toNat_false, Nat.zero_mul, Nat.zero_add]
              rw [value_cons, value_cons, hlength, hnext n hn hnine, Nat.add_mul, Nat.one_mul]
              omega

theorem value_addOne {digits : Text} (h : ∀ c ∈ digits, c.isDigit = true) :
    value (addOne digits) = value digits + 1 := by
  have hone : digitValue '1' = 1 := rfl
  have hcarry := value_carryOne h
  have hlength := length_carryOne digits
  rw [addOne]
  split
  · next out hout =>
      rw [hout] at hcarry hlength
      simp only [Bool.toNat_true, Nat.one_mul] at hcarry hlength
      rw [value_cons, hone, Nat.one_mul, hlength, hcarry]
  · next out hout =>
      rw [hout] at hcarry
      simpa using hcarry

/-- A place is added only for a number that needs it. -/
theorem length_addOne {digits : Text} (h : ∀ c ∈ digits, c.isDigit = true) :
    (addOne digits).length = digits.length ∨
      (addOne digits).length = digits.length + 1 ∧ 10 ^ digits.length ≤ value (addOne digits) := by
  have hcarry := value_carryOne h
  have hlength := length_carryOne digits
  have hvalue := value_addOne h
  rw [addOne] at hvalue ⊢
  split at hvalue
  · next out hout =>
      rw [hout] at hcarry hlength
      simp only [Bool.toNat_true, Nat.one_mul] at hcarry hlength
      exact Or.inr ⟨by rw [List.length_cons, hlength], by rw [hvalue, ← hcarry]; omega⟩
  · next out hout =>
      rw [hout] at hlength
      exact Or.inl hlength

/-- Adding one keeps a run of digits as long as it has to be. -/
theorem addOne_low {digits : Text} {width : Nat} (h : ∀ c ∈ digits, c.isDigit = true)
    (hlow : digits.length = width ∨ 10 ^ (digits.length - 1) ≤ value digits) :
    (addOne digits).length = width ∨ 10 ^ ((addOne digits).length - 1) ≤ value (addOne digits) := by
  rcases length_addOne h with hsame | ⟨hmore, hvalue⟩
  · rw [hsame, value_addOne h]
    exact hlow.imp id fun hlow => hlow.trans (Nat.le_succ _)
  · rw [hmore, Nat.add_sub_cancel]
    exact Or.inr hvalue

/-- Adding one place by place is adding one. -/
theorem successor_eq {digits : Text} (h : ∀ c ∈ digits, c.isDigit = true) :
    successor digits = ofNat (value digits + 1) := by
  have hkept : ∀ c ∈ digits.dropWhile (· = '0'), c.isDigit = true :=
    fun c hc => h c ((List.dropWhile_sublist _).subset hc)
  have hlow : (digits.dropWhile (· = '0')).length = 0 ∨
      10 ^ ((digits.dropWhile (· = '0')).length - 1) ≤ value (digits.dropWhile (· = '0')) := by
    cases hdigits : digits.dropWhile (· = '0') with
    | nil => exact Or.inl rfl
    | cons c rest =>
        rw [hdigits] at hkept
        have hc : c ≠ '0' := by
          have hhead := List.head?_dropWhile_not (· = '0') digits
          simpa [hdigits] using hhead
        exact Or.inr (le_value (hkept c List.mem_cons_self) hc)
  have hlow' : (addOne (digits.dropWhile (· = '0'))).length = 1 ∨
      10 ^ ((addOne (digits.dropWhile (· = '0'))).length - 1) ≤ value
        (addOne (digits.dropWhile (· = '0'))) := by
    rcases addOne_low hkept hlow with hnil | hlow
    · exact absurd (List.length_eq_zero_iff.mp hnil) (addOne_ne_nil _)
    · exact Or.inr hlow
  have hpadded := padLeft_ofNat_value (isDigit_of_mem_addOne hkept) Nat.one_pos
    (List.length_pos_of_ne_nil (addOne_ne_nil _)) hlow'
  rw [value_addOne hkept, value_dropWhile_zeros, padLeft,
    Nat.sub_eq_zero_of_le (List.length_pos_of_ne_nil (ofNat_ne_nil _)), List.replicate_zero,
      List.nil_append]
    at hpadded
  rw [successor, hpadded]

end ChartPackage.Numeral
