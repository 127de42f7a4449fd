import Mathlib
import ChartPackage.Json.Printer
import ChartPackage.Json.Reader
import ChartPackage.Proofs.Number.Numerals

/-!
Numbers as JSON has them: a numeral, then perhaps a fraction and an exponent. What is written of
such a number is read back part by part, up to whatever follows that goes on no number.
-/

namespace ChartPackage.Json

/-- A run of digits, at least one. -/
def Digits (t : Text) : Prop := t ≠ [] ∧ ∀ c ∈ t, c.isDigit = true

/-- A text that no number goes on with. -/
def Stop (t : Text) : Prop :=
  ∀ c, t.head? = some c → c.isDigit = false ∧ c ≠ '.' ∧ c ≠ 'e' ∧ c ≠ 'E'

theorem stop_nil : Stop [] := by
  intro c h
  cases h

theorem stop_cons {c : Char} (hc : c.isDigit = false ∧ c ≠ '.' ∧ c ≠ 'e' ∧ c ≠ 'E') (t : Text) :
    Stop (c :: t) := by
  intro d h
  obtain rfl := Option.some.inj h
  exact hc

/-- Digits are cut off where the next character is none. -/
theorem span_digits {digits rest : Text} (h : ∀ c ∈ digits, c.isDigit = true)
    (hrest : ∀ c, rest.head? = some c → c.isDigit = false) :
    (digits ++ rest).span Char.isDigit = (digits, rest) := by
  rw [List.span_eq_takeWhile_dropWhile, List.takeWhile_append_of_pos h,
    List.dropWhile_append_of_pos h]
  cases rest with
  | nil => simp
  | cons c rest =>
      have hc := hrest c rfl
      simp [hc]

/-- The parts of a number that can be written: no part is empty and the first has no superfluous
zero. -/
structure Literal.Proper (l : Literal) : Prop where
  whole : Digits l.whole
  lead : l.whole.head? = some '0' → l.whole = ['0']
  fraction : ∀ digits, l.fraction = some digits → Digits digits
  exponent : ∀ sign digits, l.exponent = some (sign, digits) → Digits digits

theorem exponentSign_render (sign : ExponentSign) {digits : Text} (h : Digits digits)
    (rest : Text) :
    exponentSign (sign.render ++ digits ++ rest) = (sign, digits ++ rest) := by
  cases sign with
  | plus => rfl
  | minus => rfl
  | absent =>
      cases digits with
      | nil => exact absurd rfl h.1
      | cons c digits =>
          have hc := h.2 c List.mem_cons_self
          have hplus : c ≠ '+' := by
            intro heq
            rw [heq] at hc
            exact absurd hc (by decide)
          have hminus : c ≠ '-' := by
            intro heq
            rw [heq] at hc
            exact absurd hc (by decide)
          rw [ExponentSign.render, List.nil_append, List.cons_append]
          unfold exponentSign
          split
          · next heq => exact absurd (List.cons.inj heq).1 hplus
          · next heq => exact absurd (List.cons.inj heq).1 hminus
          · rfl

/-- The fraction of a number with its point, if there is one. -/
def Literal.fractionText (l : Literal) : Text :=
  match l.fraction with
  | some digits => '.' :: digits
  | none => []

/-- The exponent of a number with its marker, if there is one. -/
def Literal.exponentText (l : Literal) : Text :=
  match l.exponent with
  | some (sign, digits) => 'e' :: sign.render ++ digits
  | none => []

/-- A number without its minus sign. -/
def Literal.body (l : Literal) : Text := l.whole ++ (l.fractionText ++ l.exponentText)

theorem Literal.render_eq (l : Literal) :
    l.render = (if l.negative then ['-'] else []) ++ l.body := by
  rw [body, ← List.append_assoc, ← List.append_assoc]
  rfl

section

variable {l : Literal} {rest : Text}

theorem exponent?_exponentText (h : l.Proper) (hrest : Stop rest) :
    exponent? (l.exponentText ++ rest) = some (l.exponent, rest) := by
  rw [Literal.exponentText]
  cases he : l.exponent with
  | none =>
      cases rest with
      | nil => rfl
      | cons c rest =>
          obtain ⟨-, -, hlower, hupper⟩ := hrest c rfl
          simp [exponent?, hlower, hupper]
  | some e =>
      obtain ⟨sign, digits⟩ := e
      have hdigits := h.exponent sign digits he
      have hspan := span_digits hdigits.2 fun c hc => (hrest c hc).1
      dsimp only
      rw [List.cons_append, List.cons_append, exponent?, if_pos (Or.inl rfl),
        exponentSign_render sign hdigits rest]
      dsimp only
      rw [hspan]
      cases digits with
      | nil => exact absurd rfl hdigits.1
      | cons c digits => rfl

/-- Neither a digit nor a point follows a fraction. -/
theorem head_exponentText (hrest : Stop rest) {c : Char}
    (hc : (l.exponentText ++ rest).head? = some c) :
    c.isDigit = false ∧ c ≠ '.' := by
  rw [Literal.exponentText] at hc
  split at hc
  · obtain rfl := Option.some.inj hc
    decide
  · exact ⟨(hrest c hc).1, (hrest c hc).2.1⟩

theorem fraction?_fractionText (h : l.Proper) (hrest : Stop rest) :
    fraction? (l.fractionText ++ (l.exponentText ++ rest)) = some
      (l.fraction, l.exponentText ++ rest) := by
  have hhead := fun c hc => head_exponentText (l := l) (c := c) hrest hc
  generalize l.exponentText ++ rest = behind at hhead ⊢
  rw [Literal.fractionText]
  cases hf : l.fraction with
  | none =>
      dsimp only
      rw [List.nil_append]
      unfold fraction?
      split
      · exact absurd rfl (hhead '.' rfl).2
      · rfl
  | some digits =>
      have hdigits := h.fraction digits hf
      dsimp only
      rw [List.cons_append, fraction?, span_digits hdigits.2 fun c hc => (hhead c hc).1]
      cases digits with
      | nil => exact absurd rfl hdigits.1
      | cons c digits => rfl

/-- A number is read back, its sign apart. -/
theorem literal?_body (h : l.Proper) (hrest : Stop rest) :
    literal? l.negative (l.body ++ rest) = some (l, rest) := by
  have hbehind : ∀ c, (l.fractionText ++ (l.exponentText ++ rest)).head? = some c →
      c.isDigit = false := by
    intro c hc
    rw [Literal.fractionText] at hc
    split at hc
    · obtain rfl := Option.some.inj hc
      decide
    · exact (head_exponentText hrest hc).1
  have hlead : ¬ (l.whole = [] ∨ l.whole.head? = some '0' ∧ l.whole ≠ ['0']) := by
    intro hbad
    cases hbad with
    | inl hnil => exact h.whole.1 hnil
    | inr hzero => exact hzero.2 (h.lead hzero.1)
  rw [Literal.body, List.append_assoc, List.append_assoc, literal?, span_digits h.whole.2 hbehind]
  dsimp only
  rw [if_neg hlead, fraction?_fractionText h hrest]
  change (exponent? (l.exponentText ++ rest)).bind _ = _
  rw [exponent?_exponentText h hrest]
  rfl

theorem body_eq_cons (h : l.Proper) : ∃ c t, l.body = c :: t ∧ c.isDigit = true := by
  obtain ⟨hne, hdigits⟩ := h.whole
  rw [Literal.body]
  cases hw : l.whole with
  | nil => exact absurd hw hne
  | cons c t =>
      rw [hw] at hdigits
      exact ⟨c, _, rfl, hdigits c List.mem_cons_self⟩

end

end ChartPackage.Json
