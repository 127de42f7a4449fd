import Mathlib
import ChartPackage.Proofs.Chart.Stability
import ChartPackage.Proofs.Text.Utf8

/-!
The grammar of arcs. It names the ten fields and the characters of each; the reader of arcs accepts
a text exactly if it starts with a text of this grammar, and then finds its end and its fields. The
repair of an arc stays in the grammar.
-/

namespace ChartPackage.Arc

def Digit (c : Char) : Prop := '0' ≤ c ∧ c ≤ '9'

def Letter (c : Char) : Prop := ('A' ≤ c ∧ c ≤ 'Z') ∨ ('a' ≤ c ∧ c ≤ 'z')

/-- A nonempty text of characters of one kind. -/
def Run (kind : Char → Prop) (p : Text) : Prop := p ≠ [] ∧ ∀ c ∈ p, kind c

/-- An arc with these ten fields, counted from zero: three of digits, four of digits and points,
three words. -/
structure Grammar (s : Text) (p : Fin 10 → Text) : Prop where
  written : s = "arc(".toList ++ [','].intercalate (List.ofFn p) ++ ")".toList
  numbers : ∀ i ∈ [0, 1, 7], Run Digit (p i)
  figures : ∀ i ∈ [2, 3, 5, 6], Run (fun c => Digit c ∨ c = '.') (p i)
  words : ∀ i ∈ [4, 8, 9], Run (fun c => Letter c ∨ Digit c ∨ c = '_') (p i)

/-- The arc with these ten fields. -/
def ofFields (p : Fin 10 → Text) : Arc :=
  ⟨p 0, p 1, [p 2, p 3, p 4, p 5, p 6, p 7, p 8, p 9]⟩

variable {a : Arc} {s t : Text} {p p' : Fin 10 → Text}

/-! Fields and arguments -/

theorem arguments_ofFields (p : Fin 10 → Text) : (ofFields p).arguments = List.ofFn p := rfl

theorem eq_of_arguments {b : Arc} (h : a.arguments = b.arguments) : a = b := by
  obtain ⟨start, finish, others⟩ := a
  obtain ⟨start', finish', others'⟩ := b
  simpa [arguments] using h

theorem ofFields_inj : ofFields p = ofFields p' ↔ p = p' := by
  constructor
  · intro h
    apply List.ofFn_injective
    rw [← arguments_ofFields, ← arguments_ofFields, h]
  · exact congrArg ofFields

theorem exists_fields (h : a.Shaped) : ∃ p, a = ofFields p := by
  have hlength : a.arguments.length = 10 := h.length_eq.symm
  refine ⟨fun i => a.arguments.get (i.cast hlength.symm), eq_of_arguments ?_⟩
  calc a.arguments
    _ = List.ofFn a.arguments.get := (List.ofFn_get _).symm
    _ = List.ofFn fun i => a.arguments.get (i.cast hlength.symm) := List.ofFn_congr hlength _

theorem render_ofFields (p : Fin 10 → Text) :
    (ofFields p).render = "arc(".toList ++ [','].intercalate (List.ofFn p) ++ ")".toList := rfl

theorem ofFields_repaired (p : Fin 10 → Text) :
    (ofFields p).repaired = ofFields (Function.update p 1 (Numeral.successor (p 1))) := by
  simp [ofFields, repaired]

/-! The shapes of arguments are the kinds of fields. -/

theorem isDigit_iff (c : Char) : c.isDigit = true ↔ Digit c := by
  simp [Char.isDigit, Digit, Char.le_def]

theorem isAlpha_iff (c : Char) : c.isAlpha = true ↔ Letter c := by
  simp [Char.isAlpha, Char.isUpper, Char.isLower, Letter, Char.le_def]

theorem fits_integer_iff (p : Text) : Fits .integer p ↔ Run Digit p := by
  simp [Fits, Run, Shape.accepts, isDigit_iff]

theorem fits_decimal_iff (p : Text) : Fits .decimal p ↔ Run (fun c => Digit c ∨ c = '.') p := by
  simp [Fits, Run, Shape.accepts, isDigit_iff]

theorem fits_word_iff (p : Text) :
    Fits .word p ↔ Run (fun c => Letter c ∨ Digit c ∨ c = '_') p := by
  simp [Fits, Run, Shape.accepts, Char.isAlphanum, isDigit_iff, isAlpha_iff, or_assoc]

theorem shaped_ofFields_iff (p : Fin 10 → Text) :
    (ofFields p).Shaped ↔
      (∀ i ∈ [0, 1, 7], Run Digit (p i)) ∧
      (∀ i ∈ [2, 3, 5, 6], Run (fun c => Digit c ∨ c = '.') (p i)) ∧
        ∀ i ∈ [4, 8, 9], Run (fun c => Letter c ∨ Digit c ∨ c = '_') (p i) := by
  simp only [shaped_iff, ofFields, otherShapes, List.forall₂_cons, List.forall₂_nil_left_iff,
    fits_integer_iff,
    fits_decimal_iff, fits_word_iff, List.forall_mem_cons]
  tauto

theorem grammar_iff : Grammar s p ↔ (ofFields p).Shaped ∧ s = (ofFields p).render := by
  rw [shaped_ofFields_iff, render_ofFields]
  constructor
  · intro h
    exact ⟨⟨h.numbers, h.figures, h.words⟩, h.written⟩
  · intro h
    exact ⟨h.2, h.1.1, h.1.2.1, h.1.2.2⟩

theorem Grammar.parse?_append (h : Grammar s p) (rest : Text) :
    parse? (s ++ rest) = some (ofFields p, rest) := by
  obtain ⟨hshaped, rfl⟩ := grammar_iff.mp h
  exact parse?_render hshaped rest

theorem exists_grammar_of_parse? {rest : Text} (h : parse? t = some (a, rest)) :
    ∃ s p, t = s ++ rest ∧ a = ofFields p ∧ Grammar s p := by
  obtain ⟨hshaped, ht⟩ := parse?_eq_some_iff.mp h
  obtain ⟨p, rfl⟩ := exists_fields hshaped
  exact ⟨_, p, ht, rfl, grammar_iff.mpr ⟨hshaped, rfl⟩⟩

theorem Grammar.extent?_append (h : Grammar s p) (rest : Text) :
    extent? (s ++ rest) = some s.length := by
  simp [extent?, h.parse?_append rest]

/-- Of the texts of the grammar at most one starts a text, and it has one list of fields. -/
theorem Grammar.unique {s' : Text} (h : Grammar s p) (h' : Grammar s' p') (hs : s <+: t)
    (hs' : s' <+: t) :
    s' = s ∧ p' = p := by
  obtain ⟨rest, rfl⟩ := hs
  obtain ⟨rest', heq⟩ := hs'
  have hparse := h'.parse?_append rest'
  rw [heq, h.parse?_append rest] at hparse
  simp only [Option.some.injEq, Prod.mk.injEq, ofFields_inj] at hparse
  obtain ⟨rfl, rfl⟩ := hparse
  exact ⟨List.append_cancel_right heq, rfl⟩

theorem Digit.ascii {c : Char} (h : Digit c) : c.toNat < 128 := by
  have hle : c.toNat ≤ '9'.toNat := h.2
  exact Nat.lt_of_le_of_lt hle (by decide)

theorem Letter.ascii {c : Char} (h : Letter c) : c.toNat < 128 := by
  cases h with
  | inl h =>
      have hle : c.toNat ≤ 'Z'.toNat := h.2
      exact Nat.lt_of_le_of_lt hle (by decide)
  | inr h =>
      have hle : c.toNat ≤ 'z'.toNat := h.2
      exact Nat.lt_of_le_of_lt hle (by decide)

theorem ascii_of_accepts (shape : Shape) (c : Char) (h : shape.accepts c = true) :
    c.toNat < 128 := by
  cases shape with
  | integer => exact ((isDigit_iff c).mp h).ascii
  | decimal =>
      simp only [Shape.accepts, Bool.or_eq_true, isDigit_iff, beq_iff_eq] at h
      rcases h with h | rfl
      · exact h.ascii
      · decide
  | word =>
      simp only [Shape.accepts, Char.isAlphanum, Bool.or_eq_true, isDigit_iff, isAlpha_iff,
        beq_iff_eq] at h
      rcases h with (h | h) | rfl
      · exact h.ascii
      · exact h.ascii
      · decide

/-- An arc of the grammar has as many bytes as characters. -/
theorem Grammar.length_encode (h : Grammar s p) : (Utf8.encode s).length = s.length := by
  obtain ⟨hshaped, rfl⟩ := grammar_iff.mp h
  apply Utf8.length_encode_of_ascii
  exact forall_mem_render (List.forall_iff_forall_mem.mp (by decide)) (by decide)
    (by decide) ascii_of_accepts hshaped

/-- The repair of an arc of the grammar is one too, in which the end alone is another. -/
theorem Grammar.repaired (h : Grammar s p) :
    Grammar (ofFields p).repaired.render (Function.update p 1 (Numeral.successor (p 1))) := by
  obtain ⟨hshaped, -⟩ := grammar_iff.mp h
  refine grammar_iff.mpr ⟨?_, ?_⟩
  · rw [← ofFields_repaired]
    exact repaired_shaped hshaped
  · rw [← ofFields_repaired]

/-- The reader of arcs accepts exactly the texts that start with a text of the grammar. That text
and its fields are unique; its length, in characters as in bytes, is the length that is read, and
its fields are the arguments. An arc with two times written alike is repaired to a text of the
grammar that is read to its end, with another end and the nine other fields as they were, and whose
times are not written alike. -/
theorem parse?_grammar (t : Text) :
    ((parse? t).isSome ↔ ∃ s p, s <+: t ∧ Grammar s p) ∧
    ∀ s p, s <+: t → Grammar s p →
      (∀ s' p', s' <+: t → Grammar s' p' → s' = s ∧ p' = p) ∧
      ∃ a rest, parse? t = some (a, rest) ∧ t = s ++ rest ∧ extent? t = some s.length ∧
        (Utf8.encode s).length = s.length ∧ a.arguments = List.ofFn p ∧
        (a.Degenerate → ∃ p', Grammar a.repaired.render p' ∧
          parse? a.repaired.render = some (a.repaired, []) ∧ a.repaired.arguments = List.ofFn p' ∧
          (∀ i, i ≠ 1 → p' i = p i) ∧ ¬ a.repaired.Degenerate) := by
  refine ⟨⟨fun h => ?_, ?_⟩, ?_⟩
  · obtain ⟨⟨a, rest⟩, hparse⟩ := Option.isSome_iff_exists.mp h
    obtain ⟨s, p, rfl, -, hgrammar⟩ := exists_grammar_of_parse? hparse
    exact ⟨s, p, List.prefix_append _ _, hgrammar⟩
  · rintro ⟨s, p, ⟨rest, rfl⟩, hgrammar⟩
    rw [hgrammar.parse?_append rest]
    rfl
  · intro s p hs hgrammar
    refine ⟨fun s' p' hs' hgrammar' => hgrammar.unique hgrammar' hs hs', ?_⟩
    obtain ⟨rest, rfl⟩ := hs
    refine ⟨ofFields p, rest, hgrammar.parse?_append rest, rfl, hgrammar.extent?_append rest,
      hgrammar.length_encode, rfl, ?_⟩
    intro hdegenerate
    obtain ⟨hshaped, -⟩ := grammar_iff.mp hgrammar
    have hparse := hgrammar.repaired.parse?_append []
    rw [List.append_nil, ← ofFields_repaired] at hparse
    refine ⟨_, hgrammar.repaired, hparse, ?_, ?_, not_degenerate_repaired hshaped hdegenerate⟩
    · rw [ofFields_repaired, arguments_ofFields]
    · intro i hi
      exact Function.update_of_ne hi _ _

/-- The points and the letters are read as they are, and a repaired time loses its zero in front. -/
theorem parse?_grammar_degenerate :
    ∃ s p, Grammar s p ∧ s = "arc(099,099,.5,0.5.,si_2,1,..,7,B,true)".toList ∧
      ∃ a : Arc, a.repaired.render = "arc(099,100,.5,0.5.,si_2,1,..,7,B,true)".toList ∧
        a.arguments = List.ofFn p ∧
        ¬ a.repaired.Degenerate := by
  obtain ⟨haccepts, hfields⟩ :=
    parse?_grammar "arc(099,099,.5,0.5.,si_2,1,..,7,B,true)[arctap(99)];"
  obtain ⟨s, p, hs, hgrammar⟩ := haccepts.mp (by decide +kernel)
  obtain ⟨-, a, rest, hparse, ht, -, -, harguments, hrepaired⟩ := hfields s p hs hgrammar
  have hread : parse? "arc(099,099,.5,0.5.,si_2,1,..,7,B,true)[arctap(99)];".toList =
      some ((⟨"099".toList, "099".toList, [".5", "0.5.", "si_2", "1", "..", "7", "B", "true"]⟩ :
        Arc),
        "[arctap(99)];".toList) := by
    decide +kernel
  rw [hread] at hparse
  cases hparse
  obtain ⟨-, -, -, -, -, hdistinct⟩ := hrepaired rfl
  refine ⟨s, p, hgrammar, ?_, _, by decide +kernel, harguments, hdistinct⟩
  exact (List.append_cancel_right ht).symm

end ChartPackage.Arc
