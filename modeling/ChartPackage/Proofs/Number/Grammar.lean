import Mathlib
import ChartPackage.Number.Leading
import ChartPackage.Proofs.Number.Characters
import ChartPackage.Proofs.Number.Doubles

/-!
The grammar of numbers, and lenient reading as longest match. The texts of the grammar are given
with the exact numbers that they spell; the scanner, which never looks back further than to the last
part it began, takes the longest of them that the text starts with.
-/

namespace ChartPackage.Leading
open Numeral (value)
open Binary64 (IsRounded)

/-! ### The grammar -/

/-- An optional sign, minus or not. -/
inductive Sign : Text → Bool → Prop
  | none : Sign [] false
  | plus : Sign ['+'] false
  | minus : Sign ['-'] true

/-- One digit or more. -/
structure Run (t : Text) : Prop where
  digits : ∀ c ∈ t, c.isDigit = true
  nonempty : t ≠ []

/-- Digits with an optional point in, before or behind them: the text, the digits before the point
and those after it. -/
inductive Figures : Text → Text → Text → Prop
  | whole {w : Text} (hw : Run w) : Figures w w []
  | point {w f : Text} (hw : Run w) (hf : ∀ c ∈ f, c.isDigit = true) : Figures (w ++ '.' :: f) w f
  | fraction {f : Text} (hf : Run f) : Figures ('.' :: f) [] f

/-- An optional power of ten. -/
inductive Scale : Text → Int → Prop
  | none : Scale [] 0
  | power {c : Char} {s d : Text} {negative : Bool} (hc : c = 'e' ∨ c = 'E') (hs : Sign s negative)
    (hd : Run d) :
      Scale (c :: (s ++ d)) (if negative then -value d else value d)

/-- A text of the grammar, whether it has a minus sign, and the exact magnitude it spells, none for
an infinity. -/
inductive Spelled : Text → Bool → Option ℚ → Prop
  | infinity {s : Text} {negative : Bool} (hs : Sign s negative) :
    Spelled (s ++ "Infinity".toList) negative none
  | decimal {s f w r e : Text} {negative : Bool} {x : Int} (hs : Sign s negative)
    (hf : Figures f w r)
      (he : Scale e x) :
      Spelled (s ++ (f ++ e)) negative (some ((value w + value r / 10 ^ r.length) * 10 ^ x))

/-- Whether a text as a whole is in the grammar. -/
def IsNumber (p : Text) : Prop := ∃ negative magnitude, Spelled p negative magnitude

/-- The double that a text of the grammar stands for. -/
inductive Denotes (p : Text) : Binary64 → Prop
  | infinity {negative : Bool} (h : Spelled p negative none) : Denotes p (.infinite negative)
  | decimal {negative : Bool} {q : ℚ} {v : Binary64} (h : Spelled p negative (some q))
    (hv : IsRounded negative q v) :
      Denotes p v

/-- The longest text of the grammar that a text starts with. -/
structure Longest (s p : Text) : Prop where
  start : p <+: s
  number : IsNumber p
  longest : ∀ p', p' <+: s → IsNumber p' → p'.length ≤ p.length

/-! ### Growing texts of the grammar -/

section
variable {s p f w r e rest : Text} {negative : Bool} {x : Int} {c : Char}

theorem Run.snoc {t : Text} (ht : ∀ c ∈ t, c.isDigit = true) (hc : c.isDigit = true) :
    Run (t ++ [c]) :=
  ⟨List.forall_mem_append.mpr ⟨ht, List.forall_mem_singleton.mpr hc⟩,
    List.append_ne_nil_of_right_ne_nil _ (by simp)⟩

/-- A text of the grammar that no continuation within `rest` makes a longer one. -/
def Final (p rest : Text) : Prop := ∀ q, q <+: rest → IsNumber (p ++ q) → q = []

theorem final_nil (p : Text) : Final p [] := fun _ hq _ => List.prefix_nil.mp hq

theorem Longest.final (h : Longest (p ++ rest) p) : Final p rest := by
  intro q hq hnumber
  have hlength := h.longest (p ++ q) ((List.prefix_append_right_inj p).mpr hq) hnumber
  rw [List.length_append] at hlength
  exact List.length_eq_zero_iff.mp (by omega)

/-- Nothing that a decimal text could go on with is left. -/
structure Stops (f w e rest : Text) : Prop where
  digit : ∀ c ∈ rest.head?, c.isDigit = false
  point : e = [] → f = w → ∀ c ∈ rest.head?, c ≠ '.'
  scale : e = [] → exponent rest = 0

theorem Figures.snoc (hf : Figures f w r) (hc : c.isDigit = true) :
    ∃ w' r', Figures (f ++ [c]) w' r' := by
  cases hf with
  | whole hw => exact ⟨_, _, .whole (.snoc hw.digits hc)⟩
  | point hw hr =>
      rw [List.append_assoc, List.cons_append]
      exact ⟨_, _, .point hw (Run.snoc hr hc).digits⟩
  | fraction hr => exact ⟨_, _, .fraction (.snoc hr.digits hc)⟩

theorem Scale.snoc (he : Scale e x) (hne : e ≠ []) (hc : c.isDigit = true) :
    ∃ y, Scale (e ++ [c]) y := by
  cases he with
  | none => exact absurd rfl hne
  | power hmark hs hd =>
      rw [List.cons_append, List.append_assoc]
      exact ⟨_, .power hmark hs (.snoc hd.digits hc)⟩

/-- A sign in front is split off. -/
theorem exists_sign (t : Text) : ∃ s, Sign s (sign t).1 ∧ t = s ++ (sign t).2 := by
  unfold sign
  split
  · exact ⟨_, .minus, rfl⟩
  · exact ⟨_, .plus, rfl⟩
  · exact ⟨_, .none, rfl⟩

theorem digits_join (t : Text) : (digits t).1 ++ (digits t).2 = t := by
  rw [digits, List.span_eq_takeWhile_dropWhile]
  exact List.takeWhile_append_dropWhile

theorem isDigit_of_mem_digits {t : Text} : ∀ c ∈ (digits t).1, c.isDigit = true := by
  rw [digits, List.span_eq_takeWhile_dropWhile]
  exact fun c hc => List.mem_takeWhile_imp hc

theorem digits_append {t : Text} (ht : ∀ c ∈ t, c.isDigit = true)
    (hrest : ∀ c ∈ rest.head?, c.isDigit = false) :
    digits (t ++ rest) = (t, rest) := by
  rw [digits, List.span_eq_takeWhile_dropWhile, List.takeWhile_append_of_pos ht,
    List.dropWhile_append_of_pos ht]
  cases rest with
  | nil => rw [List.takeWhile_nil, List.dropWhile_nil, List.append_nil]
  | cons c rest =>
      have hc : ¬ c.isDigit = true := by simpa using hrest c rfl
      rw [List.takeWhile_cons_of_neg hc, List.dropWhile_cons_of_neg hc, List.append_nil]

/-- Without a power of ten in front the scanner finds none. -/
theorem exponent_eq_zero_or (t : Text) : exponent t = 0 ∨ ∃ e x, Scale e x ∧ e ≠ [] ∧ e <+: t := by
  cases t with
  | nil => exact Or.inl rfl
  | cons c rest =>
      rw [exponent]
      by_cases hmark : c = 'e' ∨ c = 'E'
      · obtain ⟨s, hs, hrest⟩ := exists_sign rest
        have hjoin := digits_join (sign rest).2
        by_cases hrun : (digits (sign rest).2).1 = []
        · left
          simp only [if_pos hmark, hrun]
          split <;> rfl
        · refine Or.inr ⟨_, _, .power hmark hs ⟨isDigit_of_mem_digits, hrun⟩,
            List.cons_ne_nil _ _, ?_⟩
          refine List.cons_prefix_cons.mpr ⟨rfl, ?_⟩
          conv_rhs => rw [hrest, ← hjoin, ← List.append_assoc]
          exact List.prefix_append _ _
      · exact Or.inl (if_neg hmark)

/-- Where a decimal text can not go on, the scanner finds nothing to go on with. -/
theorem stops_of_final (hs : Sign s negative) (hf : Figures f w r) (he : Scale e x)
    (hfinal : Final (s ++ (f ++ e)) rest) : Stops f w e rest := by
  have hmore : ∀ q, q <+: rest → ∀ {f' w' r' e' : Text} {y : Int}, Figures f' w' r' → Scale e' y →
      f ++ e ++ q = f' ++ e' → q = [] := by
    intro q hq f' w' r' e' y hf' he' heq
    refine hfinal q hq ?_
    rw [List.append_assoc, heq]
    exact ⟨_, _, .decimal hs hf' he'⟩
  refine ⟨fun c hc => ?_, fun hnil hwhole c hc => ?_, fun hnil => ?_⟩
  · obtain ⟨rest, rfl⟩ := List.head?_eq_some_iff.mp hc
    by_contra hdigit
    have hdigit : c.isDigit = true := by simpa using hdigit
    refine List.cons_ne_nil c [] ?_
    by_cases hnil : e = []
    · obtain ⟨w', r', hf'⟩ := hf.snoc hdigit
      exact hmore [c] (List.prefix_append [c] rest) hf' .none
        (by rw [hnil, List.append_nil, List.append_nil])
    · obtain ⟨y, he'⟩ := he.snoc hnil hdigit
      exact hmore [c] (List.prefix_append [c] rest) hf he' (List.append_assoc _ _ _)
  · obtain ⟨rest, rfl⟩ := List.head?_eq_some_iff.mp hc
    rintro rfl
    have hw : Run w := by
      cases hf with
      | whole hw => exact hw
      | point hw _ => exact hw
      | fraction _ => exact absurd hwhole (List.cons_ne_nil _ _)
    have hpoint : Figures (w ++ '.' :: []) w [] := .point hw (List.forall_mem_nil _)
    refine List.cons_ne_nil '.' [] (hmore ['.'] (List.prefix_append ['.'] rest) hpoint .none ?_)
    rw [hnil, hwhole, List.append_nil, List.append_nil]
  · refine (exponent_eq_zero_or rest).resolve_right ?_
    rintro ⟨e', y, he', hne, hlead⟩
    exact hne (hmore e' hlead hf he' (by rw [hnil, List.append_nil]))

/-! ### Reading a text of the grammar -/

theorem Run.head (h : Run f) : ∀ c ∈ (f ++ rest).head?, c.isDigit = true := by
  obtain ⟨d, t, rfl⟩ := List.exists_cons_of_ne_nil h.nonempty
  rintro _ ⟨⟩
  exact h.digits d List.mem_cons_self

/-- What can follow the digits of a decimal text is neither a digit nor, if there was none, a
point. -/
theorem Stops.tail (hrest : Stops f w e rest) (he : Scale e x) :
    (∀ c ∈ (e ++ rest).head?, c.isDigit = false) ∧ (f = w → ∀ c ∈ (e ++ rest).head?, c ≠ '.') := by
  cases he with
  | none => exact ⟨hrest.digit, hrest.point rfl⟩
  | power hmark _ _ =>
      refine ⟨?_, ?_⟩
      · rintro _ ⟨⟩
        rcases hmark with rfl | rfl <;> rfl
      · rintro _ _ ⟨⟩
        rcases hmark with rfl | rfl <;> decide

theorem sign_append (hs : Sign s negative) (hrest : ∀ c ∈ rest.head?, c ≠ '-' ∧ c ≠ '+') :
    sign (s ++ rest) = (negative, rest) := by
  cases hs with
  | plus | minus => rfl
  | none =>
      rw [List.nil_append]
      unfold sign
      split
      · exact absurd rfl (hrest _ rfl).1
      · exact absurd rfl (hrest _ rfl).2
      · rfl

theorem exponent_scale (he : Scale e x) (hrest : Stops f w e rest) : exponent (e ++ rest) = x := by
  cases he with
  | none => exact hrest.scale rfl
  | @power c s d negative hmark hs hd =>
      have hsign : sign (s ++ (d ++ rest)) = (negative, d ++ rest) := by
        refine sign_append hs fun c hc => ?_
        have hdigit := hd.head c hc
        exact ⟨by rintro rfl; exact absurd hdigit (by decide), by
          rintro rfl; exact absurd hdigit (by decide)⟩
      rw [List.cons_append, List.append_assoc, exponent, if_pos hmark, hsign]
      simp only [digits_append hd.digits hrest.digit]

theorem fraction_of_no_point (h : ∀ c ∈ rest.head?, c ≠ '.') : fraction w rest = ([], rest) := by
  unfold fraction
  split
  · exact absurd rfl (h _ rfl)
  · rfl

theorem fraction_point (hr : ∀ c ∈ r, c.isDigit = true)
    (hrest : ∀ c ∈ rest.head?, c.isDigit = false)
    (hne : ¬ (w = [] ∧ r = [])) : fraction w ('.' :: (r ++ rest)) = (r, rest) := by
  simp only [fraction, digits_append hr hrest, if_neg hne]

theorem fraction_fst (h : (fraction w rest).1 ≠ []) :
    ∃ after, rest = '.' :: after ∧ (fraction w rest).1 = (digits after).1 := by
  revert h
  unfold fraction
  split
  · next after =>
      intro h
      refine ⟨after, rfl, ?_⟩
      dsimp only at h ⊢
      split at h
      · exact absurd rfl h
      · next hne => rw [if_neg hne]
  · exact fun h => absurd rfl h

theorem parts?_eq {t : Text} {after : Text} (hw : digits t = (w, after))
    (hr : fraction w after = (r, rest))
    (hne : ¬ (w = [] ∧ r = [])) (hx : exponent rest = x) :
    parts? negative t = some { negative, whole := w, fraction := r, exponent := x } := by
  simp only [parts?, hw, hr, if_neg hne, hx]

theorem parts?_figures (hf : Figures f w r) (he : Scale e x) (hrest : Stops f w e rest) :
    parts? negative (f ++ (e ++ rest)) =
      some { negative, whole := w, fraction := r, exponent := x } := by
  obtain ⟨hdigit, hpoint⟩ := hrest.tail he
  have hexponent := exponent_scale he hrest
  have hmark : ∀ {t : Text}, ∀ c ∈ ('.' :: t).head?, c.isDigit = false := by
    rintro _ _ ⟨⟩
    rfl
  cases hf with
  | whole hw =>
      exact parts?_eq (digits_append hw.digits hdigit) (fraction_of_no_point (hpoint rfl))
        (fun h => hw.nonempty h.1) hexponent
  | point hw hr =>
      have hne : ¬ (w = [] ∧ r = []) := fun h => hw.nonempty h.1
      rw [List.append_assoc, List.cons_append]
      exact parts?_eq (digits_append hw.digits hmark) (fraction_point hr hdigit hne) hne hexponent
  | fraction hr =>
      have hne : ¬ (([] : Text) = [] ∧ r = []) := fun h => hr.nonempty h.2
      rw [List.cons_append]
      exact parts?_eq (digits_append (List.forall_mem_nil _) hmark)
        (fraction_point hr.digits hdigit hne) hne hexponent

theorem magnitude_ofParts (negative : Bool) (w r : Text) (x : Int) :
    (Decimal.ofParts { negative, whole := w, fraction := r, exponent := x }).magnitude =
      (value w + value r / 10 ^ r.length) * 10 ^ x := by
  have hten : (10 : ℚ) ≠ 0 := by norm_num
  rw [Decimal.magnitude, Decimal.ofParts, Numeral.value_append, zpow_sub₀ hten, zpow_natCast]
  push_cast
  field_simp

theorem isRounded_ofParts (negative : Bool) (w r : Text) (x : Int) :
    IsRounded negative ((value w + value r / 10 ^ r.length) * 10 ^ x)
      (Decimal.ofParts { negative, whole := w, fraction := r, exponent := x }).toBinary64 := by
  rw [← magnitude_ofParts negative]
  exact Decimal.isRounded_toBinary64 _

/-- The digits of a decimal text start with a digit or a point. -/
theorem Figures.head (hf : Figures f w r) :
    ∀ c ∈ (f ++ rest).head?, c.isDigit = true ∨ c = '.' := by
  intro c hc
  cases hf with
  | whole hw => exact Or.inl (hw.head c hc)
  | point hw hr =>
      rw [List.append_assoc] at hc
      exact Or.inl (hw.head c hc)
  | fraction hr =>
      obtain rfl := Option.some.inj hc
      exact Or.inr rfl

/-- A digit or a point is none of these. -/
theorem ne_of_digit_or_point (hc : c.isDigit = true ∨ c = '.') : c ≠ '-' ∧ c ≠ '+' ∧ c ≠ 'I' := by
  rcases hc with hc | rfl
  · refine ⟨?_, ?_, ?_⟩ <;> rintro rfl <;> exact absurd hc (by decide)
  · decide

/-- The scanner reads a text of the grammar whatever comes after it, if that does not make it
longer. -/
theorem read?_of_denotes {t : Text} {v : Binary64} (h : Denotes p v) (hfinal : Final p rest)
    (ht : Text.trimLeft isBlank t = p ++ rest) : read? t = some v := by
  rw [read?, ht]
  cases h with
  | @infinity negative h =>
      cases h with
      | @infinity s _ hs =>
          have hsign : sign (s ++ "Infinity".toList ++ rest) =
              (negative, "Infinity".toList ++ rest) := by
            rw [List.append_assoc]
            refine sign_append hs ?_
            rintro _ ⟨⟩
            decide
          have hlead : "Infinity".toList.isPrefixOf ("Infinity".toList ++ rest) = true :=
            List.isPrefixOf_iff_prefix.mpr (List.prefix_append _ _)
          rw [hsign]
          exact if_pos hlead
  | @decimal negative _ _ h hv =>
      cases h with
      | @decimal s f w r e _ x hs hf he =>
          have hhead : ∀ c ∈ (f ++ (e ++ rest)).head?, c ≠ '-' ∧ c ≠ '+' ∧ c ≠ 'I' :=
            fun c hc => ne_of_digit_or_point (hf.head c hc)
          have hsign : sign (s ++ (f ++ e) ++ rest) = (negative, f ++ (e ++ rest)) := by
            rw [List.append_assoc, List.append_assoc]
            exact sign_append hs fun c hc => ⟨(hhead c hc).1, (hhead c hc).2.1⟩
          have hlead : ¬ "Infinity".toList.isPrefixOf (f ++ (e ++ rest)) = true := by
            rw [ List.isPrefixOf_iff_prefix]
            rintro ⟨after, hafter⟩
            exact (hhead 'I' (by rw [← hafter]; rfl)).2.2 rfl
          rw [hsign, hv.unique (isRounded_ofParts negative w r x)]
          simp only [if_neg hlead, parts?_figures hf he (stops_of_final hs hf he hfinal),
            Option.map_some]

/-- Texts of the grammar do not start with a blank. -/
theorem IsNumber.trimLeft (h : IsNumber p) : Text.trimLeft isBlank p = p := by
  obtain ⟨negative, magnitude, h⟩ := h
  have hdigit : ∀ n < 10, isBlank n.digitChar = false := by decide
  have hhead : ∀ c ∈ p.head?, isBlank c = false := by
    cases h with
    | infinity hs =>
        rintro c hc
        cases hs <;> obtain rfl := Option.some.inj hc <;> rfl
    | decimal hs hf _ =>
        cases hs with
        | plus | minus =>
            rintro _ ⟨⟩
            rfl
        | none =>
            intro c hc
            rcases hf.head c hc with hc | rfl
            · obtain ⟨n, hn, rfl⟩ := Numeral.exists_digitChar hc
              exact hdigit n hn
            · rfl
  cases p with
  | nil => rfl
  | cons c rest => exact List.dropWhile_cons_of_neg (by simpa using hhead c rfl)

theorem Denotes.isNumber {v : Binary64} (h : Denotes p v) : IsNumber p := by
  cases h with
  | infinity h => exact ⟨_, _, h⟩
  | decimal h _ => exact ⟨_, _, h⟩

/-- A text of the grammar is read as a whole. -/
theorem read?_of_denotes_self {v : Binary64} (h : Denotes p v) : read? p = some v :=
  read?_of_denotes h (final_nil p) (by rw [h.isNumber.trimLeft, List.append_nil])

/-- It stands for one double. -/
theorem IsNumber.exists_denotes (h : IsNumber p) : ∃ v, Denotes p v := by
  obtain ⟨negative, magnitude, h⟩ := h
  cases magnitude with
  | none => exact ⟨_, .infinity h⟩
  | some q =>
      cases h with
      | @decimal s f w r e _ x hs hf he =>
          exact ⟨_, .decimal (.decimal hs hf he) (isRounded_ofParts negative w r x)⟩

/-! ### Longest match -/

/-- What the scanner reads starts with a text of the grammar. -/
theorem exists_number_of_read? {t : Text} {v : Binary64} (h : read? t = some v) :
    ∃ p, p <+: Text.trimLeft isBlank t ∧ IsNumber p := by
  obtain ⟨s, hs, hjoin⟩ := exists_sign (Text.trimLeft isBlank t)
  rw [read?] at h
  generalize sign (Text.trimLeft isBlank t) = signed at *
  obtain ⟨negative, after⟩ := signed
  have hstart : ∀ q, q <+: after → s ++ q <+: Text.trimLeft isBlank t := by
    intro q hq
    rw [hjoin]
    exact (List.prefix_append_right_inj s).mpr hq
  dsimp only at h
  split at h
  · next hlead =>
      exact ⟨_, hstart _ ( List.isPrefixOf_iff_prefix.mp hlead), _, _, .infinity hs⟩
  · obtain ⟨parts, hparts, -⟩ := Option.map_eq_some_iff.mp h
    have hwhole := digits_join after
    have hrun := isDigit_of_mem_digits (t := after)
    rw [parts?] at hparts
    generalize digits after = split at *
    obtain ⟨w, rest⟩ := split
    by_cases hw : w = []
    · subst hw
      obtain rfl : rest = after := hwhole
      have hne : (fraction [] rest).1 ≠ [] := by
        intro hnone
        simp [hnone] at hparts
      obtain ⟨behind, rfl, hr⟩ := fraction_fst hne
      rw [hr] at hne
      refine ⟨_, hstart ('.' :: (digits behind).1 ++ []) ?_, _, _,
        .decimal hs (.fraction ⟨isDigit_of_mem_digits, hne⟩) .none⟩
      rw [List.append_nil]
      refine List.cons_prefix_cons.mpr ⟨rfl, (digits behind).2, digits_join behind⟩
    · refine ⟨_, hstart (w ++ []) ?_, _, _, .decimal hs (.whole ⟨hrun, hw⟩) .none⟩
      rw [List.append_nil]
      exact ⟨rest, hwhole⟩

/-- A text that starts with a text of the grammar starts with a longest one. -/
theorem exists_longest {s : Text} (h : ∃ p, p <+: s ∧ IsNumber p) : ∃ p, Longest s p := by
  classical
  obtain ⟨p, hp, hnumber⟩ := h
  have hlead : ∀ {p}, p <+: s → s.take p.length = p :=
    fun hp => (List.prefix_iff_eq_take.mp hp).symm
  have hfound := Nat.findGreatest_spec (P := fun n => IsNumber (s.take n)) hp.length_le
    (by rwa [hlead hp])
  refine ⟨_, List.take_prefix _ s, hfound, fun p' hp' hnumber' => ?_⟩
  rw [List.length_take, Nat.min_eq_left (Nat.findGreatest_le _)]
  exact Nat.le_findGreatest hp'.length_le (by rwa [hlead hp'])

/-- Lenient reading of a number is longest match over the grammar, after the blanks in front. It
fails just where no text of the grammar stands there, and otherwise gives the double that the
longest one stands for, whatever comes after that. -/
theorem read?_longest (t : Text) :
    (read? t = none ↔ ∀ p, p <+: Text.trimLeft isBlank t → ¬ IsNumber p) ∧
      (∀ v, read? t = some v ↔ ∃ p, Longest (Text.trimLeft isBlank t) p ∧ Denotes p v) ∧
      ∀ p, Longest (Text.trimLeft isBlank t) p → read? t = read? p := by
  have hfound : ∀ p, Longest (Text.trimLeft isBlank t) p → ∀ v, Denotes p v → read? t = some v := by
    intro p hp v hv
    obtain ⟨rest, hrest⟩ := hp.start
    rw [← hrest] at hp
    exact read?_of_denotes hv hp.final hrest.symm
  refine ⟨⟨fun hnone p hp hnumber => ?_, fun hno => ?_⟩, fun v => ⟨fun hread => ?_, ?_⟩,
    fun p hp => ?_⟩
  · obtain ⟨p, hp⟩ := exists_longest ⟨p, hp, hnumber⟩
    obtain ⟨v, hv⟩ := hp.number.exists_denotes
    rw [hfound p hp v hv] at hnone
    cases hnone
  · rw [Option.eq_none_iff_forall_ne_some]
    intro v hv
    obtain ⟨p, hp, hnumber⟩ := exists_number_of_read? hv
    exact hno p hp hnumber
  · obtain ⟨p, hp⟩ := exists_longest (exists_number_of_read? hread)
    obtain ⟨w, hw⟩ := hp.number.exists_denotes
    rw [hfound p hp w hw] at hread
    exact ⟨p, hp, Option.some.inj hread ▸ hw⟩
  · rintro ⟨p, hp, hv⟩
    exact hfound p hp v hv
  · obtain ⟨v, hv⟩ := hp.number.exists_denotes
    rw [hfound p hp v hv, read?_of_denotes_self hv]

theorem Run.last {t : Text} (h : Run f) : ∀ c ∈ (t ++ f).getLast?, c.isDigit = true := by
  intro c hc
  rw [List.getLast?_append_of_ne_nil _ h.nonempty] at hc
  exact h.digits c (List.mem_of_getLast? hc)

theorem Figures.last {t : Text} (h : Figures f w r) :
    ∀ c ∈ (t ++ f).getLast?, c.isDigit = true ∨ c = '.' := by
  have hpoint : ∀ {t r : Text} {c : Char}, (∀ d ∈ r, d.isDigit = true) →
      c ∈ (t ++ '.' :: r).getLast? →
      c.isDigit = true ∨ c = '.' := by
    intro t r c hr hc
    rw [List.getLast?_append_of_ne_nil _ (List.cons_ne_nil _ _)] at hc
    rcases List.mem_cons.mp (List.mem_of_getLast? hc) with hc | hc
    · exact Or.inr hc
    · exact Or.inl (hr c hc)
  intro c hc
  cases h with
  | whole hw => exact Or.inl (hw.last c hc)
  | point hw hr =>
      rw [← List.append_assoc] at hc
      exact hpoint hr hc
  | fraction hr => exact hpoint hr.digits hc

/-- Texts of the grammar end in a digit, a point or the last letter of an infinity. -/
theorem IsNumber.last (h : IsNumber p) :
    ∀ c ∈ p.getLast?, c.isDigit = true ∨ c = '.' ∨ c = 'y' := by
  obtain ⟨negative, magnitude, h⟩ := h
  intro c hc
  cases h with
  | infinity _ =>
      rw [List.getLast?_append_of_ne_nil _ (by decide)] at hc
      exact Or.inr (Or.inr (Option.some.inj hc).symm)
  | @decimal s f w r e _ x _ hf he =>
      cases he with
      | none =>
          rw [List.append_nil] at hc
          exact (hf.last c hc).imp_right Or.inl
      | @power mark s' d _ _ _ hd =>
          have hregroup : s ++ (f ++ mark :: (s' ++ d)) = s ++ f ++ mark :: s' ++ d := by simp
          rw [hregroup] at hc
          exact Or.inl (hd.last c hc)

/-- Neither a marker nor a marker with a sign is a power of ten. -/
theorem read?_longest_marker :
    Longest (Text.trimLeft isBlank " -5.e+x".toList) "-5.".toList ∧
      read? " -5.e+x".toList = some (.ofUnits true (5 * Binary64.unitsPerOne)) ∧
      read? " -5.e+x".toList = read? "-5.".toList := by
  have hfive : Run ['5'] := ⟨List.forall_mem_singleton.mpr rfl, List.cons_ne_nil _ _⟩
  have hspelled : Spelled "-5.".toList true
      (some ((value ['5'] + value [] / 10 ^ 0) * 10 ^ (0 : Int))) :=
    .decimal .minus (.point hfive (List.forall_mem_nil _)) .none
  have hlongest : Longest (Text.trimLeft isBlank " -5.e+x".toList) "-5.".toList := by
    refine ⟨⟨"e+x".toList, rfl⟩, ⟨_, _, hspelled⟩, fun p hp hnumber =>
      Nat.not_lt.mp fun hlength => ?_⟩
    have htaken : p = (Text.trimLeft isBlank " -5.e+x".toList).take p.length :=
      List.prefix_iff_eq_take.mp hp
    have hbound : p.length ≤ 6 := hp.length_le
    generalize p.length = n at *
    subst htaken
    have hlow : 3 < n := hlength
    have hlast := hnumber.last
    interval_cases n <;> exact absurd (hlast _ rfl) (by decide)
  exact ⟨hlongest, by decide +kernel, (read?_longest _).2.2 _ hlongest⟩

end

end ChartPackage.Leading
