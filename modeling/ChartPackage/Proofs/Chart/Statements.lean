import ChartPackage.Chart.Sanitize
import ChartPackage.Proofs.Number.Characters
import ChartPackage.Proofs.Text.Cutting
import Mathlib.Data.List.Forall2
import Mathlib.Data.List.TakeDrop
import Mathlib.Data.List.TakeWhile

/-!
The three statement forms as they are written, and that their readers take exactly these: whatever
text follows a written statement, the reader gives back the statement and its length.
-/

namespace ChartPackage

theorem exists_of_forall₂ {α β : Type} {R : α → β → Prop} {as : List α} {bs : List β}
    (h : List.Forall₂ R as bs) : ∀ b ∈ bs, ∃ a ∈ as, R a b := by
  induction h with
  | nil => simp
  | cons hab _ ih =>
      intro b hb
      rcases List.mem_cons.mp hb with rfl | hb
      · exact ⟨_, List.mem_cons_self .., hab⟩
      · obtain ⟨a, ha, hR⟩ := ih b hb
        exact ⟨a, List.mem_cons_of_mem _ ha, hR⟩

namespace Arc

/-- An argument of a shape: nonempty, of accepted characters only. -/
def Fits (shape : Shape) (argument : Text) : Prop :=
  argument ≠ [] ∧ ∀ c ∈ argument, shape.accepts c = true

def shapes : List Shape := .integer :: .integer :: otherShapes

def arguments (a : Arc) : List Text := a.start :: a.finish :: a.others

/-- Ten arguments, each of the shape that its place asks for. -/
def Shaped (a : Arc) : Prop := List.Forall₂ Fits shapes a.arguments

theorem argument?_eq_some_iff {shape : Shape} {separator : Char}
    (hs : shape.accepts separator = false) {t argument rest : Text} :
    argument? shape separator t = some (argument, rest) ↔
      Fits shape argument ∧ t = argument ++ separator :: rest := by
  have hspan : t.span shape.accepts = (t.takeWhile shape.accepts, t.dropWhile shape.accepts) :=
    List.span_eq_takeWhile_dropWhile _ t
  constructor
  · intro h
    have hjoin : t.takeWhile shape.accepts ++ t.dropWhile shape.accepts = t :=
      List.takeWhile_append_dropWhile
    have hall : ∀ c ∈ t.takeWhile shape.accepts, shape.accepts c = true :=
      fun c hc => List.mem_takeWhile_imp hc
    rw [argument?, hspan] at h
    cases htake : t.takeWhile shape.accepts with
    | nil => simp [htake] at h
    | cons c lead =>
        cases hdrop : t.dropWhile shape.accepts with
        | nil => simp [htake, hdrop] at h
        | cons d after =>
            simp only [htake, hdrop] at h hall hjoin
            split at h
            · next hd =>
                cases h
                subst hd
                exact ⟨⟨by simp, hall⟩, hjoin.symm⟩
            · cases h
  · rintro ⟨⟨hne, hall⟩, rfl⟩
    have htake : (argument ++ separator :: rest).takeWhile shape.accepts = argument := by
      rw [List.takeWhile_append_of_pos hall]
      simp [hs]
    have hdrop : (argument ++ separator :: rest).dropWhile shape.accepts = separator :: rest := by
      rw [List.dropWhile_append_of_pos hall]
      simp [hs]
    rw [argument?, hspan, htake, hdrop]
    cases argument with
    | nil => exact absurd rfl hne
    | cons c argument => simp

theorem accepts_comma (shape : Shape) : shape.accepts ',' = false := by
  cases shape <;> decide

theorem accepts_bracket (shape : Shape) : shape.accepts ')' = false := by
  cases shape <;> decide

theorem ne_nil_of_fits {shapes : List Shape} {arguments : List Text} (hne : shapes ≠ [])
    (h : List.Forall₂ Fits shapes arguments) : arguments ≠ [] := by
  rintro rfl
  exact hne (List.forall₂_nil_right_iff.mp h)

theorem arguments?_eq_some_iff {shapes : List Shape} (hne : shapes ≠ []) {t rest : Text}
    {arguments : List Text} :
    arguments? shapes t = some (arguments, rest) ↔
      List.Forall₂ Fits shapes arguments ∧ t = [','].intercalate arguments ++ ')' :: rest := by
  induction shapes generalizing t arguments rest with
  | nil => exact absurd rfl hne
  | cons shape shapes ih =>
      simp only [arguments?, Option.bind_eq_bind, Option.bind_eq_some_iff, Prod.exists,
        Option.pure_def, Option.some.injEq, Prod.mk.injEq]
      by_cases hlast : shapes = []
      · subst hlast
        simp only [if_true, argument?_eq_some_iff (accepts_bracket shape), arguments?,
          Option.some.injEq, Prod.mk.injEq]
        constructor
        · rintro ⟨argument, _, ⟨hfits, rfl⟩, _, _, ⟨rfl, rfl⟩, rfl, rfl⟩
          exact ⟨.cons hfits .nil, by simp⟩
        · rintro ⟨hall, rfl⟩
          cases hall with
          | cons hfits htail =>
              cases htail
              exact ⟨_, _, ⟨hfits, by simp⟩, _, _, ⟨rfl, rfl⟩, rfl, rfl⟩
      · simp only [hlast, if_false, argument?_eq_some_iff (accepts_comma shape), ih hlast]
        constructor
        · rintro ⟨argument, _, ⟨hfits, rfl⟩, others, _, ⟨hall, rfl⟩, rfl, rfl⟩
          refine ⟨.cons hfits hall, ?_⟩
          rw [List.intercalate_cons_of_ne_nil (ne_nil_of_fits hlast hall)]
          simp
        · rintro ⟨hall, rfl⟩
          cases hall with
          | @cons _ argument _ others hfits hall =>
              refine ⟨argument, _, ⟨hfits, ?_⟩, others, _, ⟨hall, rfl⟩, rfl, rfl⟩
              rw [List.intercalate_cons_of_ne_nil (ne_nil_of_fits hlast hall)]
              simp

theorem render_cons_cons {start finish : Text} {others : List Text} (h : others ≠ []) :
    render ⟨start, finish, others⟩ =
      keyword ++ (start ++ ',' :: (finish ++ ',' :: ([','].intercalate others ++ [')']))) := by
  rw [render, List.intercalate_cons_of_ne_nil (List.cons_ne_nil _ _),
    List.intercalate_cons_of_ne_nil h]
  simp

/-- The reader of arcs takes a written arc with whatever follows it, and nothing else. -/
theorem parse?_eq_some_iff {t rest : Text} {a : Arc} :
    parse? t = some (a, rest) ↔ a.Shaped ∧ t = a.render ++ rest := by
  obtain ⟨start, finish, others⟩ := a
  have hshapes : otherShapes ≠ [] := by decide
  simp only [parse?, Option.bind_eq_bind, Option.bind_eq_some_iff, Prod.exists,
    Option.pure_def, Option.some.injEq, Prod.mk.injEq, Text.dropLead?_eq_some_iff,
    argument?_eq_some_iff (accepts_comma _), arguments?_eq_some_iff hshapes, Arc.mk.injEq]
  constructor
  · rintro ⟨_, rfl, _, _, ⟨hstart, rfl⟩, _, _, ⟨hfinish, rfl⟩, _, _, ⟨hall, rfl⟩,
      ⟨rfl, rfl, rfl⟩, rfl⟩
    refine ⟨.cons hstart (.cons hfinish hall), ?_⟩
    rw [render_cons_cons (ne_nil_of_fits hshapes hall)]
    simp
  · rintro ⟨hshaped, rfl⟩
    obtain ⟨hstart, hrest⟩ := List.forall₂_cons.mp hshaped
    obtain ⟨hfinish, hall⟩ := List.forall₂_cons.mp hrest
    rw [render_cons_cons (ne_nil_of_fits hshapes hall)]
    refine ⟨start ++ ',' :: (finish ++ ',' :: ([','].intercalate others ++ ')' :: rest)), by simp,
      start, _, ⟨hstart, rfl⟩, finish, _, ⟨hfinish, rfl⟩, others, _, ⟨hall, rfl⟩,
      ⟨rfl, rfl, rfl⟩, rfl⟩

theorem extent?_render {a : Arc} (h : a.Shaped) (rest : Text) :
    extent? (a.render ++ rest) = some a.render.length := by
  rw [extent?, parse?_eq_some_iff.mpr ⟨h, rfl⟩]
  simp

theorem verdict_render {a : Arc} (h : a.Shaped) :
    verdict a.render = if a.Degenerate then .replace a.repaired.render else .keep := by
  have hparse : parse? a.render = some (a, []) :=
    parse?_eq_some_iff.mpr ⟨h, (List.append_nil _).symm⟩
  rw [verdict, hparse]

theorem not_mem_argument {a : Arc} (h : a.Shaped) {c : Char}
    (hc : ∀ shape : Shape, shape.accepts c = false) : ∀ x ∈ a.arguments, c ∉ x := by
  intro x hx hcx
  obtain ⟨shape, -, -, hfits⟩ := exists_of_forall₂ h x hx
  simpa [hc shape] using hfits c hcx

theorem shaped_iff {a : Arc} :
    a.Shaped ↔ Fits .integer a.start ∧ Fits .integer a.finish ∧
      List.Forall₂ Fits otherShapes a.others := by
  rw [Shaped, shapes, arguments, List.forall₂_cons, List.forall₂_cons]

theorem repaired_shaped {a : Arc} (h : a.Shaped) : a.repaired.Shaped := by
  obtain ⟨start, finish, others⟩ := a
  obtain ⟨hstart, hfinish, hothers⟩ := shaped_iff.mp h
  have hsuccessor : Fits .integer (Numeral.successor finish) :=
    ⟨Numeral.addOne_ne_nil _, Numeral.isDigit_of_mem_successor hfinish.2⟩
  exact shaped_iff.mpr ⟨hstart, hsuccessor, hothers⟩

theorem not_blank_of_accepts {shape : Shape} {c : Char} (h : shape.accepts c = true) :
    isChartBlank c = false := by
  cases shape with
  | integer => exact not_blank_of_isDigit h
  | decimal =>
      rcases Bool.or_eq_true_iff.mp h with h | h
      · exact not_blank_of_isDigit h
      · rw [beq_iff_eq.mp h]
        decide
  | word =>
      rcases Bool.or_eq_true_iff.mp h with h | h
      · exact not_blank_of_isAlphanum h
      · rw [beq_iff_eq.mp h]
        decide

theorem forall_mem_render {P : Char → Prop} (hkeyword : ∀ c ∈ keyword, P c) (hcomma : P ',')
    (hbracket : P ')')
    (hshape : ∀ (shape : Shape) c, shape.accepts c = true → P c) {a : Arc} (h : a.Shaped) :
    ∀ c ∈ a.render, P c := by
  have harguments : ∀ c ∈ [','].intercalate a.arguments, P c := by
    apply Text.forall_mem_intercalate hcomma
    intro x hx c hc
    obtain ⟨shape, -, -, hfits⟩ := exists_of_forall₂ h x hx
    exact hshape shape c (hfits c hc)
  intro c hc
  rcases List.mem_append.mp hc with hc | hc
  · rcases List.mem_append.mp hc with hc | hc
    · exact hkeyword c hc
    · exact harguments c hc
  · rw [List.mem_singleton.mp hc]
    exact hbracket

/-- An arc holds no blank. -/
theorem not_blank_render {a : Arc} (h : a.Shaped) : ∀ c ∈ a.render, isChartBlank c = false :=
  forall_mem_render (List.forall_iff_forall_mem.mp (by decide)) (by decide) (by decide)
    (fun _ _ => not_blank_of_accepts) h

end Arc

namespace SceneControl

def arguments (c : SceneControl) : List Text := c.time :: c.effect :: c.extras

/-- The statement with its arguments as they are. -/
def written (c : SceneControl) : Text := keyword ++ [','].intercalate c.arguments ++ terminator

/-- Two to six arguments, the first two not empty, none with a comma in it. -/
structure WellFormed (c : SceneControl) : Prop where
  time : c.time ≠ []
  effect : c.effect ≠ []
  extras : c.extras.length ≤ 4
  commas : ∀ x ∈ c.arguments, ',' ∉ x

theorem ofArguments?_eq_some_iff {arguments : List Text} {c : SceneControl} :
    ofArguments? arguments = some c ↔
      c.time ≠ [] ∧ c.effect ≠ [] ∧ c.extras.length ≤ 4 ∧ c.arguments = arguments := by
  obtain ⟨time, effect, extras⟩ := c
  match arguments with
  | [] | [_] => simp [ofArguments?, SceneControl.arguments]
  | t :: e :: es =>
      simp only [ofArguments?, SceneControl.arguments]
      split
      · next h =>
          simp only [Option.some.injEq, SceneControl.mk.injEq, List.cons.injEq]
          constructor
          · rintro ⟨rfl, rfl, rfl⟩
            exact ⟨h.1, h.2.1, h.2.2, rfl, rfl, rfl⟩
          · rintro ⟨-, -, -, rfl, rfl, rfl⟩
            exact ⟨rfl, rfl, rfl⟩
      · next h =>
          simp only [reduceCtorEq, false_iff]
          rintro ⟨h1, h2, h3, heq⟩
          cases heq
          exact h ⟨h1, h2, h3⟩

/-- The control that stands between the brackets, if one does. -/
theorem ofArguments?_splitOn {inner : Text} {c : SceneControl} :
    ofArguments? (inner.splitOn ',') = some c ↔
      c.WellFormed ∧ inner = [','].intercalate c.arguments := by
  rw [ofArguments?_eq_some_iff]
  constructor
  · rintro ⟨htime, heffect, hextras, heq⟩
    refine ⟨⟨htime, heffect, hextras, ?_⟩, ?_⟩
    · rw [heq]
      exact fun x hx => Text.not_mem_of_mem_splitOn hx
    · rw [heq, List.intercalate_splitOn]
  · rintro ⟨h, rfl⟩
    exact ⟨h.time, h.effect, h.extras,
      (List.splitOn_intercalate ',' h.commas (List.cons_ne_nil _ _)).symm⟩

theorem parse?_of_cut {t inner after : Text} (h : Text.cut? terminator t = some (inner, after)) :
    parse? (keyword ++ t) = (ofArguments? (inner.splitOn ',')).map fun c =>
      (c, keyword.length + inner.length + terminator.length) := by
  simp only [parse?, Text.dropLead?_append, h, Option.bind_eq_bind, Option.bind_some,
    Option.pure_def]
  cases ofArguments? (inner.splitOn ',') <;> rfl

/-- What a text with a control at its start looks like. -/
theorem exists_of_parse? {t : Text} {c : SceneControl} {n : Nat} (h : parse? t = some (c, n)) :
    ∃ inner after, t = keyword ++ (inner ++ terminator ++ after) ∧
      Text.cut? terminator (inner ++ terminator ++ after) = some (inner, after) ∧
      ofArguments? (inner.splitOn ',') = some c ∧
      n = keyword.length + inner.length + terminator.length := by
  simp only [parse?, Option.bind_eq_bind, Option.bind_eq_some_iff, Prod.exists, Option.pure_def,
    Option.some.injEq, Prod.mk.injEq] at h
  obtain ⟨rest, hlead, inner, after, hcut, control, harguments, rfl, rfl⟩ := h
  have hrest := Text.eq_of_cut? hcut
  subst hrest
  exact ⟨inner, after, Text.dropLead?_eq_some_iff.mp hlead, hcut, harguments, rfl⟩

theorem mem_of_mem_argument {t : Text} {c : SceneControl} {n : Nat} (h : parse? t = some (c, n))
    {x : Text} (hx : x ∈ c.arguments) {d : Char} (hd : d ∈ x) : d ∈ t := by
  obtain ⟨inner, after, rfl, -, harguments, -⟩ := exists_of_parse? h
  obtain ⟨-, -, -, heq⟩ := ofArguments?_eq_some_iff.mp harguments
  rw [heq] at hx
  have hinner := Text.mem_of_mem_splitOn hx hd
  simp [hinner]

theorem extent?_of_some {t : Text} {c : SceneControl} {n : Nat} (h : parse? t = some (c, n)) :
    extent? t = some n := by
  rw [extent?, h]
  rfl

theorem extent?_of_none {t : Text} (h : parse? t = none) : extent? t = none := by
  rw [extent?, h]
  rfl

theorem length_written (c : SceneControl) :
    c.written.length =
      keyword.length + ([','].intercalate c.arguments).length + terminator.length := by
  simp only [written, List.length_append]

/-- A statement without closing brackets in it ends at its own. -/
theorem parse?_written {c : SceneControl} (h : c.WellFormed) (hclose : ∀ x ∈ c.arguments, ')' ∉ x)
    (rest : Text) : parse? (c.written ++ rest) = some (c, c.written.length) := by
  have hinner : ')' ∉ [','].intercalate c.arguments :=
    Text.not_mem_intercalate (by decide) hclose
  have hcut : Text.cut? [')', ';'] _ = some ([','].intercalate c.arguments, rest) :=
    Text.cut?_append hinner rest
  have hsplit : c.written ++ rest =
      keyword ++ ([','].intercalate c.arguments ++ [')', ';'] ++ rest) := by
    simp [written, terminator]
  rw [hsplit, parse?_of_cut hcut, ofArguments?_splitOn.mpr ⟨h, rfl⟩, length_written]
  rfl

theorem verdict_written (effects : List Text) {c : SceneControl} (h : c.WellFormed)
    (hclose : ∀ x ∈ c.arguments, ')' ∉ x) :
    verdict effects c.written =
      if Allowed effects (trim c.effect) then .replace c.render else .delete := by
  have hparse := parse?_written h hclose []
  rw [List.append_nil] at hparse
  rw [verdict, hparse]

end SceneControl

namespace TimingGroup

/-- The header with these flags. -/
def written (flags : List Text) : Text := keyword ++ [','].intercalate flags ++ ")\x7b".toList

theorem parse?_of_cut {t inner after rest : Text} (h : Text.cut? ")" t = some (inner, after))
    (hbrace : after.dropWhile isChartBlank = '{' :: rest) :
    parse? (keyword ++ t) = some (inner, after.takeWhile isChartBlank) := by
  simp only [parse?, Text.dropLead?_append, h, List.span_eq_takeWhile_dropWhile, hbrace,
    Option.bind_eq_bind, Option.bind_some]

theorem parse?_written {flags : List Text} (hclose : ∀ x ∈ flags, ')' ∉ x) (rest : Text) :
    parse? (written flags ++ rest) = some ([','].intercalate flags, []) := by
  have hinner : ')' ∉ [','].intercalate flags := Text.not_mem_intercalate (by decide) hclose
  have hcut : Text.cut? ")" ([','].intercalate flags ++ [')'] ++ '{' :: rest) = _ :=
    Text.cut?_append hinner ('{' :: rest)
  have hblank : isChartBlank '{' = false := by decide
  have hsplit : written flags ++ rest =
      keyword ++ ([','].intercalate flags ++ [')'] ++ '{' :: rest) := by
    simp [written]
  have hbrace : ('{' :: rest).dropWhile isChartBlank = '{' :: rest := by simp [hblank]
  rw [hsplit, parse?_of_cut hcut hbrace]
  simp [hblank]

theorem extent?_written {flags : List Text} (hclose : ∀ x ∈ flags, ')' ∉ x) (rest : Text) :
    extent? (written flags ++ rest) = some (written flags).length := by
  rw [extent?, parse?_written hclose]
  simp [written]
  omega

theorem verdict_written (allowed : List Text) {flags : List Text} (hne : flags ≠ [])
    (hcommas : ∀ x ∈ flags, ',' ∉ x) (hclose : ∀ x ∈ flags, ')' ∉ x) :
    verdict allowed (written flags) =
      if flags.all fun flag => isValidFlag allowed (Text.trim isChartBlank flag) then .keep
      else if written flags = cleared then .keep
      else .replace cleared := by
  have hparse := parse?_written hclose []
  rw [List.append_nil] at hparse
  rw [verdict, hparse]
  simp only [List.splitOn_intercalate ',' hcommas hne]

end TimingGroup
end ChartPackage
