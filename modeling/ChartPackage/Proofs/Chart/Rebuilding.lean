import Mathlib
import ChartPackage.Proofs.Chart.Alignment
import ChartPackage.Proofs.Chart.ArcRepair
import ChartPackage.Proofs.Chart.Blanks
import ChartPackage.Proofs.Number.Rereading
import ChartPackage.Proofs.Text.Breaks

/-!
Scene controls that have been rebuilt. A rebuilt control is written back as it is, also after line
breaks in it have gone; and where a chart has its controls rebuilt, a scan finds the rebuilt ones
and no other.
-/

namespace ChartPackage.SceneControl

/-! ### Controls that are read as they are written -/

/-- Written down, the control ends where its statement ends. -/
structure Legible (c : SceneControl) : Prop where
  wellFormed : c.WellFormed
  closed : ¬ terminator <:+: [','].intercalate c.arguments ++ [')']

theorem keyword_prefix_written (c : SceneControl) : keyword <+: c.written := by
  rw [written, List.append_assoc]
  exact List.prefix_append _ _

theorem parse?_of_legible {c : SceneControl} (h : c.Legible) (rest : Text) :
    parse? (c.written ++ rest) = some (c, c.written.length) := by
  have hcut : Text.cut? terminator ([','].intercalate c.arguments ++ terminator ++ rest) =
      some ([','].intercalate c.arguments, rest) := cut?_terminator.mpr ⟨rfl, h.closed⟩
  rw [written, List.append_assoc, List.append_assoc, ← List.append_assoc ([','].intercalate _),
    parse?_of_cut hcut, ofArguments?_splitOn.mpr ⟨h.wellFormed, rfl⟩]
  simp [Nat.add_assoc]

theorem legible_of_parse? {t : Text} {c : SceneControl} {n : Nat} (h : parse? t = some (c, n)) :
    c.Legible ∧ ∃ rest, t = c.written ++ rest := by
  obtain ⟨inner, after, rfl, hcut, harguments, -⟩ := exists_of_parse? h
  obtain ⟨hwell, rfl⟩ := ofArguments?_splitOn.mp harguments
  refine ⟨⟨hwell, (cut?_terminator.mp hcut).2⟩, after, ?_⟩
  simp [written]

theorem extent?_of_legible {c : SceneControl} (h : c.Legible) (rest : Text) :
    extent? (c.written ++ rest) = some c.written.length :=
  extent?_of_some (parse?_of_legible h rest)

theorem written_injective {c c' : SceneControl} (h : c.Legible) (h' : c'.Legible)
    (heq : c.written = c'.written) : c = c' := by
  have hparse := parse?_of_legible h []
  have hparse' := parse?_of_legible h' []
  rw [heq, hparse'] at hparse
  exact (Prod.mk.inj (Option.some.inj hparse)).1.symm

theorem verdict_of_legible (effects : List Text) {c : SceneControl} (h : c.Legible) :
    verdict effects c.written =
      if Allowed effects (trim c.effect) then .replace c.render else .delete := by
  have hparse := parse?_of_legible h []
  rw [List.append_nil] at hparse
  rw [verdict, hparse]

/-! ### Controls that are written back as they are -/

/-- A third argument that stays as it is, also with fewer line breaks in it. -/
def Lasting (v : Text) : Prop :=
  v = [] ∨ '.' ∈ v ∨ '\n' ∉ v ∧ Fixed.render (Leading.read? v) 2 = v

theorem value_of_ne_nil {raw : Text} (h : raw ≠ []) (rest : List Text) :
    value (raw :: rest) =
      if '.' ∈ trim raw then trim raw else Fixed.render (Leading.read? (trim raw)) 2 := by
  cases raw with
  | nil => exact absurd rfl h
  | cons c raw => rfl

theorem value_of_lasting {v : Text} (h : Lasting v) (htrim : trim v = v) (rest : List Text) :
    value (v :: rest) = v := by
  by_cases hv : v = []
  · rw [hv]
    rfl
  · rw [value_of_ne_nil hv, htrim]
    split
    · rfl
    · next hpoint => exact ((h.resolve_left hv).resolve_left hpoint).2

/-- Six arguments in the form that they are written back in. -/
structure Tidy (effects : List Text) (c : SceneControl) : Prop where
  legible : c.Legible
  trimmed : ∀ x ∈ c.arguments, Text.Trimmed isChartBlank x
  extras : ∃ v x y z, c.extras = [v, x, y, z] ∧ Lasting v
  allowed : Allowed effects c.effect

variable {effects : List Text} {c c' : SceneControl}

theorem render_of_tidy (h : c.Tidy effects) : c.render = c.written := by
  obtain ⟨v, x, y, z, hextras, hv⟩ := h.extras
  have htrim := fun a ha => (h.trimmed a ha).trim_eq
  obtain ⟨time, effect, extras⟩ := c
  obtain rfl := hextras
  simp only [arguments, List.forall_mem_cons] at htrim
  obtain ⟨htime, heffect, hvalue, hx, hy, hz, -⟩ := htrim
  simp only [render, written, arguments, List.getD_cons_succ, List.getD_cons_zero, trim,
    htime, heffect, hx,
    hy, hz, value_of_lasting hv hvalue]

theorem verdict_of_tidy (h : c.Tidy effects) : verdict effects c.written = .replace c.written := by
  have heffect : trim c.effect = c.effect := (h.trimmed c.effect (by simp [arguments])).trim_eq
  rw [verdict_of_legible effects h.legible, heffect, if_pos h.allowed, render_of_tidy h]

/-- A statement that is written back as it is. -/
def Settles (effects : List Text) (statement : Text) : Prop :=
  ∃ c : SceneControl, c.Tidy effects ∧ statement = c.written

theorem verdict_of_settles {s : Text} (h : Settles effects s) : verdict effects s = .replace s := by
  obtain ⟨c, hc, rfl⟩ := h
  exact verdict_of_tidy hc

/-- The control with its arguments in the form that they are written back in. -/
def tidied (c : SceneControl) : SceneControl where
  time := trim c.time
  effect := trim c.effect
  extras :=
    [value c.extras, trim (c.extras.getD 1 []), trim (c.extras.getD 2 []),
      trim (c.extras.getD 3 [])]

theorem written_tidied (c : SceneControl) : c.tidied.written = c.render := rfl

/-- The arguments of the tidied control are trimmed ones of the control, nothing, or a number. -/
theorem forall_tidied {P Q : Text → Prop} (hnil : Q []) (htrim : ∀ x, P x → Q (trim x))
    (hnumber : ∀ v, Q (Fixed.render v 2)) (h : ∀ x ∈ c.arguments, P x) :
      ∀ x ∈ c.tidied.arguments, Q x := by
  have hextras : ∀ x ∈ c.extras, Q (trim x) := fun x hx => htrim x (h x (by simp [arguments, hx]))
  have hextra : ∀ i, Q (trim (c.extras.getD i [])) := by
    intro i
    rw [List.getD_eq_getElem?_getD]
    cases hi : c.extras[i]? with
    | none => exact hnil
    | some x => exact hextras x (List.mem_of_getElem? hi)
  have hvalue : Q (value c.extras) := by
    cases hcase : c.extras with
    | nil => exact hnil
    | cons raw extras =>
        by_cases hraw : raw = []
        · rw [hraw]
          exact hnil
        · rw [value_of_ne_nil hraw]
          split
          · exact hextras raw (by simp [hcase])
          · exact hnumber _
  simp only [arguments, tidied, List.forall_mem_cons]
  exact ⟨htrim _ (h _ (by simp [arguments])), htrim _ (h _ (by simp [arguments])), hvalue,
    hextra 1, hextra 2,
    hextra 3, by simp⟩

theorem lasting_value (extras : List Text) : Lasting (value extras) := by
  cases extras with
  | nil => exact Or.inl rfl
  | cons raw extras =>
      by_cases hraw : raw = []
      · rw [hraw]
        exact Or.inl rfl
      · rw [value_of_ne_nil hraw]
        split
        · next hpoint => exact Or.inr (Or.inl hpoint)
        · by_cases hpoint : '.' ∈ Fixed.render (Leading.read? (trim raw)) 2
          · exact Or.inr (Or.inl hpoint)
          · exact Or.inr
              (Or.inr ⟨Fixed.not_mem_render (by decide) _ _,
                Fixed.render_reread_of_no_point Nat.two_pos hpoint⟩)

theorem not_terminator_of_bracket {t : Text} (h : ¬ terminator <:+: t) :
    ¬ terminator <:+: t ++ [')'] := by
  rintro ⟨a, b, hab⟩
  rcases List.eq_nil_or_concat b with rfl | ⟨b, d, rfl⟩
  · have hlast := congrArg List.getLast? hab
    simp [terminator] at hlast
  · rw [List.concat_eq_append, ← List.append_assoc] at hab
    exact h ⟨a, b, (List.append_inj' hab rfl).1⟩

/-- A control whose effect is allowed is tidy once its arguments are. -/
theorem tidy_tidied (hlegible : c.Legible) (htime : trim c.time ≠ []) (heffect : trim c.effect ≠ [])
    (hallowed : Allowed effects (trim c.effect)) : c.tidied.Tidy effects where
  legible := by
    have hmarks : ∀ x ∈ c.tidied.arguments, ',' ∉ x ∧ ¬ terminator <:+: x := by
      refine forall_tidied ⟨by simp, by decide⟩ ?_ ?_
        (P := fun x => ',' ∉ x ∧ ¬ terminator <:+: x) ?_
      · intro x hx
        exact ⟨fun hcomma => hx.1 (Text.mem_of_mem_trim hcomma),
          fun hmark => hx.2 (hmark.trans (Text.trim_infix _ _))⟩
      · intro v
        refine ⟨Fixed.not_mem_render (by decide) _ _, fun hmark => ?_⟩
        exact Fixed.not_mem_render (by decide) v 2 (hmark.subset (by decide : ')' ∈ terminator))
      · intro x hx
        refine ⟨hlegible.wellFormed.commas x hx, fun hmark => hlegible.closed ?_⟩
        exact (hmark.trans (Text.infix_intercalate ',' hx)).trans
          (List.infix_append_of_infix_left List.infix_rfl)
    refine ⟨⟨htime, heffect, by simp [tidied], fun x hx => (hmarks x hx).1⟩, ?_⟩
    apply not_terminator_of_bracket
    exact Text.not_infix_intercalate (by decide) (by decide) fun x hx => (hmarks x hx).2
  trimmed := by
    refine forall_tidied (P := fun _ => True) ⟨by simp, by simp⟩
      (fun x _ => Text.trimmed_trim _ x) ?_
      fun _ _ => trivial
    intro v
    have hink : ∀ d ∈ Fixed.render v 2, isChartBlank d = false := fun d hd =>
      not_blank_of_isNumberChar (Fixed.isNumberChar_of_mem_render hd)
    exact ⟨fun d hd => hink d (List.mem_of_head? hd), fun d hd => hink d (List.mem_of_getLast? hd)⟩
  extras := ⟨_, _, _, _, rfl, lasting_value c.extras⟩
  allowed := hallowed

/-- What the effects that a chart may use are made of. -/
def Words (effects : List Text) : Prop := ∀ effect ∈ effects, effect ≠ [] ∧ '\n' ∉ effect

instance (effects : List Text) : Decidable (Words effects) :=
  inferInstanceAs (Decidable (∀ effect ∈ effects, _ ∧ _))

open Text (FewerBreaks)

theorem Lasting.fewerBreaks {v v' : Text} (h : Lasting v) (hbreaks : FewerBreaks v v') :
    Lasting v' := by
  rcases h with hnil | hpoint | ⟨hbreak, hnumber⟩
  · exact Or.inl (hbreaks.eq_nil_iff.mp hnil)
  · exact Or.inr (Or.inl ((hbreaks.mem_iff '.').mp hpoint))
  · rw [hbreaks.eq_of_not_mem hbreak]
    exact Or.inr (Or.inr ⟨hbreak, hnumber⟩)

theorem trimmed_fewerBreaks {x y : Text} (h : Text.Trimmed isChartBlank x)
    (hbreaks : FewerBreaks x y) :
    Text.Trimmed isChartBlank y := by
  rw [Text.Trimmed, ← hbreaks.head?_eq, ← hbreaks.getLast?_eq]
  exact h

theorem Tidy.fewerBreaks (hwords : Words effects) (h : c.Tidy effects) (hlegible : c'.Legible)
    (hbreaks : List.Forall₂ FewerBreaks c.arguments c'.arguments) : c'.Tidy effects where
  legible := hlegible
  trimmed := by
    intro y hy
    obtain ⟨x, hx, hxy⟩ := exists_of_forall₂ hbreaks y hy
    exact trimmed_fewerBreaks (h.trimmed x hx) hxy
  extras := by
    obtain ⟨v, x, y, z, hextras, hv⟩ := h.extras
    obtain ⟨-, hrest⟩ := List.forall₂_cons.mp hbreaks
    obtain ⟨-, hrest⟩ := List.forall₂_cons.mp hrest
    rw [hextras] at hrest
    obtain ⟨v', extras₁, hvv, hrest, h₁⟩ := List.forall₂_cons_left_iff.mp hrest
    obtain ⟨x', extras₂, -, hrest, h₂⟩ := List.forall₂_cons_left_iff.mp hrest
    obtain ⟨y', extras₃, -, hrest, h₃⟩ := List.forall₂_cons_left_iff.mp hrest
    obtain ⟨z', extras₄, -, hrest, h₄⟩ := List.forall₂_cons_left_iff.mp hrest
    obtain rfl := List.forall₂_nil_left_iff.mp hrest
    exact ⟨v', x', y', z', by rw [h₁, h₂, h₃, h₄], hv.fewerBreaks hvv⟩
  allowed := by
    obtain ⟨-, hrest⟩ := List.forall₂_cons.mp hbreaks
    obtain ⟨heffect, -⟩ := List.forall₂_cons.mp hrest
    rw [heffect.eq_of_not_mem (hwords _ h.allowed.2.2.2).2]
    exact h.allowed

/-! ### Where the rebuilt controls stand -/

/-- The second text is the first with each of its controls in place of which a scan finds one
written tidily. -/
inductive Rebuilt (effects : List Text) : Text → Text → Prop where
  | nil : Rebuilt effects [] []
  | cons (d : Char) {s t : Text} : parse? (d :: s) = none → Rebuilt effects s t →
      Rebuilt effects (d :: s) (d :: t)
  | control {c c' : SceneControl} {s t : Text} : c.Legible → c'.Tidy effects → Rebuilt effects s t →
      Rebuilt effects (c.written ++ s) (c'.written ++ t)

theorem written_eq_cons (c : SceneControl) : ∃ u, c.written = 's' :: u := ⟨_, rfl⟩

theorem cut?_written (h : c.Legible) (t : Text) :
    Text.cut? terminator (c.written ++ t) = some (keyword ++ [','].intercalate c.arguments, t) := by
  rw [cut?_terminator]
  refine ⟨by simp [written], ?_⟩
  have hkeyword : keyword = "scenecontrol".toList ++ ['('] := by decide
  rw [hkeyword, List.append_assoc, List.append_assoc, List.singleton_append,
    Text.infix_append_cons_iff (by decide)]
  exact not_or.mpr ⟨by decide, h.closed⟩

theorem Tidy.count_commas (h : c.Tidy effects) {w : Text} (hw : ',' ∈ w) :
    6 ≤ (w ++ (keyword ++ [','].intercalate c.arguments)).count ',' := by
  obtain ⟨v, x, y, z, hextras, -⟩ := h.extras
  have hcount := Text.length_le_count_intercalate ',' c.arguments
  have hlength : c.arguments.length = 6 := by
    rw [arguments, hextras]
    rfl
  have hone := List.count_pos_iff.mpr hw
  rw [List.count_append, List.count_append]
  omega

/-- Text in front of a control that has no comma belongs to the first argument. -/
theorem ofArguments?_behind (h : c.WellFormed) {w : Text} (hw : ',' ∉ w) :
    ofArguments? ((w ++ keyword ++ [','].intercalate c.arguments).splitOn ',') =
      some { c with time := w ++ keyword ++ c.time } := by
  have hlead : ',' ∉ w ++ keyword := by
    rw [List.mem_append]
    exact not_or.mpr ⟨hw, by decide⟩
  rw [Text.splitOn_append_of_not_mem hlead, List.splitOn_intercalate ',' h.commas
    (List.cons_ne_nil _ _)]
  refine ofArguments?_eq_some_iff.mpr ⟨?_, h.effect, h.extras, rfl⟩
  exact List.append_ne_nil_of_right_ne_nil _ h.time

namespace Rebuilt

theorem keeps : Text.Keeps 's' (Rebuilt effects) := by
  intro d s u hd h
  generalize hs : d :: s = v at h
  cases h with
  | nil => cases hs
  | cons e _ h =>
      cases hs
      exact ⟨_, rfl, h⟩
  | @control c _ _ _ _ _ _ =>
      obtain ⟨w, hw⟩ := written_eq_cons c
      rw [hw] at hs
      cases hs
      exact absurd rfl hd

theorem keeps_flip : Text.Keeps 's' (flip (Rebuilt effects)) := by
  intro d t u hd h
  generalize ht : d :: t = v at h
  cases h with
  | nil => cases ht
  | cons e _ h =>
      cases ht
      exact ⟨_, rfl, h⟩
  | @control _ c _ _ _ _ _ =>
      obtain ⟨w, hw⟩ := written_eq_cons c
      rw [hw] at ht
      cases ht
      exact absurd rfl hd

theorem prefix_iff {k s t : Text} (hk : 's' ∉ k) (h : Rebuilt effects s t) : k <+: s ↔ k <+: t :=
  ⟨keeps.prefix_of hk h, keeps_flip.prefix_of hk h⟩

/-- What two such texts hold up to the first end of a clause: the same, or the same and a
control. -/
theorem cut {s t : Text} (h : Rebuilt effects s t) :
    Text.cut? terminator t = none ∨
      ∃ x s' y t', Text.cut? terminator s = some (x, s') ∧ Text.cut? terminator t = some (y, t') ∧
        (x = y ∨ ∃ w c c', x = w ++ (keyword ++ [','].intercalate (arguments c)) ∧
          y = w ++ (keyword ++ [','].intercalate (arguments c')) ∧ c.Legible ∧
            c'.Tidy effects) := by
  induction h with
  | nil => exact Or.inl rfl
  | @cons d s t _ h ih =>
      by_cases hs : terminator <+: d :: s
      · obtain ⟨rfl, hsemicolon⟩ := List.cons_prefix_cons.mp hs
        obtain ⟨s', rfl⟩ := hsemicolon
        obtain ⟨t', rfl, -⟩ := keeps.append (by decide) h
        exact Or.inr ⟨[], s', [], t', rfl, rfl, Or.inl rfl⟩
      · have ht : ¬ terminator <+: d :: t := by
          intro ht
          obtain ⟨rfl, hsemicolon⟩ := List.cons_prefix_cons.mp ht
          exact hs (List.cons_prefix_cons.mpr ⟨rfl, (h.prefix_iff (by decide)).mpr hsemicolon⟩)
        rw [Text.cut?_cons_of_not_start hs, Text.cut?_cons_of_not_start ht]
        rcases ih with hnone | ⟨x, s', y, t', hx, hy, hparts⟩
        · exact Or.inl (by rw [hnone]; rfl)
        · refine Or.inr ⟨d :: x, s', d :: y, t', by rw [hx]; rfl, by rw [hy]; rfl, ?_⟩
          rcases hparts with rfl | ⟨w, c, c', rfl, rfl, hc, hc'⟩
          · exact Or.inl rfl
          · exact Or.inr ⟨d :: w, c, c', rfl, rfl, hc, hc'⟩
  | @control c c' s t hc hc' h ih =>
      exact Or.inr ⟨_, s, _, t, cut?_written hc s, cut?_written hc'.legible t,
        Or.inr ⟨[], c, c', rfl, rfl, hc, hc'⟩⟩

/-- No control starts at a place of a rebuilt text where none started before: to the comma in front
of a control comes one for each of its arguments, which is one too many. -/
theorem parse?_eq_none {d : Char} {s t : Text} (h : Rebuilt effects s t)
    (hnone : parse? (d :: s) = none) :
    parse? (d :: t) = none := by
  by_cases hk : keyword <+: d :: t
  · have hkeyword : keyword = 's' :: "cenecontrol(".toList := by decide
    rw [hkeyword, List.cons_prefix_cons] at hk
    obtain ⟨rfl, t, rfl⟩ := hk
    obtain ⟨s, rfl, hafter⟩ := keeps_flip.append (by decide) h
    have hafter : Rebuilt effects s t := hafter
    change parse? (keyword ++ s) = none at hnone
    change parse? (keyword ++ t) = none
    rcases hafter.cut with hcut | ⟨x, s', y, t', hx, hy, hparts⟩
    · exact parse?_of_cut_none hcut
    · rw [parse?_of_cut hx, Option.map_eq_none_iff] at hnone
      rw [parse?_of_cut hy, Option.map_eq_none_iff]
      rcases hparts with rfl | ⟨w, c, c', rfl, rfl, hc, hc'⟩
      · exact hnone
      · by_cases hw : ',' ∈ w
        · exact ofArguments?_of_commas (hc'.count_commas hw)
        · rw [← List.append_assoc, ofArguments?_behind hc.wellFormed hw] at hnone
          cases hnone
  · rw [parse?, Text.dropLead?_eq_none_iff.mpr hk]
    rfl

theorem aligned {s t : Text} (h : Rebuilt effects s t) :
    Aligned keyword extent? (Rebuilt effects) (fun _ y => Settles effects y) s t := by
  cases h with
  | nil => exact .nil
  | cons d hnone h =>
      exact .single (fun _ => extent?_of_none hnone)
        (fun _ => extent?_of_none (h.parse?_eq_none hnone)) h
  | @control c c' _ _ hc hc' h =>
      exact .statement (keyword_prefix_written c) (keyword_prefix_written c')
        (extent?_of_legible hc _)
        (extent?_of_legible hc'.legible _) ⟨c', hc', rfl⟩ h

end Rebuilt

theorem written_eq_time (c : SceneControl) :
    c.written = keyword ++
      (c.time ++ ',' :: ([','].intercalate (c.effect :: c.extras) ++ terminator)) := by
  rw [written, arguments, List.intercalate_cons_of_ne_nil (List.cons_ne_nil _ _)]
  simp

theorem trim_time_ne_nil (h : c.WellFormed) (hstripped : ∀ d ∈ c.written, Chart.Stripped d)
    (hbreak : ¬ keyword ++ ['\n'] <+: c.written) : trim c.time ≠ [] := by
  intro hnil
  obtain ⟨d, time, htime⟩ := List.exists_cons_of_ne_nil h.time
  rw [written_eq_time, htime] at hstripped hbreak
  have hblank : isChartBlank d = true := by
    by_contra hink
    have hmem : d ∈ trim c.time := Text.mem_trim (by simp [htime]) (Bool.not_eq_true _ ▸ hink)
    rw [hnil] at hmem
    cases hmem
  obtain rfl := hstripped d (by simp) hblank
  exact hbreak ((List.prefix_append_right_inj keyword).mpr (List.prefix_append ['\n'] _))

/-- A chart from which no control is deleted, and in which none starts with a line break, has its
controls rebuilt. -/
theorem rebuilt_judged (hwords : Words effects) {t : Text} (hstripped : ∀ d ∈ t, Chart.Stripped d)
    (hbreak : ¬ keyword ++ ['\n'] <:+: t)
    (hkept : ∀ s ∈ (scan keyword extent? t).statements, verdict effects s ≠ .delete) :
    Rebuilt effects t ((scan keyword extent? t).judged (verdict effects)) := by
  induction hn : t.length using Nat.strongRecOn generalizing t with
  | ind n ih =>
      subst hn
      cases t with
      | nil =>
          rw [scan]
          exact .nil
      | cons d t =>
          cases hparse : parse? (d :: t) with
          | none =>
              rw [scan_cons_of_none fun _ => extent?_of_none hparse] at hkept ⊢
              rw [Tiling.statements_lead] at hkept
              rw [Tiling.judged_lead]
              exact .cons d hparse (ih t.length (Nat.lt_succ_self _)
                (fun e he => hstripped e (List.mem_cons_of_mem d he))
                (fun hmark => hbreak (List.infix_cons hmark)) hkept rfl)
          | some p =>
              obtain ⟨c, n⟩ := p
              obtain ⟨hlegible, rest, ht⟩ := legible_of_parse? hparse
              have hk := keyword_prefix_written c
              have hne := ne_nil_of_keyword_prefix hk
              rw [ht] at hstripped hbreak hkept ⊢
              rw [scan_statement hk hne (extent?_of_legible hlegible rest)] at hkept ⊢
              rw [Tiling.statements_cons, List.forall_mem_cons, verdict_of_legible effects hlegible]
                at hkept
              rw [Tiling.judged_cons, verdict_of_legible effects hlegible]
              obtain ⟨hallowed, hkept⟩ := hkept
              have heffect : Allowed effects (trim c.effect) := by
                by_contra hnot
                exact hallowed (if_neg hnot)
              rw [if_pos heffect, Verdict.apply, ← written_tidied]
              have htime : trim c.time ≠ [] := by
                refine trim_time_ne_nil hlegible.wellFormed
                  (fun e he => hstripped e (List.mem_append_left _ he)) ?_
                exact fun hstart =>
                  hbreak (hstart.isInfix.trans (List.prefix_append _ rest).isInfix)
              refine .control hlegible
                (tidy_tidied hlegible htime (hwords _ heffect.2.2.2).1 heffect) (ih rest.length ?_
                (fun e he => hstripped e (List.mem_append_right _ he))
                (fun hmark => hbreak (List.infix_append_of_infix_right hmark)) hkept rfl)
              rw [ht, List.length_append]
              have hpos := List.length_pos_of_ne_nil hne
              omega

/-! ### Where they stand when line breaks have gone -/

/-- Whether a list of arguments makes a control does not depend on line breaks in them. -/
theorem ofArguments?_fewerBreaks {xs ys : List Text} (h : List.Forall₂ FewerBreaks xs ys) :
    ofArguments? xs = none ↔ ofArguments? ys = none := by
  cases h with
  | nil => rfl
  | @cons time time' xs ys htime h =>
      cases h with
      | nil => rfl
      | @cons effect effect' xs ys heffect h =>
          simp only [ofArguments?, ne_eq, htime.eq_nil_iff, heffect.eq_nil_iff, h.length_eq]
          split <;> simp

/-- Two texts that differ in runs of line breaks only start with controls that do, or with none
both. -/
theorem parse?_fewerBreaks {s t : Text} (h : FewerBreaks s t) :
    (parse? s = none ∧ parse? t = none) ∨
      ∃ c c' : SceneControl, ∃ s' t', s = c.written ++ s' ∧ t = c'.written ++ t' ∧
        c.Legible ∧ c'.Legible ∧
        List.Forall₂ FewerBreaks c.arguments c'.arguments ∧ FewerBreaks s' t' := by
  by_cases hk : keyword <+: s
  · obtain ⟨s, rfl⟩ := hk
    obtain ⟨t, rfl, hafter⟩ := FewerBreaks.keeps.append (by decide) h
    rcases hafter.cut (by decide) (by decide : '\n' ∉ terminator) with ⟨hs, ht⟩ | ⟨x, s', y, t', hs,
      ht, hlead, hrest⟩
    · exact Or.inl ⟨parse?_of_cut_none hs, parse?_of_cut_none ht⟩
    · have hparts := hlead.splitOn (c := ',') (by decide)
      rw [parse?_of_cut hs, parse?_of_cut ht]
      cases hx : ofArguments? (x.splitOn ',') with
      | none =>
          rw [(ofArguments?_fewerBreaks hparts).mp hx]
          exact Or.inl ⟨rfl, rfl⟩
      | some c =>
          have hy : ofArguments? (y.splitOn ',') ≠ none := by
            rw [Ne, ← ofArguments?_fewerBreaks hparts, hx]
            exact Option.some_ne_none c
          obtain ⟨c', hy⟩ := Option.ne_none_iff_exists'.mp hy
          obtain ⟨hwell, rfl⟩ := ofArguments?_splitOn.mp hx
          obtain ⟨hwell', rfl⟩ := ofArguments?_splitOn.mp hy
          obtain ⟨hjoin, hclosed⟩ := cut?_terminator.mp hs
          obtain ⟨hjoin', hclosed'⟩ := cut?_terminator.mp ht
          rw [List.splitOn_intercalate ',' hwell.commas (List.cons_ne_nil _ _),
            List.splitOn_intercalate ',' hwell'.commas (List.cons_ne_nil _ _)] at hparts
          refine Or.inr ⟨c, c', s', t', ?_, ?_, ⟨hwell, hclosed⟩, ⟨hwell', hclosed'⟩, hparts, hrest⟩
          · rw [hjoin]
            simp [written]
          · rw [hjoin']
            simp [written]
  · have hk' : ¬ keyword <+: t := mt (h.prefix_iff (by decide)).mpr hk
    rw [parse?, Text.dropLead?_eq_none_iff.mpr hk, parse?, Text.dropLead?_eq_none_iff.mpr hk']
    exact Or.inl ⟨rfl, rfl⟩

theorem aligned_fewerBreaks (hwords : Words effects) {s t : Text} (h : FewerBreaks s t) :
    Aligned keyword extent? FewerBreaks (fun x y => Settles effects x → Settles effects y) s t := by
  rcases parse?_fewerBreaks h with ⟨hs, ht⟩ | ⟨c, c', s', t', rfl, rfl, hc, hc', harguments, hrest⟩
  · cases h with
    | nil => exact .nil
    | cons d h => exact .single (fun _ => extent?_of_none hs) (fun _ => extent?_of_none ht) h
    | @skip s _ h =>
        have hgap : Idle keyword extent? ['\n'] ('\n' :: s) := idle_single fun _ =>
          extent?_of_none hs
        exact .gap (b := []) (List.cons_ne_nil _ _) hgap idle_nil h
  · refine .statement (keyword_prefix_written c) (keyword_prefix_written c')
      (extent?_of_legible hc s')
      (extent?_of_legible hc' t') ?_ hrest
    rintro ⟨tidy, htidy, hsame⟩
    obtain rfl := written_injective hc htidy.legible hsame
    exact ⟨c', htidy.fewerBreaks hwords hc' harguments, rfl⟩

/-- No control starts with a line break. -/
theorem statements_cons_break (t : Text) :
    (scan keyword extent? ('\n' :: t)).statements = (scan keyword extent? t).statements := by
  rw [scan_cons_of_none fun hk => absurd hk (not_keyword_start (by decide) t),
    Tiling.statements_lead]

/-- A chart from which no control is deleted, and in which none starts with a line break, has as
many controls when they are rebuilt and line breaks have gone, and each is written back as it is. -/
theorem settles_of_fewerBreaks (hwords : Words effects) {t u : Text}
    (hstripped : ∀ d ∈ t, Chart.Stripped d)
    (hbreak : ¬ keyword ++ ['\n'] <:+: t)
    (hkept : ∀ s ∈ (scan keyword extent? t).statements, verdict effects s ≠ .delete)
    (hbreaks : FewerBreaks ('\n' :: (scan keyword extent? t).judged (verdict effects))
      ('\n' :: u)) :
    (scan keyword extent? t).statements.length = (scan keyword extent? u).statements.length ∧
      ∀ s ∈ (scan keyword extent? u).statements, Settles effects s := by
  have hkeyword : keyword ≠ [] := by decide
  have hrebuilt := forall₂_statements hkeyword (fun _ _ => Rebuilt.aligned)
    (rebuilt_judged hwords hstripped hbreak hkept)
  have hdropped := forall₂_statements hkeyword (fun _ _ => aligned_fewerBreaks hwords) hbreaks
  rw [statements_cons_break, statements_cons_break] at hdropped
  refine ⟨hrebuilt.length_eq.trans hdropped.length_eq, fun s hs => ?_⟩
  obtain ⟨x, hx, hsettles⟩ := exists_of_forall₂ hdropped s hs
  obtain ⟨-, -, hx⟩ := exists_of_forall₂ hrebuilt x hx
  exact hsettles hx

end ChartPackage.SceneControl
