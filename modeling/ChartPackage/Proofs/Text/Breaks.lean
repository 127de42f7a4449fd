import Mathlib
import ChartPackage.Proofs.Text.Cutting

/-!
Texts with runs of line breaks made shorter. A line break that stays keeps apart what stood on both
sides of it, so a mark without line breaks is found in such a text where it was found before.
-/

namespace ChartPackage.Text

/-- The second text is the first with fewer line breaks in some runs of them, but at least one. -/
inductive FewerBreaks : Text → Text → Prop where
  | nil : FewerBreaks [] []
  | cons (c : Char) {s t : Text} : FewerBreaks s t → FewerBreaks (c :: s) (c :: t)
  | skip {s t : Text} : FewerBreaks ('\n' :: s) t → FewerBreaks ('\n' :: '\n' :: s) t

namespace FewerBreaks

theorem refl (t : Text) : FewerBreaks t t := by
  induction t with
  | nil => exact .nil
  | cons c t ih => exact .cons c ih

theorem append_left (a : Text) {s t : Text} (h : FewerBreaks s t) :
    FewerBreaks (a ++ s) (a ++ t) := by
  induction a with
  | nil => exact h
  | cons c a ih => exact .cons c ih

theorem head?_eq {s t : Text} (h : FewerBreaks s t) : s.head? = t.head? := by
  induction h with
  | nil => rfl
  | cons c _ _ => rfl
  | skip _ ih => exact ih

theorem getLast?_eq {s t : Text} (h : FewerBreaks s t) : s.getLast? = t.getLast? := by
  induction h with
  | nil => rfl
  | @cons c s t h ih =>
      cases s with
      | nil =>
          cases h
          rfl
      | cons d s =>
          obtain ⟨e, t, rfl⟩ : ∃ e u, t = e :: u := by
            have hhead := h.head?_eq
            cases t with
            | nil => cases hhead
            | cons e u => exact ⟨e, u, rfl⟩
          rw [List.getLast?_cons_cons, List.getLast?_cons_cons, ih]
  | skip _ ih =>
      rw [List.getLast?_cons_cons]
      exact ih

theorem eq_nil_iff {s t : Text} (h : FewerBreaks s t) : s = [] ↔ t = [] := by
  rw [← List.head?_eq_none_iff, ← List.head?_eq_none_iff, h.head?_eq]

theorem mem_iff {s t : Text} (h : FewerBreaks s t) (c : Char) : c ∈ s ↔ c ∈ t := by
  induction h with
  | nil => rfl
  | cons d _ ih => rw [List.mem_cons, List.mem_cons, ih]
  | skip _ ih =>
      rw [← ih, List.mem_cons, List.mem_cons]
      tauto

theorem eq_of_not_mem {s t : Text} (h : FewerBreaks s t) (hs : '\n' ∉ s) : t = s := by
  induction h with
  | nil => rfl
  | cons c _ ih => rw [ih fun hmem => hs (List.mem_cons_of_mem c hmem)]
  | skip _ _ => exact absurd (List.mem_cons_self ..) hs

theorem keeps : Keeps '\n' FewerBreaks := by
  intro c s u hc h
  cases h with
  | cons _ h => exact ⟨_, rfl, h⟩
  | skip _ => exact absurd rfl hc

theorem keeps_flip : Keeps '\n' (flip FewerBreaks) := by
  intro c t u hc h
  cases h with
  | cons _ h => exact ⟨_, rfl, h⟩
  | skip h =>
      have hhead := h.head?_eq
      rw [List.head?_cons, List.head?_cons] at hhead
      exact absurd (Option.some.inj hhead).symm hc

theorem prefix_iff {k s t : Text} (hk : '\n' ∉ k) (h : FewerBreaks s t) : k <+: s ↔ k <+: t :=
  ⟨keeps.prefix_of hk h, keeps_flip.prefix_of hk h⟩

/-- What stands between two marks has fewer line breaks too. -/
theorem splitOn {c : Char} (hc : c ≠ '\n') {s t : Text} (h : FewerBreaks s t) :
    List.Forall₂ FewerBreaks (s.splitOn c) (t.splitOn c) := by
  have hpush : ∀ d {ps qs : List Text}, List.Forall₂ FewerBreaks ps qs →
      List.Forall₂ FewerBreaks (ps.modifyHead (d :: ·)) (qs.modifyHead (d :: ·)) := by
    intro d ps qs hparts
    cases hparts with
    | nil => exact .nil
    | cons hhead htail => exact .cons (.cons d hhead) htail
  induction h with
  | nil => exact .cons .nil .nil
  | cons d _ ih =>
      rw [List.splitOn_cons_eq_if_modifyHead, List.splitOn_cons_eq_if_modifyHead]
      split
      · exact .cons .nil ih
      · exact hpush d ih
  | @skip s t _ ih =>
      have hbreak : ('\n' == c) = false := beq_false_of_ne (Ne.symm hc)
      rw [List.splitOn_cons_eq_if_modifyHead, hbreak] at ih ⊢
      rw [List.splitOn_cons_eq_if_modifyHead, hbreak]
      cases hparts : s.splitOn c with
      | nil => exact absurd hparts (by simp)
      | cons head parts =>
          rw [hparts] at ih
          generalize t.splitOn c = pieces at ih ⊢
          cases ih with
          | cons hhead htail => exact .cons (.skip hhead) htail

/-- Both texts hold a mark for the first time after the same text, line breaks apart. -/
theorem cut {mark : Text} (hne : mark ≠ []) (hmark : '\n' ∉ mark) {s t : Text}
    (h : FewerBreaks s t) :
    (cut? mark s = none ∧ cut? mark t = none) ∨
      ∃ x s' y t', cut? mark s = some (x, s') ∧ cut? mark t = some (y, t') ∧ FewerBreaks x y ∧
        FewerBreaks s' t' := by
  have hbreak : ∀ u, ¬ mark <+: '\n' :: u := by
    intro u hu
    obtain ⟨c, mark, rfl⟩ := List.exists_cons_of_ne_nil hne
    obtain ⟨rfl, -⟩ := List.cons_prefix_cons.mp hu
    exact hmark (List.mem_cons_self ..)
  have hnil : cut? mark [] = none := by
    rw [cut?_eq_none_iff, List.infix_nil]
    exact hne
  induction h with
  | nil => exact Or.inl ⟨hnil, hnil⟩
  | @cons c s t h ih =>
      have hprefix := (FewerBreaks.cons c h).prefix_iff hmark
      by_cases hs : mark <+: c :: s
      · obtain ⟨s', hs'⟩ := hs
        obtain ⟨t', ht', hrest⟩ := keeps.append hmark (hs'.symm ▸ FewerBreaks.cons c h)
        refine Or.inr ⟨[], s', [], t', ?_, ?_, .nil, hrest⟩
        · rw [cut?, dropLead?_eq_some_iff.mpr hs'.symm]
        · rw [cut?, dropLead?_eq_some_iff.mpr ht']
      · rw [cut?_cons_of_not_start hs, cut?_cons_of_not_start (mt hprefix.mpr hs)]
        rcases ih with ⟨hnone, hnone'⟩ | ⟨x, s', y, t', hx, hy, hlead, hrest⟩
        · exact Or.inl ⟨by rw [hnone]; rfl, by rw [hnone']; rfl⟩
        · exact Or.inr ⟨c :: x, s', c :: y, t', by rw [hx]; rfl, by rw [hy]; rfl,
            .cons c hlead, hrest⟩
  | @skip s t h ih =>
      rw [cut?_cons_of_not_start (hbreak _)]
      rcases ih with ⟨hnone, hnone'⟩ | ⟨x, s', y, t', hx, hy, hlead, hrest⟩
      · exact Or.inl ⟨by rw [hnone]; rfl, hnone'⟩
      · refine Or.inr ⟨'\n' :: x, s', y, t', by rw [hx]; rfl, hy, ?_, hrest⟩
        -- The piece before the mark starts with the break that stays.
        rw [cut?_cons_of_not_start (hbreak _)] at hx
        obtain ⟨p, -, hp⟩ := Option.map_eq_some_iff.mp hx
        obtain ⟨rfl, -⟩ := Prod.mk.inj hp
        exact .skip hlead

end FewerBreaks
end ChartPackage.Text
