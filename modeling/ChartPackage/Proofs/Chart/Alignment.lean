import Mathlib
import ChartPackage.Proofs.Chart.Scanning

/-!
Scanning two texts side by side. If from any two related places on both texts go on with a gap or
both with a statement, and are related again behind it, a scan finds the same number of statements
in both, and those that correspond are related as the statements are.
-/

namespace ChartPackage

variable {keyword : Text} {extent : Text → Option Nat} {R S : Text → Text → Prop}

/-- How two texts go on: with gaps, or with statements that are related by `S`; behind them they are
related by `R`. -/
inductive Aligned (keyword : Text) (extent : Text → Option Nat) (R S : Text → Text → Prop) :
    Text → Text → Prop where
  | nil : Aligned keyword extent R S [] []
  | gap {a b s t : Text} : a ≠ [] → Idle keyword extent a s → Idle keyword extent b t → R s t →
      Aligned keyword extent R S (a ++ s) (b ++ t)
  | statement {x y s t : Text} : keyword <+: x → keyword <+: y →
      extent (x ++ s) = some x.length → extent (y ++ t) = some y.length → S x y → R s t →
      Aligned keyword extent R S (x ++ s) (y ++ t)

/-- One more character in front of both texts, at which no statement starts in either. -/
theorem Aligned.single {c : Char} {s t : Text} (hs : keyword <+: c :: s → extent (c :: s) = none)
    (ht : keyword <+: c :: t → extent (c :: t) = none) (h : R s t) :
    Aligned keyword extent R S (c :: s) (c :: t) :=
  .gap (a := [c]) (b := [c]) (List.cons_ne_nil c []) (idle_single hs) (idle_single ht) h

theorem forall₂_statements (hkeyword : keyword ≠ [])
    (halign : ∀ s t, R s t → Aligned keyword extent R S s t) {s t : Text} (h : R s t) :
    List.Forall₂ S (scan keyword extent s).statements (scan keyword extent t).statements := by
  induction hn : s.length using Nat.strongRecOn generalizing s t with
  | ind n ih =>
      subst hn
      cases halign s t h with
      | nil =>
          rw [scan]
          exact .nil
      | @gap a b s t hne ha hb hrest =>
          rw [scan_gap ha, scan_gap hb, Tiling.statements_lead, Tiling.statements_lead]
          have hshorter := List.length_pos_of_ne_nil hne
          exact ih s.length (by rw [List.length_append]; omega) hrest rfl
      | @statement x y s t hx hy hxs hyt hrelated hrest =>
          have hxne : x ≠ [] := fun heq => hkeyword (List.prefix_nil.mp (heq ▸ hx))
          have hyne : y ≠ [] := fun heq => hkeyword (List.prefix_nil.mp (heq ▸ hy))
          rw [scan_statement hx hxne hxs, scan_statement hy hyne hyt, Tiling.statements_cons,
            Tiling.statements_cons]
          have hshorter := List.length_pos_of_ne_nil hxne
          exact .cons hrelated (ih s.length (by rw [List.length_append]; omega) hrest rfl)

end ChartPackage
