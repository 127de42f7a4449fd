import ChartPackage.Proofs.Chart.Scanning
import ChartPackage.Proofs.Chart.Statements

/-!
Where the scene controls of a text are. A text falls into clauses, each up to and with the first
`);` that comes. A scene control never leaves its clause, and it takes the whole rest of it; so a
scan finds in each clause the first control that starts there, and no other.
-/

namespace ChartPackage.SceneControl

/-- The clauses of a text; the last one has no end. -/
def clauses (t : Text) : List Text :=
  match _cut : Text.cut? terminator t with
  | none => [t]
  | some (before, after) => (before ++ terminator) :: clauses after
  termination_by t.length
  decreasing_by
    rw [Text.eq_of_cut? _cut]
    simp [terminator]
    omega

/-- The first control that starts in a text. -/
def first? : Text → Option SceneControl
  | [] => none
  | c :: t =>
      match parse? (c :: t) with
      | some (control, _) => some control
      | none => first? t

/-- The first control of a clause, if it has one, is allowed. -/
def Settled (effects : List Text) (clause : Text) : Prop :=
  ∀ c ∈ first? clause, Allowed effects (trim c.effect)

instance (effects : List Text) (clause : Text) : Decidable (Settled effects clause) :=
  inferInstanceAs (Decidable (∀ c ∈ first? clause, _))

theorem terminator_eq : terminator = [')'] ++ [';'] := rfl

theorem cut?_terminator {t before after : Text} :
    Text.cut? terminator t = some (before, after) ↔
      t = before ++ terminator ++ after ∧ ¬ terminator <:+: before ++ [')'] := by
  rw [terminator_eq, Text.cut?_eq_some_iff]
  simp

/-- In front of the end of a clause a control is read whatever follows, up to this end. -/
theorem parse?_clause {before : Text} (h : ¬ terminator <:+: before ++ [')']) (rest : Text) :
    parse? (before ++ terminator ++ rest) =
      (parse? (before ++ terminator)).map fun p => (p.1, (before ++ terminator).length) := by
  by_cases hk : keyword <+: before
  · obtain ⟨inner, rfl⟩ := hk
    have hinner : ¬ terminator <:+: inner ++ [')'] := fun hi =>
      h (by rw [List.append_assoc]; exact List.infix_append_of_infix_right hi)
    have hcut : ∀ after, Text.cut? terminator (inner ++ terminator ++ after) = some
        (inner, after) :=
      fun after => cut?_terminator.mpr ⟨rfl, hinner⟩
    have hparse := parse?_of_cut (hcut rest)
    have halone := parse?_of_cut (hcut [])
    rw [List.append_nil] at halone
    rw [List.append_assoc, List.append_assoc, List.append_assoc, ← List.append_assoc inner, hparse,
      halone]
    cases ofArguments? (inner.splitOn ',') with
    | none => rfl
    | some c => simp [Nat.add_assoc]
  · have hnone : ∀ after, parse? (before ++ terminator ++ after) = none := by
      intro after
      have hlead : Text.dropLead? keyword (before ++ terminator ++ after) = none := by
        rw [Text.dropLead?_eq_none_iff]
        intro hstart
        rw [List.append_assoc] at hstart
        exact hk (Text.prefix_of_prefix_append_cons (by decide) hstart)
      rw [parse?, hlead]
      rfl
    have halone := hnone []
    rw [List.append_nil] at halone
    rw [hnone, halone]
    rfl

theorem keyword_prefix_of_parse? {t : Text} {c : SceneControl} {n : Nat}
    (h : parse? t = some (c, n)) : keyword <+: t := by
  cases hlead : Text.dropLead? keyword t with
  | none =>
      rw [parse?, hlead] at h
      cases h
  | some rest => exact ⟨rest, (Text.dropLead?_eq_some_iff.mp hlead).symm⟩

theorem ne_nil_of_keyword_prefix {t : Text} (h : keyword <+: t) : t ≠ [] := by
  intro hnil
  rw [hnil, List.prefix_nil] at h
  exact absurd h (by decide)

theorem not_keyword_start {c : Char} (h : c ≠ 's') (t : Text) : ¬ keyword <+: c :: t :=
  fun hstart => h (List.cons_prefix_cons.mp hstart).1.symm

theorem first?_of_parse? {t : Text} {control : SceneControl} {n : Nat}
    (h : parse? t = some (control, n)) : first? t = some control := by
  cases t with
  | nil => cases h
  | cons c t => rw [first?, h]

theorem first?_of_none {c : Char} {t : Text} (h : parse? (c :: t) = none) :
    first? (c :: t) = first? t := by
  rw [first?, h]

theorem clauses_of_none {t : Text} (h : Text.cut? terminator t = none) : clauses t = [t] := by
  rw [clauses]
  split
  · rfl
  · next hsome => rw [h] at hsome; cases hsome

theorem clauses_of_some {t before after : Text}
    (h : Text.cut? terminator t = some (before, after)) :
    clauses t = (before ++ terminator) :: clauses after := by
  rw [clauses]
  split
  · next hnone => rw [h] at hnone; cases hnone
  · next hsome =>
      rw [h] at hsome
      cases hsome
      rfl

theorem starts_not_in_terminator (s rest : Text) (hs : s ≠ []) (hsuffix : s <:+ terminator) :
    ¬ keyword <+: s ++ rest := by
  rw [terminator_eq, List.singleton_append, List.suffix_cons_iff, List.suffix_cons_iff,
    List.suffix_nil] at hsuffix
  rcases hsuffix with rfl | rfl | rfl
  · exact not_keyword_start (by decide) _
  · exact not_keyword_start (by decide) _
  · exact absurd rfl hs

/-- A scan reads this text the same way whatever follows, and deletes its first control or none. -/
structure Independent (t : Text) : Prop where
  closed : Closed keyword extent? t
  count : ∀ effects, (scan keyword extent? t).count (verdict effects) (· = .delete) =
    if Settled effects t then 0 else 1

theorem independent_terminator : Independent terminator := by
  have hgap : ∀ s rest, s ≠ [] → s <:+ terminator → keyword <+: s ++ rest →
      extent? (s ++ rest) = none :=
    fun s rest hs hsuffix hk => absurd hk (starts_not_in_terminator s rest hs hsuffix)
  refine ⟨closed_gap hgap, fun effects => ?_⟩
  have hsettled : Settled effects terminator := fun c hc => by cases hc
  rw [scan_gap_alone fun s => hgap s [], if_pos hsettled]
  rfl

theorem independent_cons {c : Char} {t : Text} (h : ∀ rest, parse? (c :: t ++ rest) = none)
    (ht : Independent t) : Independent (c :: t) := by
  have hscan : ∀ rest, scan keyword extent? (c :: (t ++ rest)) =
      (scan keyword extent? (t ++ rest)).lead [c] :=
    fun rest => scan_cons_of_none fun _ => extent?_of_none (h rest)
  have halone := hscan []
  rw [List.append_nil] at halone
  constructor
  · intro rest
    rw [List.cons_append, hscan, ht.closed, halone, Tiling.lead_append]
  · intro effects
    have hfirst : first? (c :: t) = first? t := first?_of_none (by simpa using h [])
    have hsettled : Settled effects (c :: t) ↔ Settled effects t := by rw [Settled, hfirst, Settled]
    have hcount := ht.count effects
    rw [halone]
    simp only [Tiling.count, Tiling.statements_lead, hsettled] at hcount ⊢
    exact hcount

theorem independent_control {t : Text} {control : SceneControl}
    (h : ∀ rest, parse? (t ++ rest) = some (control, t.length)) : Independent t := by
  have halone := h []
  rw [List.append_nil] at halone
  have hk := keyword_prefix_of_parse? halone
  have hne := ne_nil_of_keyword_prefix hk
  have hextent : ∀ rest, extent? (t ++ rest) = some t.length :=
    fun rest => extent?_of_some (h rest)
  refine ⟨closed_statement hk hne hextent, fun effects => ?_⟩
  have hverdict : verdict effects t =
      if Allowed effects (trim control.effect) then .replace control.render else .delete := by
    rw [verdict, halone]
  have hsettled : Settled effects t ↔ Allowed effects (trim control.effect) := by
    rw [Settled, first?_of_parse? halone]
    simp
  rw [scan_statement_alone hk hne (extent?_of_some halone), Tiling.count, Tiling.statements,
    List.map_cons,
    List.countP_cons, hverdict]
  by_cases hallowed : Allowed effects (trim control.effect)
  · rw [if_pos hallowed, if_pos (hsettled.mpr hallowed)]
    rfl
  · rw [if_neg hallowed, if_neg (mt hsettled.mp hallowed)]
    rfl

theorem independent_clause {before : Text} (h : ¬ terminator <:+: before ++ [')']) :
    Independent (before ++ terminator) := by
  induction before with
  | nil => exact independent_terminator
  | cons c before ih =>
      have hlater : ¬ terminator <:+: before ++ [')'] := fun hi => h (List.infix_cons hi)
      have hparse := parse?_clause h
      cases halone : parse? (c :: before ++ terminator) with
      | none =>
          refine independent_cons (fun rest => ?_) (ih hlater)
          have hrest := hparse rest
          rw [halone] at hrest
          exact hrest
      | some p =>
          have hread : ∀ rest, parse? (c :: before ++ terminator ++ rest) =
              some (p.1, (c :: before ++ terminator).length) := by
            intro rest
            rw [hparse rest, halone]
            rfl
          exact independent_control hread

theorem first?_eq_none {t : Text} (h : ¬ terminator <:+: t) : first? t = none := by
  induction t with
  | nil => rfl
  | cons c t ih =>
      have hnone : parse? (c :: t) = none := by
        cases hlead : Text.dropLead? keyword (c :: t) with
        | none => rw [parse?, hlead]; rfl
        | some rest =>
            have hrest : ¬ terminator <:+: rest := by
              intro hi
              apply h
              rw [Text.dropLead?_eq_some_iff.mp hlead]
              exact List.infix_append_of_infix_right hi
            rw [parse?, hlead]
            simp [Text.cut?_eq_none_iff.mpr hrest]
      rw [first?_of_none hnone, ih fun hi => h (List.infix_cons hi)]

theorem scan_tail {t : Text} (h : ¬ terminator <:+: t) :
    scan keyword extent? t = ⟨[], t⟩ := by
  induction t with
  | nil => rw [scan]
  | cons c t ih =>
      have hnone : parse? (c :: t) = none := by
        cases hparse : parse? (c :: t) with
        | none => rfl
        | some p =>
            have hfirst := first?_eq_none h
            rw [first?_of_parse? hparse] at hfirst
            cases hfirst
      rw [scan_cons_of_none fun _ => extent?_of_none hnone, ih fun hi => h (List.infix_cons hi)]
      rfl

/-- A scan deletes one control in each clause whose first control is not allowed, and no other. -/
theorem count_delete_eq (effects : List Text) (t : Text) :
    (scan keyword extent? t).count (verdict effects) (· = .delete) =
      (clauses t).countP fun clause => ¬ Settled effects clause := by
  induction t using clauses.induct with
  | case1 t hcut =>
      have hnone := Text.cut?_eq_none_iff.mp hcut
      have hsettled : Settled effects t := fun c hc => by
        rw [first?_eq_none hnone] at hc
        cases hc
      rw [clauses_of_none hcut, scan_tail hnone]
      simp [Tiling.count, Tiling.statements, hsettled]
  | case2 t before after hcut ih =>
      obtain ⟨ht, hfirst⟩ := cut?_terminator.mp hcut
      have hclause := independent_clause hfirst
      rw [clauses_of_some hcut, ht, hclause.closed, Tiling.count_append, hclause.count, ih,
        List.countP_cons]
      by_cases hsettled : Settled effects (before ++ terminator)
      · simp [hsettled]
      · simp [hsettled]
        omega

end ChartPackage.SceneControl
