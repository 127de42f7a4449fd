import ChartPackage.Proofs.Chart.Clauses

/-!
Repairing arcs leaves the scene controls alone. An arc has too many commas to be inside a scene
control, so two texts that differ in the arguments of arcs only have the same scene controls.
-/

namespace ChartPackage

namespace Arc

/-- The arc without its closing bracket. -/
def body (a : Arc) : Text := keyword ++ [','].intercalate a.arguments

theorem render_eq (a : Arc) : a.render = a.body ++ [')'] := rfl

theorem not_mem_body {a : Arc} (h : a.Shaped) {c : Char} (hkeyword : c ∉ keyword) (hcomma : c ≠ ',')
    (hc : ∀ shape : Shape, shape.accepts c = false) : c ∉ a.body := by
  rw [body, List.mem_append]
  exact not_or.mpr ⟨hkeyword, Text.not_mem_intercalate hcomma (not_mem_argument h hc)⟩

theorem count_body {a : Arc} (h : a.Shaped) : 9 ≤ a.body.count ',' := by
  have hlength : a.arguments.length = 10 := h.length_eq.symm
  have hcount := Text.length_le_count_intercalate ',' a.arguments
  rw [body, List.count_append]
  omega

end Arc

/-- Texts that differ in the arguments of arcs only. -/
inductive SameButArcs : Text → Text → Prop where
  | nil : SameButArcs [] []
  | cons (c : Char) {s t : Text} : SameButArcs s t → SameButArcs (c :: s) (c :: t)
  | arc {a b : Arc} {s t : Text} : a.Shaped → b.Shaped → SameButArcs s t →
      SameButArcs (a.render ++ s) (b.render ++ t)

namespace SameButArcs

theorem symm {s t : Text} (h : SameButArcs s t) : SameButArcs t s := by
  induction h with
  | nil => exact .nil
  | cons c _ ih => exact .cons c ih
  | arc ha hb _ ih => exact .arc hb ha ih

theorem keeps : Text.Keeps 'a' SameButArcs := by
  intro c s u hc h
  generalize hs : c :: s = v at h
  cases h with
  | nil => cases hs
  | cons d h =>
      cases hs
      exact ⟨_, rfl, h⟩
  | arc _ _ _ =>
      cases hs
      exact absurd rfl hc

theorem of_cons {c : Char} {s u : Text} (h : SameButArcs (c :: s) u) (hc : c ≠ 'a') :
    ∃ t, u = c :: t ∧ SameButArcs s t := keeps c s u hc h

theorem of_append {k s u : Text} (h : SameButArcs (k ++ s) u) (hk : 'a' ∉ k) :
    ∃ t, u = k ++ t ∧ SameButArcs s t := keeps.append hk h

theorem prefix_iff {k s t : Text} (h : SameButArcs s t) (hk : 'a' ∉ k) : k <+: s ↔ k <+: t :=
  ⟨keeps.prefix_of hk h, keeps.prefix_of hk h.symm⟩

end SameButArcs

namespace Arc
open SceneControl (terminator)

theorem bracket_not_mem_body {a : Arc} (h : a.Shaped) : ')' ∉ a.body :=
  not_mem_body h (by decide) (by decide) fun shape => by cases shape <;> decide

theorem semicolon_not_mem_body {a : Arc} (h : a.Shaped) : ';' ∉ a.body :=
  not_mem_body h (by decide) (by decide) fun shape => by cases shape <;> decide

/-- The end of a clause starts nowhere in an arc, unless with its last character. -/
theorem not_terminator_start {a : Arc} (h : a.Shaped) {t : Text} (ht : ¬ [';'] <+: t) (s : Text)
    (hs : s ≠ []) (hsuffix : s <:+ a.render) : ¬ terminator <+: s ++ t := by
  intro hmark
  rw [render_eq, List.suffix_concat_iff] at hsuffix
  rcases hsuffix with rfl | ⟨s, rfl, hbody⟩
  · exact hs rfl
  · cases s with
    | nil => exact ht (List.cons_prefix_cons.mp hmark).2
    | cons c s =>
        obtain ⟨rfl, -⟩ := List.cons_prefix_cons.mp hmark
        exact bracket_not_mem_body h (hbody.subset (List.mem_cons_self ..))

theorem cut?_render {a : Arc} (h : a.Shaped) (t : Text) :
    Text.cut? terminator (a.render ++ ';' :: t) = some (a.body, t) := by
  rw [SceneControl.cut?_terminator]
  refine ⟨by simp [render_eq, terminator], fun hinfix => ?_⟩
  have hmem : ';' ∈ a.body ++ [')'] := hinfix.subset (by decide)
  rcases List.mem_append.mp hmem with hbody | hbracket
  · exact semicolon_not_mem_body h hbody
  · exact absurd hbracket (by decide)

theorem count_render {a : Arc} (h : a.Shaped) (t : Text) : 9 ≤ (a.render ++ t).count ',' := by
  rw [render_eq, List.count_append, List.count_append]
  have hbody := count_body h
  omega

/-- A keyword of another stem starts nowhere in an arc. -/
theorem not_keyword_start {a : Arc} (h : a.Shaped) (stem : Text) (hbracket : ')' ∉ stem ++ ['('])
    (hstem : ¬ stem <:+ "arc".toList) {s : Text} (hs : s ≠ [])
    (hsuffix : s <:+ a.render) (t : Text) :
    ¬ stem ++ ['('] <+: s ++ t := by
  intro hk
  rw [render_eq, List.suffix_concat_iff] at hsuffix
  rcases hsuffix with rfl | ⟨s, rfl, hbody⟩
  · exact hs rfl
  · rw [List.append_assoc, List.singleton_append] at hk
    have hinner : stem ++ ['('] <:+: a.body :=
      (Text.prefix_of_prefix_append_cons hbracket hk).isInfix.trans hbody.isInfix
    have harguments : '(' ∉ [','].intercalate a.arguments :=
      Text.not_mem_intercalate (by decide)
        (not_mem_argument h fun shape => by cases shape <;> decide)
    exact hstem (Text.stem_suffix_of_infix (by decide) harguments hinner)

end Arc

namespace SameButArcs
open SceneControl (terminator)

/-- What two such texts hold up to the first end of a clause. -/
theorem cut {s t : Text} (h : SameButArcs s t) :
    (Text.cut? terminator s = none ∧ Text.cut? terminator t = none) ∨
      ∃ x s' y t', Text.cut? terminator s = some (x, s') ∧ Text.cut? terminator t = some (y, t') ∧
        SameButArcs s' t' ∧ (x = y ∨ 9 ≤ x.count ',' ∧ 9 ≤ y.count ',') := by
  induction h with
  | nil => exact Or.inl ⟨rfl, rfl⟩
  | @cons c s t h ih =>
      by_cases hs : terminator <+: c :: s
      · obtain ⟨rfl, hsemicolon⟩ := List.cons_prefix_cons.mp hs
        obtain ⟨s', rfl⟩ := hsemicolon
        obtain ⟨t', rfl, hrest⟩ := of_cons h (by decide)
        exact Or.inr ⟨[], s', [], t', rfl, rfl, hrest, Or.inl rfl⟩
      · have ht : ¬ terminator <+: c :: t :=
          mt ((SameButArcs.cons c h).prefix_iff (by decide)).mpr hs
        rw [Text.cut?_cons_of_not_start hs, Text.cut?_cons_of_not_start ht]
        rcases ih with ⟨hnone, hnone'⟩ | ⟨x, s', y, t', hx, hy, hrest, hcommas⟩
        · exact Or.inl ⟨by rw [hnone]; rfl, by rw [hnone']; rfl⟩
        · refine Or.inr ⟨c :: x, s', c :: y, t', by rw [hx]; rfl, by rw [hy]; rfl, hrest, ?_⟩
          rcases hcommas with rfl | ⟨hx, hy⟩
          · exact Or.inl rfl
          · exact Or.inr ⟨hx.trans List.count_le_count_cons, hy.trans List.count_le_count_cons⟩
  | @arc a b s t ha hb h ih =>
      by_cases hs : [';'] <+: s
      · obtain ⟨s', rfl⟩ := hs
        obtain ⟨t', rfl, hrest⟩ := of_cons h (by decide)
        exact Or.inr ⟨a.body, s', b.body, t', Arc.cut?_render ha s', Arc.cut?_render hb t', hrest,
          Or.inr ⟨Arc.count_body ha, Arc.count_body hb⟩⟩
      · have ht : ¬ [';'] <+: t := mt (h.prefix_iff (by decide)).mpr hs
        rw [Text.cut?_append_of_not_start (Arc.not_terminator_start ha hs),
          Text.cut?_append_of_not_start (Arc.not_terminator_start hb ht)]
        rcases ih with ⟨hnone, hnone'⟩ | ⟨x, s', y, t', hx, hy, hrest, -⟩
        · exact Or.inl ⟨by rw [hnone]; rfl, by rw [hnone']; rfl⟩
        · exact Or.inr ⟨a.render ++ x, s', b.render ++ y, t', by rw [hx]; rfl, by
            rw [hy]; rfl, hrest,
            Or.inr ⟨Arc.count_render ha x, Arc.count_render hb y⟩⟩

end SameButArcs

namespace SceneControl

theorem parse?_of_cut_none {t : Text} (h : Text.cut? terminator t = none) :
    parse? (keyword ++ t) = none := by
  simp only [parse?, Text.dropLead?_append, h, Option.bind_eq_bind, Option.bind_some,
    Option.bind_none]

theorem ofArguments?_of_commas {inner : Text} (h : 6 ≤ inner.count ',') :
    ofArguments? (inner.splitOn ',') = none := by
  cases hcontrol : ofArguments? (inner.splitOn ',') with
  | none => rfl
  | some c =>
      obtain ⟨-, -, hextras, harguments⟩ := ofArguments?_eq_some_iff.mp hcontrol
      have hlength := Text.length_splitOn ',' inner
      rw [← harguments, arguments] at hlength
      simp at hlength
      omega

/-- Two texts that differ in arcs only start with the same scene control, or with none both. -/
theorem parse?_same {s t : Text} (h : SameButArcs s t) :
    (parse? s = none ∧ parse? t = none) ∨
      ∃ statement control s' t', keyword <+: statement ∧ s = statement ++ s' ∧ t = statement ++ t' ∧
        SameButArcs s' t' ∧ parse? s = some (control, statement.length) ∧
        parse? t = some (control, statement.length) := by
  by_cases hk : keyword <+: s
  · obtain ⟨s, rfl⟩ := hk
    obtain ⟨t, rfl, hafter⟩ := h.of_append (by decide)
    rcases hafter.cut with ⟨hs, ht⟩ | ⟨x, s', y, t', hs, ht, hrest, hcommas⟩
    · exact Or.inl ⟨parse?_of_cut_none hs, parse?_of_cut_none ht⟩
    · rw [parse?_of_cut hs, parse?_of_cut ht]
      rcases hcommas with rfl | ⟨hx, hy⟩
      · cases hcontrol : ofArguments? (x.splitOn ',') with
        | none => exact Or.inl ⟨rfl, rfl⟩
        | some control =>
            refine Or.inr ⟨keyword ++ x ++ terminator, control, s', t', ?_, ?_, ?_, hrest, ?_, ?_⟩
            · rw [List.append_assoc]
              exact List.prefix_append _ _
            · simp [(cut?_terminator.mp hs).1]
            · simp [(cut?_terminator.mp ht).1]
            · simp [Nat.add_assoc]
            · simp [Nat.add_assoc]
      · rw [ofArguments?_of_commas (Nat.le_trans (by decide) hx),
          ofArguments?_of_commas (Nat.le_trans (by decide) hy)]
        exact Or.inl ⟨rfl, rfl⟩
  · have hk' : ¬ keyword <+: t := mt (h.prefix_iff (by decide)).mpr hk
    rw [parse?, Text.dropLead?_eq_none_iff.mpr hk, parse?, Text.dropLead?_eq_none_iff.mpr hk']
    exact Or.inl ⟨rfl, rfl⟩

/-- No scene control starts in an arc. -/
theorem scan_render {a : Arc} (h : a.Shaped) (t : Text) :
    scan keyword extent? (a.render ++ t) = (scan keyword extent? t).lead a.render :=
  scan_gap fun _ hs hsuffix hk =>
    absurd hk (Arc.not_keyword_start h ("scenecontrol".toList) (by decide) (by decide) hs hsuffix t)

theorem statements_same {s t : Text} (h : SameButArcs s t) :
    (scan keyword extent? s).statements = (scan keyword extent? t).statements := by
  induction hn : s.length using Nat.strongRecOn generalizing s t with
  | ind n ih =>
      subst hn
      cases h with
      | nil => rfl
      | @arc a b s t ha hb h =>
          rw [scan_render ha, scan_render hb, Tiling.statements_lead, Tiling.statements_lead]
          exact ih s.length (by simp [Arc.render]; omega) h rfl
      | @cons c s t h =>
          rcases parse?_same (.cons c h) with
            ⟨hs, ht⟩ | ⟨statement, control, s', t', hk, hs, ht, hrest, hparse, hparse'⟩
          · rw [scan_cons_of_none fun _ => extent?_of_none hs,
              scan_cons_of_none fun _ => extent?_of_none ht, Tiling.statements_lead,
              Tiling.statements_lead]
            exact ih s.length (by simp) h rfl
          · rw [hs] at hparse
            rw [ht] at hparse'
            have hne := ne_nil_of_keyword_prefix hk
            have hshorter : s'.length < (c :: s).length := by
              rw [hs, List.length_append]
              have hpos := List.length_pos_of_ne_nil hne
              omega
            rw [hs, ht, scan_statement hk hne (extent?_of_some hparse),
              scan_statement hk hne (extent?_of_some hparse'), Tiling.statements_cons,
              Tiling.statements_cons, ih s'.length hshorter hrest rfl]

end SceneControl

theorem sameButArcs_judged (t : Text) :
    SameButArcs t ((scan Arc.keyword Arc.extent? t).judged Arc.verdict) := by
  induction hn : t.length using Nat.strongRecOn generalizing t with
  | ind n ih =>
      subst hn
      cases t with
      | nil =>
          rw [scan]
          exact .nil
      | cons c rest =>
          cases hparse : Arc.parse? (c :: rest) with
          | none =>
              have hnone : Arc.extent? (c :: rest) = none := by rw [Arc.extent?, hparse]; rfl
              rw [scan_cons_of_none fun _ => hnone, Tiling.judged_lead]
              exact .cons c (ih rest.length (by simp) rest rfl)
          | some p =>
              obtain ⟨a, after⟩ := p
              obtain ⟨hshaped, ht⟩ := Arc.parse?_eq_some_iff.mp hparse
              have hk : Arc.keyword <+: a.render := by
                rw [Arc.render, List.append_assoc]
                exact List.prefix_append _ _
              have hne : a.render ≠ [] := by simp [Arc.render_eq]
              have hshorter : after.length < (c :: rest).length := by
                rw [ht, List.length_append]
                have hpos := List.length_pos_of_ne_nil hne
                omega
              rw [ht, scan_statement hk hne (Arc.extent?_render hshaped after), Tiling.judged_cons,
                Arc.verdict_render hshaped]
              have hrest := ih after.length hshorter after rfl
              split
              · exact .arc hshaped (Arc.repaired_shaped hshaped) hrest
              · exact .arc hshaped hshaped hrest

/-- Repairing arcs changes no scene control. -/
theorem Chart.statements_repairArcs (t : Text) :
    (sceneControls (repairArcs t).1).statements = (sceneControls t).statements :=
  (SceneControl.statements_same (sameButArcs_judged t)).symm

end ChartPackage
